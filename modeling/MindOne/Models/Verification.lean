import MindOne.Engine.SplitPackages
import MindOne.Models.Files

/-!
# The verification of a registered model

A model is looked up in the registry and its files are compared with the record. A
record of one file keeps the digest of this file, a record of a bundle the digest of
a text about all shards, and for every shard the digest of its file. Before a model
is used, its primary file is compared once more with the digest of the record.
-/

namespace MindOne.Models

open CheckedArithmetic ByteReader MindOne.Engine MindOne.Stream PlacedScan

/-- What the registry answers a lookup with, and what is found wrong with a file. -/
inductive RegistryFailure where
  | registry (error : ModelRegistryError)
  | file (error : ModelFileError)
  deriving DecidableEq

inductive FindFailure where
  | registry (error : RegistryFailure)
  | modelValidation (message : String)
  | file (error : ModelFileError)
  deriving DecidableEq

def encodeArtifact (artifact : ModelArtifactRecord) : List UInt8 :=
  let name := utf8 (artifact.path.fileName.getD "")
  leBytes 8 name.length ++ name ++ leBytes 8 artifact.sizeBytes ++ utf8 artifact.sha256 ++
    leBytes 2 artifact.ggufSplit.index ++ leBytes 2 artifact.ggufSplit.count

/-- The text that the digest of a bundle is about. -/
def encodeBundle (artifacts : List ModelArtifactRecord) : List UInt8 :=
  utf8 "mindone-model-bundle-v1" ++ 0 :: artifacts.flatMap encodeArtifact

def bundleSha256 (tools : ModelTools) (artifacts : List ModelArtifactRecord) : String :=
  tools.hexDigest (encodeBundle artifacts)

/-- 64 hexadecimal digits of either case. -/
def IsSha256 (value : String) : Prop :=
  value.toList.length = 64 ∧ value.toList.all (fun c =>
    c.isDigit || ('a' ≤ c && c ≤ 'f') || ('A' ≤ c && c ≤ 'F')) = true

instance (value : String) : Decidable (IsSha256 value) := inferInstanceAs (Decidable (_ ∧ _))

def artifactPaths (record : ModelRecord) : List PathBuf :=
  if record.artifacts = [] then [record.path] else record.artifacts.map ModelArtifactRecord.path

/-! ### The layout of a bundle -/

/-- The part of a bundle that has been seen: the prefix of its names and its paths. -/
structure LayoutScan where
  splitPrefix : Option (List Char)
  paths : List PathBuf

def checkArtifact (name : String) (parent : PathBuf) (expectedCount : Nat) (scan : LayoutScan)
    (entry : ModelArtifactRecord × Nat) : Except ModelRegistryError LayoutScan := do
  let (artifact, position) := entry
  rejectIf (artifact.path.parent ≠ some parent ∨ ¬ IsSha256 artifact.sha256)
    (.corrupt ("模型包 " ++ name ++ " 的分片登记无效"))
  let parsed ← okOr (.corrupt ("模型包分片文件名无效：" ++ artifact.path.display))
    (parseGgufSplitFilename artifact.path)
  rejectIf (parsed.index ≠ position + 1 ∨ parsed.count ≠ expectedCount ∨
      artifact.ggufSplit.index ≠ position ∨ artifact.ggufSplit.count ≠ expectedCount)
    (.corrupt ("模型包分片编号不连续：" ++ artifact.path.display))
  rejectIf (∃ value ∈ scan.splitPrefix, value ≠ parsed.splitPrefix)
    (.corrupt "模型包包含不同前缀的分片")
  rejectIf (artifact.path ∈ scan.paths) (.corrupt "模型包包含重复分片路径")
  return ⟨some (scan.splitPrefix.getD parsed.splitPrefix), artifact.path :: scan.paths⟩

section Registry
variable (tools : ModelTools)

/-- The layout of a record that has shards. -/
def validateBundleLayout (record : ModelRecord) : Except ModelRegistryError Unit := do
  rejectIf (record.format ≠ .gguf ∨
      record.compatibleEngines ≠ ModelFormat.gguf.compatibleEngines)
    (.corrupt ("模型包 " ++ record.name ++ " 的格式或兼容引擎登记无效"))
  rejectIf (record.artifacts.head?.map ModelArtifactRecord.path ≠ some record.path)
    (.corrupt ("模型包 " ++ record.name ++ " 的主路径不是第一分片"))
  rejectIf (2 ^ 16 ≤ record.artifacts.length) (.corrupt "模型包分片数量溢出")
  rejectIf (¬ (2 ≤ record.artifacts.length ∧ record.artifacts.length ≤ 256))
    (.corrupt ("模型包 " ++ record.name ++ " 的分片数量无效"))
  let parent ← okOr (.corrupt ("模型包 " ++ record.name ++ " 缺少父目录")) record.path.parent
  let _ ← record.artifacts.zipIdx.foldlM
    (checkArtifact record.name parent record.artifacts.length) ⟨none, []⟩
  let total := (record.artifacts.map ModelArtifactRecord.sizeBytes).sum
  rejectIf (2 ^ 64 ≤ total) (.corrupt "模型包大小溢出")
  rejectIf (total ≠ record.sizeBytes ∨ bundleSha256 tools record.artifacts ≠ record.sha256)
    (.corrupt ("模型包 " ++ record.name ++ " 的聚合大小或摘要无效"))

def validateArtifactLayout (record : ModelRecord) : Except ModelRegistryError Unit :=
  if record.artifacts = [] then .ok () else validateBundleLayout tools record

section Lookup
variable (tree : FileTree) (models : PathBuf)

def ensureManagedPath (path modelsRoot : PathBuf) : Except ModelRegistryError Unit := do
  let canonicalRoot ← okOr .io (tree.canonicalize modelsRoot)
  let canonicalPath ← okOr .io (tree.canonicalize path)
  let node ← okOr .io (tree.node path)
  rejectIf (node.isFile = false ∨ path ≠ canonicalPath ∨ canonicalPath = canonicalRoot ∨
      ¬ canonicalRoot.components <+: canonicalPath.components)
    (.outsideManagedDirectory canonicalPath)

/-- The directory of the registry file, which is that of the models. -/
def managedRoot : Except ModelRegistryError PathBuf := okOr .io (tree.canonicalize models)

def validateRegistryRecord (record : ModelRecord) (modelsRoot : PathBuf) :
    Except ModelRegistryError Unit := do
  (validateName record.name).mapError fun _ => .corrupt ("模型登记名称无效：" ++ record.name)
  rejectIf (¬ IsSha256 record.sha256) (.corrupt ("模型 " ++ record.name ++ " 的 SHA-256 登记无效"))
  ensureManagedPath tree record.path modelsRoot
  validateArtifactLayout tools record
  record.artifacts.forM fun artifact => ensureManagedPath tree artifact.path modelsRoot

/-- `ModelRegistry::find`. -/
def findRecord (file : RegistryFile) (nameOrId : String) :
    Except ModelRegistryError ModelRecord := do
  let modelsRoot ← managedRoot tree models
  let data ← readData file
  let record ← okOr (.notFound nameOrId) (lookup data.models nameOrId)
  validateRegistryRecord tools tree record modelsRoot
  return record

def findByManagedPath (file : RegistryFile) (path : PathBuf) :
    Except ModelRegistryError ModelRecord := do
  let node ← okOr .io (tree.node path)
  rejectIf (node.isFile = false) (.outsideManagedDirectory path)
  let canonical ← okOr .io (tree.canonicalize path)
  ensureManagedPath tree canonical models
  let modelsRoot ← managedRoot tree models
  let data ← readData file
  let record ← okOr (.notFound canonical.display)
    (data.models.find? fun model => model.path = canonical)
  validateRegistryRecord tools tree record modelsRoot
  return record

end Lookup

/-! ### The comparison with the files -/

section Verification
variable (tree : FileTree) (now : Int)

def verifyArtifact (artifact : ModelArtifactRecord) :
    Except RegistryFailure ValidationReport := do
  let report ← (validateModel tools tree now artifact.path (some artifact.sha256)).mapError
    RegistryFailure.file
  rejectIf (report.sizeBytes ≠ artifact.sizeBytes ∨ report.ggufSplit ≠ some artifact.ggufSplit)
    (.registry (.corrupt ("模型包分片登记与当前文件不一致：" ++ artifact.path.display)))
  return report

def verifyBundleRecord (record : ModelRecord) :
    Except RegistryFailure (List ValidationReport) := do
  (validateArtifactLayout tools record).mapError RegistryFailure.registry
  let reports ← record.artifacts.mapM (verifyArtifact tools tree now)
  ((validateGgufSplitReports reports).mapError ModelRegistryError.validation).mapError
    RegistryFailure.registry
  let rebuilt ← (recordFromReports (bundleSha256 tools) record.id record.name reports).mapError
    RegistryFailure.registry
  rejectIf (rebuilt.path ≠ record.path ∨ rebuilt.format ≠ record.format ∨
      rebuilt.sizeBytes ≠ record.sizeBytes ∨ rebuilt.sha256 ≠ record.sha256 ∨
      rebuilt.compatibleEngines ≠ record.compatibleEngines)
    (.registry (.corrupt ("模型包 " ++ record.name ++ " 的聚合登记不一致")))
  return reports

def fileIsCurrent (record : ModelRecord) : Bool :=
  match validateModel tools tree now record.path (some record.sha256) with
  | .ok report => report.format = record.format ∧ report.sizeBytes = record.sizeBytes ∧
      report.compatibleEngines = record.compatibleEngines
  | .error _ => false

def verificationIsCurrent (record : ModelRecord) : Bool :=
  if record.artifacts ≠ [] then (verifyBundleRecord tools tree now record).isOk
  else fileIsCurrent tools tree now record

def isManaged (models path : PathBuf) : Bool := (ensureManagedPath tree path models).isOk

def verificationIsCurrentIn (record : ModelRecord) (models : PathBuf) : Bool :=
  isManaged tree models record.path &&
    (artifactPaths record).all (isManaged tree models) &&
    verificationIsCurrent tools tree now record

/-- `Path::components().count()`: a dot counts at the start only. -/
def componentCount (text : List Char) : Nat :=
  (PathBuf.ofText text).components.length +
    if (text.splitOn '/').head? = some ['.'] then 1 else 0

/-- The record that a target stands for: an absolute path, a name or an identifier. -/
def findTarget (models : PathBuf) (file : RegistryFile) (target : String) :
    Except FindFailure ModelRecord :=
  if target.toList.head? = some '/' then
    (findByManagedPath tools tree models file (PathBuf.ofText target.toList)).mapError fun e =>
      .registry (.registry e)
  else if 1 < componentCount target.toList then
    .error (.modelValidation
      "模型路径必须是受管 models 目录内的绝对路径；相对值仅可使用模型名称或 ID")
  else (findRecord tools tree models file target).mapError fun e => .registry (.registry e)

def findVerifiedModel (models : PathBuf) (file : RegistryFile) (target : String) :
    Except FindFailure ModelRecord := do
  let record ← findTarget tools tree models file target
  rejectIf (verificationIsCurrentIn tools tree now record models = false)
    (.modelValidation ("模型 " ++ record.name ++ " 已变化，请先运行 mindone model verify " ++
      record.name))
  let _ ← (validateModel tools tree now record.path (some record.sha256)).mapError FindFailure.file
  return record

end Verification

end Registry

end MindOne.Models
