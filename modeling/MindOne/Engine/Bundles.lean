import MindOne.Engine.ModelRegistry
import MindOne.Lib.KeyedTable

/-!
# Downloading a model bundle

The shards of a split model are downloaded one by one into a staging directory. A
shard grows in a partial file, which is linked to its target once it has been
validated. The complete directory gets its final name in one step, and then the
bundle is registered. A run may be killed between any two of these operations, and
the next one goes on with what it finds.
-/

namespace MindOne.Engine

open CheckedArithmetic KeyedTable MindOne.Stream

structure FileEntry where
  name : String
  content : List UInt8

/-- The plain files of a directory. -/
abbrev Directory := Table FileEntry.name

def Directory.names (directory : Directory) : List String := directory.rows.map FileEntry.name

structure RemoteArtifact where
  file : PathBuf
  trustedSha256 : Option String
  sizeBytes : Option Nat

structure DeploymentArtifact where
  artifacts : List RemoteArtifact

/-- What a model file says of itself. -/
structure Inspection where
  format : ModelFormat
  ggufSplit : Option GgufSplitInfo
  sha256 : String

structure BundleServices where
  modelsRoot : PathBuf
  /-- The content that the remote has for an artifact. -/
  remote : RemoteArtifact → List UInt8
  /-- Whether the remote answers a range request with the range. -/
  honoursRange : Bool
  /-- The digest in the headers of the answer. -/
  headerSha256 : RemoteArtifact → Option String
  /-- The checks of `validate_model` but the one of the digest, given the extension. -/
  inspect : Option (List Char) → List UInt8 → Except ValidationError Inspection
  bundleSha256 : List ModelArtifactRecord → String
  modifiedUnix : Int
  verifiedAtUnix : Int

inductive DownloadError where
  | unsafePath | missingChecksum | http
  | alreadyExists (path : PathBuf)
  | httpStatus (status : Nat)
  | validation (error : ValidationError)

inductive BundleError where
  | general (message : String)
  | modelValidation (message : String)
  | validation (error : ValidationError)
  | download (error : DownloadError)
  | registry (error : ModelRegistryError)

/-- `trim().to_ascii_lowercase()`, if that leaves 64 hexadecimal digits. -/
def normalizeSha256 (value : String) : Option String :=
  let trimmed := ((value.toList.dropWhile isWhitespace).reverse.dropWhile
    isWhitespace).reverse.map Char.toLower
  if trimmed.length = 64 ∧ trimmed.all (fun c => c.isDigit || ('a' ≤ c && c ≤ 'f')) = true then
    some (String.ofList trimmed)
  else none

/-- Letters, digits, dots, underscores and hyphens. -/
def safeComponent (value : String) : Bool :=
  value ≠ "" && value.toList.all fun c =>
    c.toNat < 128 && (c.isAlphanum || c = '.' || c = '_' || c = '-')

def validateSingleSegment (value label : String) : Except BundleError Unit :=
  rejectIf (safeComponent value = false ∨ value = "." ∨ value = "..")
    (.general (label ++ "只能包含字母、数字、点、下划线和连字符"))

/-- Every occurrence at the end is taken off; `fuel` bounds their number. -/
def trimEndMatches (suffix : List Char) : Nat → List Char → List Char
  | 0, s => s
  | fuel + 1, s =>
      if suffix <:+ s then trimEndMatches suffix fuel (s.take (s.length - suffix.length)) else s

/-- The partial file that the bundle expects beside a shard. -/
def partialNameOf (stem extension : List Char) : String :=
  String.ofList ('.' :: (stem ++ ".part.".toList ++ extension))

/-- The partial file that `download_model` writes. -/
def downloadPartialName (outputName : String) (extension : List Char) : String :=
  partialNameOf (trimEndMatches ('.' :: extension) outputName.toList.length outputName.toList)
    extension

structure Shard where
  artifact : RemoteArtifact
  outputName : String
  partialName : String

def shardOf (artifact : RemoteArtifact) : Except BundleError Shard := do
  let outputName ← okOr (.modelValidation "GGUF 分片缺少安全文件名") artifact.file.fileName
  validateSingleSegment outputName "GGUF 分片文件名"
  let suffix ← okOr (.modelValidation "GGUF 分片扩展名无效") (extension outputName.toList)
  let stem := outputName.toList.take (outputName.toList.length - (suffix.length + 1))
  return ⟨artifact, outputName, partialNameOf stem suffix⟩

/-- The names of all shards; a target may not occur among the names before it. -/
def bundleShards : List RemoteArtifact → List String → Except BundleError (List Shard)
  | [], _ => .ok []
  | artifact :: rest, allowed => do
      let shard ← shardOf artifact
      rejectIf (shard.outputName ∈ allowed)
        (.modelValidation ("GGUF 分片本地文件名重复：" ++ shard.outputName))
      let shards ← bundleShards rest (shard.partialName :: shard.outputName :: allowed)
      return shard :: shards

def allowedEntries (shards : List Shard) : List String :=
  shards.flatMap fun shard => [shard.outputName, shard.partialName]

section Validation
variable (services : BundleServices)

def validateModel (path : PathBuf) (content : List UInt8) (expected : String) :
    Except ValidationError ValidationReport := do
  let inspection ←
    services.inspect (path.fileName.bind fun name => extension name.toList) content
  let normalized ← okOr (.checksumMismatch expected inspection.sha256) (normalizeSha256 expected)
  rejectIf (normalized ≠ inspection.sha256) (.checksumMismatch normalized inspection.sha256)
  return {
    path
    format := inspection.format
    sizeBytes := content.length
    sha256 := inspection.sha256
    modifiedUnix := services.modifiedUnix
    compatibleEngines := inspection.format.compatibleEngines
    verifiedAtUnix := services.verifiedAtUnix
    ggufSplit := inspection.ggufSplit }

/-- Validate the file of a name in a directory. -/
def validateEntry (path : PathBuf) (directory : Directory) (name expected : String) :
    Except ValidationError ValidationReport := do
  let entry ← okOr (.notAFile (path.join name)) (directory.find name)
  validateModel services (path.join name) entry.content expected

end Validation

/-- The files of one bundle and the registry. -/
structure Disk where
  staging : Option Directory
  final : Option Directory
  registry : RegistryFile

/-- The shards of the run and the reports of those that it is done with. -/
structure Progress where
  shards : List Shard
  reports : List ValidationReport

def Progress.current (progress : Progress) : Option Shard :=
  progress.shards[progress.reports.length]?

/-- How far a run has come. -/
inductive BundleStage where
  | idle
  | preparing
  | listing
  | shard (progress : Progress)
  /-- The target is missing, and the remote is asked for what the partial file lacks. -/
  | requesting (progress : Progress) (shard : Shard)
  | opening (progress : Progress) (shard : Shard) (resumed : Bool) (rest : List UInt8)
  | receiving (progress : Progress) (shard : Shard) (rest : List UInt8)
  | linking (progress : Progress) (shard : Shard)
  /-- The partial file is still there, beside its target. -/
  | linked (progress : Progress) (shard : Shard)
  | renaming (progress : Progress)
  | renamed (progress : Progress)
  | registering (reports : List ValidationReport)
  | ended (result : Except BundleError ModelRecord)

structure BundleSystem where
  disk : Disk
  stage : BundleStage

section Steps
variable (services : BundleServices) (localName : String) (deployment : DeploymentArtifact)

def stagingPath : PathBuf := services.modelsRoot.join ("." ++ localName ++ ".bundle.part")
def finalPath : PathBuf := services.modelsRoot.join (localName ++ ".bundle")

/-- What the run stops with. -/
def BundleSystem.fail (system : BundleSystem) (error : BundleError) : BundleSystem :=
  { system with stage := .ended (.error error) }

def BundleSystem.proceed (system : BundleSystem) (stage : BundleStage) : BundleSystem :=
  { system with stage }

def BundleSystem.writeStaging (system : BundleSystem) (directory : Directory)
    (stage : BundleStage) : BundleSystem :=
  { disk := { system.disk with staging := some directory }, stage }

/-- The checks before anything is touched, and the staging directory. -/
def prepare (system : BundleSystem) : BundleSystem :=
  match validateSingleSegment localName "本地模型名称" with
  | .error error => system.fail error
  | .ok _ =>
      if deployment.artifacts.length < 2 then
        system.fail (.general "分片下载路径至少需要两个 GGUF 文件")
      else if system.disk.final.isSome = true then
        system.fail (.general ("模型包目标已存在但未登记，拒绝覆盖：" ++
          (finalPath services localName).display))
      else
        match system.disk.staging with
        | some _ => system.proceed .listing
        | none => system.writeStaging .empty .listing

def listEntries (system : BundleSystem) (directory : Directory) : BundleSystem :=
  match bundleShards deployment.artifacts [] with
  | .error error => system.fail error
  | .ok shards =>
      if ∀ name ∈ directory.names, name ∈ allowedEntries shards then
        system.proceed (.shard ⟨shards, []⟩)
      else system.fail (.modelValidation "模型包续传目录包含未登记或不安全条目")

/-- The report of a finished shard is kept when its size is the promised one. -/
def finishShard (system : BundleSystem) (progress : Progress) (shard : Shard)
    (report : ValidationReport) : BundleSystem :=
  match shard.artifact.sizeBytes with
  | none => system.fail (.modelValidation "GGUF 分片缺少可信远端大小")
  | some expected =>
      if report.sizeBytes ≠ expected then
        system.fail (.modelValidation ("GGUF 分片大小与 HF 清单不一致：" ++
          shard.artifact.file.display))
      else system.proceed (.shard { progress with reports := progress.reports ++ [report] })

def lookAtShard (system : BundleSystem) (directory : Directory) (progress : Progress) :
    BundleSystem :=
  match progress.current with
  | none =>
      match validateGgufSplitReports progress.reports with
      | .error error => system.fail (.validation error)
      | .ok _ => system.proceed (.renaming progress)
  | some shard =>
      match shard.artifact.trustedSha256, shard.artifact.sizeBytes with
      | none, _ => system.fail (.modelValidation "GGUF 分片缺少可信 LFS SHA-256")
      | _, none => system.fail (.modelValidation "GGUF 分片缺少可信远端大小")
      | some expected, some _ =>
          match directory.find shard.outputName with
          | none => system.proceed (.requesting progress shard)
          | some _ =>
              match validateEntry services (stagingPath services localName) directory
                shard.outputName expected with
              | .error error => system.fail (.validation error)
              | .ok report => finishShard system progress shard report

/-- The name of the partial file, and the digest that the download trusts. -/
def downloadNames (shard : Shard) : Except DownloadError (String × String) := do
  let suffix ← okOr .unsafePath (extension shard.outputName.toList)
  let trusted ← okOr .missingChecksum
    ((shard.artifact.trustedSha256.bind normalizeSha256).or
      (services.headerSha256 shard.artifact))
  return (downloadPartialName shard.outputName suffix, trusted)

/-- The answer of the remote to a request for all bytes after the first `existing`. -/
def answerRange (content : List UInt8) (existing : Nat) : Except Nat (Bool × List UInt8) :=
  if existing = 0 ∨ services.honoursRange = false then .ok (false, content)
  else if existing < content.length then .ok (true, content.drop existing)
  else .error 416

def request (system : BundleSystem) (directory : Directory) (progress : Progress) (shard : Shard) :
    BundleSystem :=
  match downloadNames services shard with
  | .error error => system.fail (.download error)
  | .ok (partialName, _) =>
      let existing := ((directory.find partialName).map (·.content.length)).getD 0
      match answerRange services (services.remote shard.artifact) existing with
      | .error status => system.fail (.download (.httpStatus status))
      | .ok (resumed, rest) => system.proceed (.opening progress shard resumed rest)

/-- Open the partial file for appending, or anew. -/
def openPartial (system : BundleSystem) (directory : Directory) (progress : Progress)
    (shard : Shard) (resumed : Bool) (rest : List UInt8) : BundleSystem :=
  match downloadNames services shard with
  | .error error => system.fail (.download error)
  | .ok (partialName, _) =>
      let content := if resumed = true then
        ((directory.find partialName).map FileEntry.content).getD [] else []
      system.writeStaging (directory.set ⟨partialName, content⟩) (.receiving progress shard rest)

def receive (system : BundleSystem) (directory : Directory) (progress : Progress) (shard : Shard)
    (rest : List UInt8) (n : Nat) : BundleSystem :=
  match downloadNames services shard with
  | .error error => system.fail (.download error)
  | .ok (partialName, _) =>
      let content := ((directory.find partialName).map FileEntry.content).getD []
      system.writeStaging (directory.set ⟨partialName, content ++ rest.take n⟩)
        (.receiving progress shard (rest.drop n))

/-- The complete partial file is validated and linked to its target. -/
def link (system : BundleSystem) (directory : Directory) (progress : Progress) (shard : Shard) :
    BundleSystem :=
  match downloadNames services shard with
  | .error error => system.fail (.download error)
  | .ok (partialName, trusted) =>
      match validateEntry services (stagingPath services localName) directory partialName
        trusted with
      | .error error =>
          system.writeStaging (directory.erase partialName)
            (.ended (.error (.download (.validation error))))
      | .ok _ =>
          match directory.find shard.outputName, directory.find partialName with
          | none, some entry =>
              system.writeStaging (directory.set ⟨shard.outputName, entry.content⟩)
                (.linked progress shard)
          | _, _ => system.fail (.download (.alreadyExists
              ((stagingPath services localName).join shard.outputName)))

/-- The target is validated once more, and the partial file goes. -/
def unlink (system : BundleSystem) (directory : Directory) (progress : Progress) (shard : Shard) :
    BundleSystem :=
  match downloadNames services shard with
  | .error error => system.fail (.download error)
  | .ok (partialName, trusted) =>
      match validateEntry services (stagingPath services localName) directory shard.outputName
        trusted with
      | .error error =>
          system.writeStaging ((directory.erase shard.outputName).erase partialName)
            (.ended (.error (.download (.validation error))))
      | .ok report =>
          finishShard { system with
            disk := { system.disk with staging := some (directory.erase partialName) } }
            progress shard report

/-- `fs::rename` of the staging directory to its final name. -/
def publish (system : BundleSystem) (directory : Directory) (progress : Progress) :
    BundleSystem :=
  { disk := { system.disk with
      staging := none
      final := some directory }
    stage := .renamed progress }

def rollback (system : BundleSystem) (error : BundleError) : BundleSystem :=
  { disk := { system.disk with
      staging := system.disk.final
      final := none }
    stage := .ended (.error error) }

def validateFinalShard (directory : Directory) (shard : Shard) :
    Except BundleError ValidationReport := do
  let expected ← okOr (.modelValidation "GGUF 分片缺少可信 LFS SHA-256")
    shard.artifact.trustedSha256
  (validateEntry services (finalPath services localName) directory shard.outputName
    expected).mapError BundleError.validation

def validateFinal (directory : Directory) (shards : List Shard) :
    Except BundleError (List ValidationReport) := do
  let reports ← shards.mapM (validateFinalShard services localName directory)
  (validateGgufSplitReports reports).mapError BundleError.validation
  return reports

/-- `register_bundle` with the identifier that it draws. -/
def registerBundle (registry : RegistryFile) (reports : List ValidationReport) (id : Uuid) :
    Except ModelRegistryError (RegistryData × ModelRecord) := do
  let record ← (Registration.bundle localName reports).record services.bundleSha256 id
  let data ← readData registry
  let written ← addRecord record data
  return (written, record)

def register (system : BundleSystem) (reports : List ValidationReport) (id : Uuid) :
    BundleSystem :=
  match registerBundle services localName system.disk.registry reports id with
  | .error error => rollback system (.registry error)
  | .ok (data, record) =>
      { disk := { system.disk with registry := some data }, stage := .ended (.ok record) }

inductive BundleEvent where
  | start
  /-- The next operation of the run; the registration draws an identifier. -/
  | advance (id : Uuid)
  /-- A chunk of so many bytes and one more arrives. -/
  | receive (n : Nat)
  | disconnect
  | kill

/-- A run needs its staging directory until it has renamed it. -/
def inStaging (system : BundleSystem) (go : Directory → BundleSystem) : BundleSystem :=
  match system.disk.staging with
  | none => system.fail (.general "无法读取模型包续传目录")
  | some directory => go directory

def inFinal (system : BundleSystem) (go : Directory → BundleSystem) : BundleSystem :=
  match system.disk.final with
  | none => system.fail (.general "无法读取模型包最终目录")
  | some directory => go directory

def advance (id : Uuid) (system : BundleSystem) : Option BundleSystem :=
  match system.stage with
  | .idle | .ended _ => none
  | .preparing => some (prepare services localName deployment system)
  | .listing => some (inStaging system (listEntries deployment system))
  | .shard progress =>
      some (inStaging system fun directory => lookAtShard services localName system directory progress)
  | .requesting progress shard =>
      some (inStaging system fun directory => request services system directory progress shard)
  | .opening progress shard resumed rest =>
      some (inStaging system fun directory =>
        openPartial services system directory progress shard resumed rest)
  | .receiving progress shard rest =>
      if rest = [] then some (system.proceed (.linking progress shard)) else none
  | .linking progress shard =>
      some (inStaging system fun directory => link services localName system directory progress shard)
  | .linked progress shard =>
      some (inStaging system fun directory =>
        unlink services localName system directory progress shard)
  | .renaming progress =>
      some (inStaging system fun directory => publish system directory progress)
  | .renamed progress =>
      some (inFinal system fun directory =>
        match validateFinal services localName directory progress.shards with
        | .error error => rollback system error
        | .ok reports => system.proceed (.registering reports))
  | .registering reports => some (register services localName system reports id)

/-- No run is under way. -/
def BundleStage.Resting : BundleStage → Prop
  | .idle | .ended _ => True
  | _ => False

instance : (stage : BundleStage) → Decidable stage.Resting
  | .idle | .ended _ => inferInstanceAs (Decidable True)
  | .preparing | .listing | .shard _ | .requesting _ _ | .opening _ _ _ _ | .receiving _ _ _
  | .linking _ _ | .linked _ _ | .renaming _ | .renamed _ | .registering _ =>
      inferInstanceAs (Decidable False)

namespace BundleSystem

def step (event : BundleEvent) (system : BundleSystem) : Option BundleSystem :=
  match event with
  | .start => if system.stage.Resting then some (system.proceed .preparing) else none
  | .advance id => advance services localName deployment id system
  | .receive n =>
      match system.stage with
      | .receiving progress shard rest =>
          if rest = [] then none
          else some (inStaging system fun directory =>
            Engine.receive services system directory progress shard rest (n + 1))
      | _ => none
  | .disconnect =>
      match system.stage with
      | .requesting _ _ | .opening _ _ _ _ | .receiving _ _ _ =>
          some (system.fail (.download .http))
      | _ => none
  | .kill => if system.stage.Resting then none else some (system.proceed .idle)

def initial (registry : RegistryFile) : BundleSystem := ⟨⟨none, none, registry⟩, .idle⟩

end BundleSystem

end Steps

/-- The part of `delete_bundle_record` that looks at the files: the directory holds exactly
the shards of the record. -/
def checkExactDirectory (record : ModelRecord) (directory : Directory) :
    Except ModelRegistryError Unit := do
  let expected := record.artifacts.filterMap fun artifact => artifact.path.fileName
  rejectIf (expected.dedup.length ≠ record.artifacts.length)
    (.corrupt ("模型包 " ++ record.name ++ " 的文件名重复或缺失"))
  rejectIf (∃ name ∈ directory.names, name ∉ expected)
    (.corrupt "模型包目录包含未登记或不安全的条目")
  rejectIf (∃ name ∈ expected, name ∉ directory.names)
    (.corrupt ("模型包 " ++ record.name ++ " 的分片集合不完整"))

end MindOne.Engine
