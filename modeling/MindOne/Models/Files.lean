import MindOne.Engine.BundleFiles
import MindOne.Engine.Gguf
import MindOne.Regulated.Encodings

/-!
# Model files

What `validate_model` accepts. The path has to lead to a regular file and not to a
link, the structure of the file has to be that of its format, and the extension has
to name this format. A digest that is expected has to be that of the whole file.
-/

namespace MindOne.Models

open CheckedArithmetic ByteReader MindOne.Engine MindOne.Regulated MindOne.Stream

/-- Why a file is no model. -/
inductive ModelFileError where
  | notAFile (path : PathBuf)
  | symlink (path : PathBuf)
  | unsafeFormat (reason : String)
  | extensionMismatch
  | invalidSize (size : Nat)
  | invalidSafetensors (error : InvalidSafetensors)
  | validation (error : ValidationError)
  deriving DecidableEq

/-- The code from outside that reads JSON and hashes. -/
structure ModelTools where
  deserializer : List UInt8 → Except String Json.Value
  sha256 : List UInt8 → Bytes 32

def ModelTools.hexDigest (tools : ModelTools) (content : List UInt8) : String :=
  String.ofList (hexEncode (tools.sha256 content).toList)

/-- What stands at a path, links not followed. -/
inductive FileNode where
  | regular (content : List UInt8) (modifiedUnix : Int)
  | directory
  | symlink
  deriving DecidableEq

def FileNode.isFile : FileNode → Bool
  | .regular _ _ => true
  | _ => false

/-- A file system, as far as single paths are asked for. -/
structure FileTree where
  node : PathBuf → Option FileNode
  canonicalize : PathBuf → Option PathBuf
  resolves : ∀ path content modified, node path = some (.regular content modified) →
    (canonicalize path).isSome = true
  canonical_idem : ∀ path resolved, canonicalize path = some resolved →
    canonicalize resolved = some resolved

/-- What the structure of a file says. -/
structure Inspected where
  format : ModelFormat
  ggufSplit : Option GgufSplitInfo
  deriving DecidableEq, Repr

def maxModelBytes : Nat := 2 ^ 40

/-- The extension in lower case. -/
def lowerExtension (path : PathBuf) : Option String :=
  (path.fileName.bind fun name => extension name.toList).map fun suffix =>
    String.ofList (suffix.map Char.toLower)

def rejectUnsafeExtension (path : PathBuf) : Except ModelFileError Unit :=
  let suffix := (lowerExtension path).getD ""
  rejectIf (suffix ∈ ["pkl", "pickle", "pt", "pth", "bin", "ckpt", "joblib"])
    (.unsafeFormat ("." ++ suffix ++ " 可能依赖任意代码反序列化"))

def ModelFormat.extension : ModelFormat → String
  | .gguf => "gguf"
  | .safetensors => "safetensors"

def validateExtensionMatches (path : PathBuf) (format : ModelFormat) :
    Except ModelFileError Unit :=
  rejectIf (lowerExtension path ≠ some (ModelFormat.extension format)) .extensionMismatch

def safetensorsMagicPlausible (magic : List UInt8) (fileSize : Nat) : Bool :=
  1 < leNumber magic && leNumber magic ≤ maxSafetensorsHeader && leNumber magic + 8 ≤ fileSize

section Validation
variable (tools : ModelTools)

def inspectGguf (content : List UInt8) : Except ModelFileError Inspected :=
  match runGguf content with
  | .ok result _ => .ok ⟨.gguf, result.2⟩
  | .error e _ => .error (.validation e)

def inspectSafetensors (content : List UInt8) : Except ModelFileError Inspected :=
  ((validateSafetensors tools.deserializer content).mapError ModelFileError.invalidSafetensors).map
    fun _ => ⟨.safetensors, none⟩

/-- The structure of a file by its first bytes. -/
def inspectContent (content : List UInt8) : Except ModelFileError Inspected :=
  if content.take 4 = ggufMagic then inspectGguf content
  else if safetensorsMagicPlausible (content.take 8) content.length = true then
    inspectSafetensors tools content
  else .error (.unsafeFormat "文件头既不是 GGUF，也不是 safetensors")

/-- The checks of `validate_model` on the content that is found at a path. -/
def inspect (path : PathBuf) (content : List UInt8) : Except ModelFileError Inspected := do
  rejectUnsafeExtension path
  rejectIf (¬ (16 ≤ content.length ∧ content.length ≤ maxModelBytes))
    (.invalidSize content.length)
  let found ← inspectContent tools content
  validateExtensionMatches path found.format
  return found

def checkDigest (expected : Option String) (actual : String) : Except ModelFileError Unit :=
  match expected with
  | none => .ok ()
  | some expected => do
      let normalized ← okOr (.validation (.checksumMismatch expected actual))
        (normalizeSha256 expected)
      rejectIf (normalized ≠ actual) (.validation (.checksumMismatch normalized actual))

/-- The regular file at a path. -/
def openModelFile (tree : FileTree) (path : PathBuf) :
    Except ModelFileError (List UInt8 × Int) :=
  match tree.node path with
  | none => .error (.notAFile path)
  | some .symlink => .error (.symlink path)
  | some .directory => .error (.notAFile path)
  | some (.regular content modifiedUnix) => .ok (content, modifiedUnix)

/-- The report of a file at a time. -/
def validateModel (tree : FileTree) (now : Int) (path : PathBuf) (expected : Option String) :
    Except ModelFileError ValidationReport := do
  let resolved ← okOr (.notAFile path) (tree.canonicalize path)
  let file ← openModelFile tree path
  let found ← inspect tools path file.1
  checkDigest expected (tools.hexDigest file.1)
  return {
    path := resolved
    format := found.format
    sizeBytes := file.1.length
    sha256 := tools.hexDigest file.1
    modifiedUnix := file.2
    compatibleEngines := found.format.compatibleEngines
    verifiedAtUnix := now
    ggufSplit := found.ggufSplit }

end Validation

/-! ### Digests -/

theorem normalizeSha256_hexDigest (tools : ModelTools) (content : List UInt8) :
    normalizeSha256 (tools.hexDigest content) = some (tools.hexDigest content) := by
  refine normalizeSha256_of_hex ?_ ?_
  · rw [ModelTools.hexDigest, String.toList_ofList, length_hexEncode,
      (tools.sha256 content).length_toList]
  · intro c hc
    rw [ModelTools.hexDigest, String.toList_ofList] at hc
    exact List.all_eq_true.mp (hexEncode_lower _) c hc

theorem checkDigest_eq_ok {expected : Option String} {actual : String} :
    checkDigest expected actual = .ok () ↔
      ∀ value ∈ expected, normalizeSha256 value = some actual := by
  cases expected with
  | none => simp only [checkDigest, Option.mem_def, reduceCtorEq, false_implies, implies_true]
  | some value =>
      simp only [checkDigest, bind_eq_ok, okOr_eq_ok, rejectIf_eq_ok, not_not, Option.mem_def,
        Option.some.injEq, forall_eq']
      constructor
      · rintro ⟨_, hvalue, rfl⟩
        exact hvalue
      · intro h
        exact ⟨actual, h, rfl⟩

section Reports
variable {tools : ModelTools} {tree : FileTree} {now : Int} {path : PathBuf}
  {expected : Option String} {report : ValidationReport}

theorem openModelFile_eq_ok {file : List UInt8 × Int} :
    openModelFile tree path = .ok file ↔ tree.node path = some (.regular file.1 file.2) := by
  unfold openModelFile
  cases hnode : tree.node path with
  | none => simp
  | some node =>
      obtain ⟨content, modified⟩ := file
      cases node <;> simp

/-- A file is reported as it is. -/
structure Reported (tools : ModelTools) (tree : FileTree) (now : Int) (path : PathBuf)
    (report : ValidationReport) (content : List UInt8) (found : Inspected) : Prop where
  resolved : tree.canonicalize path = some report.path
  file : tree.node path = some (.regular content report.modifiedUnix)
  structured : inspect tools path content = .ok found
  format : report.format = found.format
  size : report.sizeBytes = content.length
  digest : report.sha256 = tools.hexDigest content
  engines : report.compatibleEngines = found.format.compatibleEngines
  time : report.verifiedAtUnix = now
  split : report.ggufSplit = found.ggufSplit

theorem validateModel_eq_ok : validateModel tools tree now path expected = .ok report ↔
    ∃ content found, Reported tools tree now path report content found ∧
      ∀ value ∈ expected, normalizeSha256 value = some report.sha256 := by
  simp only [validateModel, bind_eq_ok, okOr_eq_ok, openModelFile_eq_ok]
  constructor
  · rintro ⟨resolved, hresolved, ⟨content, modified⟩, hfile, found, hfound, _, hdigest, hreport⟩
    cases hreport
    refine ⟨content, found, ⟨hresolved, hfile, hfound, rfl, rfl, rfl, rfl, rfl, rfl⟩, ?_⟩
    exact checkDigest_eq_ok.mp hdigest
  · rintro ⟨content, found, h, hdigest⟩
    refine ⟨report.path, h.resolved, (content, report.modifiedUnix), h.file, found, h.structured,
      (), checkDigest_eq_ok.mpr (h.digest ▸ hdigest), ?_⟩
    cases report
    cases h.format
    cases h.size
    cases h.digest
    cases h.engines
    cases h.time
    cases h.split
    rfl

end Reports

end MindOne.Models
