import MindOne.Stream.Events
import MindOne.Values

/-!
# Model files and their records

A validated model file gives a report, and one report, or the reports of all
shards of a split GGUF, give the record that the registry keeps. The name of a
shard states its place and the number of shards, and both have to agree with what
the file itself says.
-/

namespace MindOne.Engine

open CheckedArithmetic MindOne.Stream

/-- What stands before and after the last occurrence of a separator. -/
def rsplitOnce {α : Type} [DecidableEq α] (separator : List α) : List α → Option (List α × List α)
  | [] => none
  | a :: rest =>
      match rsplitOnce separator rest with
      | some (before, after) => some (a :: before, after)
      | none =>
          if separator <+: a :: rest then some ([], (a :: rest).drop separator.length) else none

theorem eq_of_rsplitOnce {α : Type} [DecidableEq α] {separator s before after : List α}
    (h : rsplitOnce separator s = some (before, after)) : s = before ++ separator ++ after := by
  induction s generalizing before with
  | nil => cases h
  | cons a rest ih =>
      simp only [rsplitOnce] at h
      split at h
      · rename_i hrest
        cases h
        rw [ih hrest, List.cons_append, List.cons_append]
      · rw [Option.ite_none_right_eq_some] at h
        obtain ⟨hstarts, hsplit⟩ := h
        cases hsplit
        exact (List.prefix_iff_eq_append.mp hstarts).symm

/-- A path as its components. -/
structure PathBuf where
  components : List String
  deriving DecidableEq, Repr

namespace PathBuf

def parent (path : PathBuf) : Option PathBuf :=
  if path.components = [] then none else some ⟨path.components.dropLast⟩

def fileName (path : PathBuf) : Option String := path.components.getLast?

def join (path : PathBuf) (component : String) : PathBuf := ⟨path.components ++ [component]⟩

def display (path : PathBuf) : String := String.join (path.components.map ("/" ++ ·))

@[simp] theorem parent_join (path : PathBuf) (component : String) :
    (path.join component).parent = some path := by
  simp [parent, join]

@[simp] theorem fileName_join (path : PathBuf) (component : String) :
    (path.join component).fileName = some component := by
  simp [fileName, join]

end PathBuf

inductive ModelFormat where
  | gguf | safetensors
  deriving DecidableEq, Repr

def ModelFormat.compatibleEngines : ModelFormat → List String
  | .gguf => ["llama.cpp"]
  | .safetensors => []

/-- The place that a shard states in its own metadata, from 0. -/
structure GgufSplitInfo where
  index : Nat
  count : Nat
  deriving DecidableEq, Repr

/-- The place in the name of a shard, from 1. -/
structure GgufSplitFileName where
  splitPrefix : List Char
  index : Nat
  count : Nat
  deriving DecidableEq, Repr

inductive ValidationError where
  | invalidGguf (reason : String)
  | checksumMismatch (expected actual : String)
  | notAFile (path : PathBuf)
  deriving DecidableEq

structure ValidationReport where
  path : PathBuf
  format : ModelFormat
  sizeBytes : Nat
  sha256 : String
  modifiedUnix : Int
  compatibleEngines : List String
  verifiedAtUnix : Int
  ggufSplit : Option GgufSplitInfo
  deriving DecidableEq

/-- `Path::extension`: what follows the last dot, unless that starts the name. -/
def extension (fileName : List Char) : Option (List Char) :=
  match rsplitOnce ['.'] fileName with
  | some (before, after) => if before = [] then none else some after
  | none => none

def parseDigits (digits : List Char) : Nat :=
  digits.foldl (fun value c => value * 10 + (c.toNat - 48)) 0

/-- Five decimal digits. -/
def IsSplitNumber (raw : List Char) : Prop := raw.length = 5 ∧ raw.all Char.isDigit = true

instance (raw : List Char) : Decidable (IsSplitNumber raw) := inferInstanceAs (Decidable (_ ∧ _))

/-- `<prefix>-00001-of-000NN.gguf`. -/
def parseGgufSplitFilename (path : PathBuf) : Option GgufSplitFileName := do
  let fileName := (← path.fileName).toList
  let suffix ← extension fileName
  if suffix.map Char.toLower = "gguf".toList then
    let stem := fileName.take (fileName.length - 5)
    let (withIndex, countRaw) ← rsplitOnce "-of-".toList stem
    let (splitPrefix, indexRaw) ← rsplitOnce ['-'] withIndex
    if splitPrefix ≠ [] ∧ IsSplitNumber indexRaw ∧ IsSplitNumber countRaw then
      let index := parseDigits indexRaw
      let count := parseDigits countRaw
      if (2 ≤ count ∧ count ≤ 256) ∧ index ≠ 0 ∧ index ≤ count then
        some ⟨splitPrefix, index, count⟩
      else none
    else none
  else none

/-- The part of the names that has been seen: their prefix and the names. -/
structure SplitScan where
  splitPrefix : Option (List Char)
  names : List String

def checkSplitReport (parent : PathBuf) (expectedCount : Nat) (scan : SplitScan)
    (entry : ValidationReport × Nat) : Except ValidationError SplitScan := do
  let (report, position) := entry
  rejectIf (report.format ≠ .gguf ∨ report.path.parent ≠ some parent)
    (.invalidGguf "模型包必须由同一目录内的 GGUF 分片组成")
  let parsed ← okOr (.invalidGguf ("模型包分片文件名不符合规范：" ++ report.path.display))
    (parseGgufSplitFilename report.path)
  let metadata ← okOr (.invalidGguf ("模型包分片缺少 GGUF split 元数据：" ++ report.path.display))
    report.ggufSplit
  rejectIf (parsed.count ≠ expectedCount ∨ parsed.index ≠ position + 1 ∨
      metadata.count ≠ expectedCount ∨ metadata.index ≠ position)
    (.invalidGguf ("分片编号、文件名与 GGUF 元数据不一致：" ++ report.path.display))
  rejectIf (∃ value ∈ scan.splitPrefix, value ≠ parsed.splitPrefix)
    (.invalidGguf "模型包包含不同前缀的分片")
  let name ← okOr (.invalidGguf "模型包分片缺少文件名") report.path.fileName
  rejectIf (name ∈ scan.names) (.invalidGguf "模型包包含重复分片文件名")
  return ⟨some (scan.splitPrefix.getD parsed.splitPrefix), name :: scan.names⟩

def validateGgufSplitReports (reports : List ValidationReport) : Except ValidationError Unit := do
  rejectIf (¬ (2 ≤ reports.length ∧ reports.length ≤ 256))
    (.invalidGguf ("模型包分片数量无效：" ++ toString reports.length))
  let parent ← okOr (.invalidGguf "模型包路径缺少父目录") (reports.head?.bind (·.path.parent))
  let _ ← reports.zipIdx.foldlM (checkSplitReport parent reports.length) ⟨none, []⟩
  return ()

structure ModelArtifactRecord where
  path : PathBuf
  sizeBytes : Nat
  sha256 : String
  modifiedUnix : Int
  ggufSplit : GgufSplitInfo
  deriving DecidableEq

structure ModelRecord where
  id : Uuid
  name : String
  format : ModelFormat
  path : PathBuf
  sizeBytes : Nat
  sha256 : String
  modifiedUnix : Int
  verifiedAtUnix : Int
  compatibleEngines : List String
  /-- The shards of a split model, in order; empty for a single file. -/
  artifacts : List ModelArtifactRecord
  deriving DecidableEq

inductive ModelRegistryError where
  | invalidName
  | outsideManagedDirectory (path : PathBuf)
  | duplicateName (name : String)
  | notFound (nameOrId : String)
  | inUse (nameOrId : String)
  | validation (error : ValidationError)
  | corrupt (reason : String)
  | io
  deriving DecidableEq

/-- Letters, digits, dots, underscores and hyphens, at most 128 bytes. -/
def validateName (value : String) : Except ModelRegistryError Unit :=
  rejectIf (value = "" ∨ 128 < value.utf8ByteSize ∨ value = "." ∨ value = ".." ∨
      value.toList.all (fun c => c.toNat < 128 &&
        (c.isAlphanum || c = '.' || c = '_' || c = '-')) = false)
    .invalidName

def recordFromReport (id : Uuid) (name : String) (report : ValidationReport) : ModelRecord where
  id
  name
  format := report.format
  path := report.path
  sizeBytes := report.sizeBytes
  sha256 := report.sha256
  modifiedUnix := report.modifiedUnix
  verifiedAtUnix := report.verifiedAtUnix
  compatibleEngines := report.compatibleEngines
  artifacts := []

def artifactFromReport (report : ValidationReport) :
    Except ModelRegistryError ModelArtifactRecord := do
  let ggufSplit ← okOr (.corrupt ("模型包分片缺少 GGUF split 元数据：" ++ report.path.display))
    report.ggufSplit
  return {
    path := report.path
    sizeBytes := report.sizeBytes
    sha256 := report.sha256
    modifiedUnix := report.modifiedUnix
    ggufSplit }

/-- Sizes are 64-bit words. -/
def totalSize (artifacts : List ModelArtifactRecord) : Except ModelRegistryError Nat :=
  let total := (artifacts.map ModelArtifactRecord.sizeBytes).sum
  if 2 ^ 64 ≤ total then .error (.corrupt "模型包总大小溢出") else .ok total

section Bundles
variable (bundleSha256 : List ModelArtifactRecord → String)

def recordFromReports (id : Uuid) (name : String) (reports : List ValidationReport) :
    Except ModelRegistryError ModelRecord := do
  (validateGgufSplitReports reports).mapError ModelRegistryError.validation
  let primary ← okOr (.corrupt "模型包没有主分片") reports.head?
  let artifacts ← reports.mapM artifactFromReport
  let sizeBytes ← totalSize artifacts
  return {
    id
    name
    format := primary.format
    path := primary.path
    sizeBytes
    sha256 := bundleSha256 artifacts
    modifiedUnix := (artifacts.map ModelArtifactRecord.modifiedUnix).foldl max primary.modifiedUnix
    verifiedAtUnix := (reports.map ValidationReport.verifiedAtUnix).foldl min primary.verifiedAtUnix
    compatibleEngines := primary.compatibleEngines
    artifacts }

variable {bundleSha256}

theorem recordFromReports_eq_ok {id : Uuid} {name : String} {reports : List ValidationReport}
    {record : ModelRecord} (h : recordFromReports bundleSha256 id name reports = .ok record) :
    record.id = id ∧ record.name = name := by
  simp only [recordFromReports, bind_eq_ok] at h
  obtain ⟨_, _, _, _, _, _, _, _, hrecord⟩ := h
  cases hrecord
  exact ⟨rfl, rfl⟩

end Bundles

end MindOne.Engine
