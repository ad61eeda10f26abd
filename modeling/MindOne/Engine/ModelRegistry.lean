import Mathlib.Data.List.Nodup
import Mathlib.Logic.Function.Basic
import MindOne.Engine.ModelRecords
import MindOne.Lib.LabelledRuns

/-!
# The model registry under concurrent calls

Every change of the registry reads the file, changes it and writes it back under
one exclusive lock, but a call looks a record up in one locked section and writes
in another, and the model files move in between. A deletion whose files cannot be
removed puts the record back that it had looked up.
-/

namespace MindOne.Engine

open CheckedArithmetic LabelledRuns

structure RegistryData where
  version : Nat
  models : List ModelRecord

/-- What the registry file holds; an absent or empty file is an empty registry. -/
abbrev RegistryFile := Option RegistryData

def RegistryFile.models : RegistryFile → List ModelRecord
  | none => []
  | some data => data.models

def readData : RegistryFile → Except ModelRegistryError RegistryData
  | none => .ok ⟨1, []⟩
  | some data =>
      if data.version ≠ 1 then
        .error (.corrupt ("不支持 registry 版本 " ++ toString data.version))
      else .ok data

theorem models_of_readData {file : RegistryFile} {data : RegistryData}
    (h : readData file = .ok data) : data.models = file.models := by
  cases file with
  | none =>
      cases h
      rfl
  | some stored =>
      simp only [readData] at h
      split at h <;> cases h
      rfl

theorem version_of_readData {file : RegistryFile} {data : RegistryData}
    (h : readData file = .ok data) : data.version = 1 := by
  cases file with
  | none =>
      cases h
      rfl
  | some stored =>
      simp only [readData] at h
      split at h
      · cases h
      · rename_i hone
        cases h
        exact not_not.mp hone

theorem readData_of_version {data : RegistryData} (h : data.version = 1) :
    readData (some data) = .ok data := by
  simp only [readData, ne_eq, h, not_true_eq_false, if_false]

/-- The first record with the name or the identifier. -/
def lookup (models : List ModelRecord) (nameOrId : String) : Option ModelRecord :=
  models.find? fun model => model.name = nameOrId ∨ model.id.text = nameOrId

def find (file : RegistryFile) (nameOrId : String) : Except ModelRegistryError ModelRecord := do
  let data ← readData file
  match lookup data.models nameOrId with
  | some record => return record
  | none => .error (.notFound nameOrId)

section Sections
variable (record : ModelRecord) (nameOrId : String) (data : RegistryData)

/-- The locked section of `register` and `register_bundle`. -/
def addRecord : Except ModelRegistryError RegistryData :=
  if ∃ model ∈ data.models, model.name = record.name then .error (.duplicateName record.name)
  else .ok { data with models := data.models ++ [record] }

def replaceFirst : List ModelRecord → Option (List ModelRecord)
  | [] => none
  | model :: rest =>
      if model.id = record.id then some (record :: rest)
      else (replaceFirst rest).map (model :: ·)

/-- The locked section of `reverify`. -/
def replaceRecord : Except ModelRegistryError RegistryData :=
  match replaceFirst record data.models with
  | some models => .ok { data with models }
  | none => .error (.notFound nameOrId)

/-- The first locked section of `delete`, with the record that it takes out. -/
def removeRecord : Except ModelRegistryError (RegistryData × ModelRecord) :=
  match data.models.find? (fun model => model.id = record.id) with
  | some removed =>
      .ok ({ data with models := data.models.eraseP (fun model => model.id = record.id) }, removed)
  | none => .error (.notFound nameOrId)

/-- The second one, when the files could not be removed. -/
def restoreRecord : RegistryData :=
  if ∃ model ∈ data.models, model.id = record.id then data
  else { data with models := data.models ++ [record] }

end Sections

inductive Registration where
  | single (name : String) (report : ValidationReport)
  | bundle (name : String) (reports : List ValidationReport)

inductive RegistryCall where
  | register (registration : Registration)
  | reverify (nameOrId : String)
  | delete (nameOrId : String) (isInUse : Bool)

def Registration.name : Registration → String
  | .single name _ | .bundle name _ => name

/-- How far a call has come. -/
inductive CallStage where
  | idle
  | received (call : RegistryCall)
  /-- `reverify` has found a record and validates its files. -/
  | verifying (nameOrId : String) (current : ModelRecord)
  | verified (nameOrId : String) (refreshed : ModelRecord)
  /-- `delete` has found a record and moves its files away. -/
  | deleting (nameOrId : String) (current : ModelRecord)
  | quarantined (nameOrId : String) (current : ModelRecord)
  /-- The record is out of the registry; its files are being removed. -/
  | removing (current removed : ModelRecord)
  /-- That failed, and the files are back in their place. -/
  | movedBack (current removed : ModelRecord)
  | deleted (removed : ModelRecord)
  | ended

/-- What a deletion has taken out of the registry and not put back. -/
def CallStage.took : CallStage → Option ModelRecord
  | .removing _ removed | .movedBack _ removed | .deleted removed => some removed
  | _ => none

/-- A call that stops where it is: an error, or the end of its process. -/
def CallStage.stopped : CallStage → CallStage
  | .removing _ removed | .movedBack _ removed | .deleted removed => .deleted removed
  | _ => .ended

inductive RegistryEvent where
  | call (i : Nat) (call : RegistryCall)
  | register (i : Nat) (id : Uuid)
  | find (i : Nat)
  /-- The files have given these reports. -/
  | validated (i : Nat) (reports : List ValidationReport)
  | reverify (i : Nat)
  | quarantine (i : Nat)
  /-- The section may fail after its write, in the synchronisation of the directory. -/
  | remove (i : Nat) (synced : Bool)
  | unlinked (i : Nat)
  | moveBack (i : Nat)
  | restore (i : Nat)
  | fail (i : Nat)

/-- The registry file, the calls that are under way, and what they have written. -/
structure RegistrySystem where
  file : RegistryFile
  calls : Nat → CallStage
  /-- The identifiers that have been drawn, with the names they were drawn for. -/
  issued : List (Uuid × String)
  /-- What `register` and `reverify` have written, the last one first. -/
  writes : List ModelRecord

namespace RegistrySystem

def initial : RegistrySystem := ⟨none, fun _ => .idle, [], []⟩

def models (system : RegistrySystem) : List ModelRecord := system.file.models

def setCall (system : RegistrySystem) (i : Nat) (stage : CallStage) : RegistrySystem :=
  { system with calls := Function.update system.calls i stage }

/-- The record of an identifier that was written last. -/
def latestWrite (system : RegistrySystem) (id : Uuid) : Option ModelRecord :=
  system.writes.find? fun record => record.id = id

end RegistrySystem

section Steps
variable (bundleSha256 : List ModelArtifactRecord → String)

def Registration.record (registration : Registration) (id : Uuid) :
    Except ModelRegistryError ModelRecord := do
  validateName registration.name
  match registration with
  | .single name report =>
      rejectIf (report.ggufSplit ≠ none) (.validation (.invalidGguf
        "检测到分片 GGUF；必须下载并验证完整分片集合后登记"))
      return recordFromReport id name report
  | .bundle name reports => recordFromReports bundleSha256 id name reports

/-- `verify_bundle_record`, given what the files of the shards report. -/
def verifyBundleRecord (record : ModelRecord) (reports : List ValidationReport) :
    Except ModelRegistryError Unit := do
  rejectIf (reports.map (fun report => (report.sha256, report.sizeBytes, report.ggufSplit)) ≠
      record.artifacts.map fun artifact =>
        (artifact.sha256, artifact.sizeBytes, some artifact.ggufSplit))
    (.corrupt ("模型包分片登记与当前文件不一致：" ++ record.path.display))
  let rebuilt ← recordFromReports bundleSha256 record.id record.name reports
  rejectIf (rebuilt.path ≠ record.path ∨ rebuilt.format ≠ record.format ∨
      rebuilt.sizeBytes ≠ record.sizeBytes ∨ rebuilt.sha256 ≠ record.sha256 ∨
      rebuilt.compatibleEngines ≠ record.compatibleEngines)
    (.corrupt ("模型包 " ++ record.name ++ " 的聚合登记不一致"))

/-- The record that `reverify` writes. -/
def refreshedRecord (current : ModelRecord) (reports : List ValidationReport) :
    Except ModelRegistryError ModelRecord :=
  match current.artifacts, reports with
  | [], [report] =>
      if report.sha256 ≠ current.sha256 then
        .error (.validation (.checksumMismatch current.sha256 report.sha256))
      else .ok (recordFromReport current.id current.name report)
  | [], _ => .error .io
  | _ :: _, reports => do
      verifyBundleRecord bundleSha256 current reports
      recordFromReports bundleSha256 current.id current.name reports

namespace RegistrySystem
variable (system : RegistrySystem) (i : Nat)

def registerStep (registration : Registration) (id : Uuid) : RegistrySystem :=
  match registration.record bundleSha256 id with
  | .error _ => system.setCall i .ended
  | .ok record =>
      match readData system.file >>= addRecord record with
      | .error _ => system.setCall i .ended
      | .ok data =>
          { system.setCall i .ended with
            file := some data
            issued := (record.id, record.name) :: system.issued
            writes := record :: system.writes }

def findStep : RegistryCall → Option RegistrySystem
  | .register _ => none
  | .reverify nameOrId =>
      match Engine.find system.file nameOrId with
      | .ok current => some (system.setCall i (.verifying nameOrId current))
      | .error _ => some (system.setCall i .ended)
  | .delete nameOrId isInUse =>
      if isInUse = true then some (system.setCall i .ended)
      else
        match Engine.find system.file nameOrId with
        | .ok current => some (system.setCall i (.deleting nameOrId current))
        | .error _ => some (system.setCall i .ended)

def reverifyStep (nameOrId : String) (refreshed : ModelRecord) : RegistrySystem :=
  match readData system.file >>= replaceRecord refreshed nameOrId with
  | .error _ => system.setCall i .ended
  | .ok data =>
      { system.setCall i .ended with
        file := some data
        writes := refreshed :: system.writes }

def removeStep (nameOrId : String) (current : ModelRecord) (synced : Bool) : RegistrySystem :=
  match readData system.file >>= removeRecord current nameOrId with
  | .error _ => system.setCall i .ended
  | .ok (data, removed) =>
      { system.setCall i (if synced = true then .removing current removed else .deleted removed) with
        file := some data }

def restoreStep (current removed : ModelRecord) : RegistrySystem :=
  match readData system.file with
  | .error _ => system.setCall i (.deleted removed)
  | .ok data => { system.setCall i .ended with file := some (restoreRecord current data) }

end RegistrySystem

def RegistrySystem.step (event : RegistryEvent) (system : RegistrySystem) :
    Option RegistrySystem :=
  match event with
  | .call i call =>
      match system.calls i with
      | .idle => some (system.setCall i (.received call))
      | _ => none
  | .register i id =>
      match system.calls i with
      | .received (.register registration) =>
          -- a drawn identifier is new
          if id ∈ system.issued.map Prod.fst then none
          else some (system.registerStep bundleSha256 i registration id)
      | _ => none
  | .find i =>
      match system.calls i with
      | .received call => system.findStep i call
      | _ => none
  | .validated i reports =>
      match system.calls i with
      | .verifying nameOrId current =>
          match refreshedRecord bundleSha256 current reports with
          | .ok refreshed => some (system.setCall i (.verified nameOrId refreshed))
          | .error _ => some (system.setCall i .ended)
      | _ => none
  | .reverify i =>
      match system.calls i with
      | .verified nameOrId refreshed => some (system.reverifyStep i nameOrId refreshed)
      | _ => none
  | .quarantine i =>
      match system.calls i with
      | .deleting nameOrId current => some (system.setCall i (.quarantined nameOrId current))
      | _ => none
  | .remove i synced =>
      match system.calls i with
      | .quarantined nameOrId current => some (system.removeStep i nameOrId current synced)
      | _ => none
  | .unlinked i =>
      match system.calls i with
      | .removing _ removed => some (system.setCall i (.deleted removed))
      | _ => none
  | .moveBack i =>
      match system.calls i with
      | .removing current removed => some (system.setCall i (.movedBack current removed))
      | _ => none
  | .restore i =>
      match system.calls i with
      | .movedBack current removed => some (system.restoreStep i current removed)
      | _ => none
  | .fail i => some (system.setCall i (system.calls i).stopped)

end Steps

end MindOne.Engine
