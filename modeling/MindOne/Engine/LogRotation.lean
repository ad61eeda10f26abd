import MindOne.Lib.FailingSteps

/-!
# Log rotation

A log that has grown too long is shifted into its generations. The generations are
copied downwards, the oldest first, each by a temporary file that replaces its target
at once; only then is the active log truncated. Every operation on the files can fail.
-/

namespace MindOne.Engine.Logs

open FailingSteps

def logGenerations : Nat := 5

inductive LogPath where
  | active
  | generation (n : Nat)
  deriving DecidableEq, Repr

inductive LogMonitorError where
  | unsafePath (path : LogPath)
  | fileIdentityChanged (path : LogPath)
  | io (operation : String) (path : LogPath)
  deriving DecidableEq, Repr

/-- The active log and its generations. -/
@[ext] structure LogFiles where
  active : Option (List UInt8)
  archives : Nat → Option (List UInt8)

namespace LogFiles

def content (files : LogFiles) : LogPath → Option (List UInt8)
  | .active => files.active
  | .generation n => files.archives n

/-- Replace the file of a generation. -/
def put (files : LogFiles) (generation : Nat) (content : List UInt8) : LogFiles :=
  { files with
    archives := fun n => if n = generation then some content else files.archives n }

end LogFiles

/-- The operations of one copy. -/
inductive CopyStep where
  | checkParent | checkTarget | createTemporary | seek | copy | flush | sync | recheckTarget
  | persist | checkArchive | measureArchive
  deriving DecidableEq, Repr

inductive LogOperation where
  | lock | matchPath | measure
  | openSource (generation : Nat)
  | measureSource (generation : Nat)
  | checkGap (generation : Nat)
  | copying (generation : Nat) (step : CopyStep)
  | rematchPath | truncate | rewind | syncData | unlock
  deriving DecidableEq, Repr

/-- The files with the operations that were carried out. -/
structure LogDisk where
  files : LogFiles
  performed : List LogOperation

/-- The operations that fail in a call, with their errors. -/
abbrev LogFaults := LogOperation → Option LogMonitorError

abbrev LogEffect := Effect LogMonitorError LogDisk

section Rotation
variable (faults : LogFaults) (rotateBytes : Nat)

/-- One operation on the files. -/
def operate {α : Type} (operation : LogOperation) (action : LogFiles → α × LogFiles) :
    LogEffect α :=
  perform (faults operation) fun disk =>
    ((action disk.files).1, ⟨(action disk.files).2, disk.performed ++ [operation]⟩)

/-- An operation that changes no file. -/
def inspect {α : Type} (operation : LogOperation) (value : LogFiles → α) : LogEffect α :=
  operate faults operation fun files => (value files, files)

/-- The bytes that a copy takes from a file. -/
def snapshotOf (content : List UInt8) (copyStart copyBytes : Nat) : List UInt8 :=
  (content.drop copyStart).take copyBytes

def atomicCopyToPath (source : LogPath) (snapshotLen maxBytes destination : Nat) :
    LogEffect Unit := do
  inspect faults (.copying destination .checkParent) fun _ => ()
  inspect faults (.copying destination .checkTarget) fun _ => ()
  inspect faults (.copying destination .createTemporary) fun _ => ()
  let copyBytes := min snapshotLen maxBytes
  let copyStart := snapshotLen - copyBytes
  inspect faults (.copying destination .seek) fun _ => ()
  let snapshot ← inspect faults (.copying destination .copy) fun files =>
    snapshotOf ((files.content source).getD []) copyStart copyBytes
  failIf (snapshot.length ≠ copyBytes) (.io "复制完整日志快照" (.generation destination))
  inspect faults (.copying destination .flush) fun _ => ()
  inspect faults (.copying destination .sync) fun _ => ()
  inspect faults (.copying destination .recheckTarget) fun _ => ()
  operate faults (.copying destination .persist) fun files => ((), files.put destination snapshot)
  inspect faults (.copying destination .checkArchive) fun _ => ()
  let archivedLen ← inspect faults (.copying destination .measureArchive) fun files =>
    ((files.archives destination).getD []).length
  failIf (maxBytes < archivedLen) (.unsafePath (.generation destination))

/-- What the loop does for one generation. -/
def shiftGeneration (generation : Nat) : LogEffect Unit := do
  let source ← inspect faults (.openSource (generation - 1)) fun files =>
    files.archives (generation - 1)
  match source with
  | some _ => do
      let sourceLen ← inspect faults (.measureSource (generation - 1)) fun files =>
        ((files.archives (generation - 1)).getD []).length
      atomicCopyToPath faults (.generation (generation - 1)) sourceLen rotateBytes generation
  | none => inspect faults (.checkGap generation) fun _ => ()

/-- The generations from one down to the second. -/
def shiftGenerations : Nat → LogEffect Unit
  | n + 2 => do
      shiftGeneration faults rotateBytes (n + 2)
      shiftGenerations (n + 1)
  | _ => pure ()

/-- The path names the open log. -/
def ensurePathMatchesOpenFile (operation : LogOperation) : LogEffect Unit := do
  let active ← inspect faults operation LogFiles.active
  failIf (active = none) (.io "轮转后复核活动日志" .active)

def rotateLongLog (snapshotLen : Nat) : LogEffect Unit := do
  shiftGenerations faults rotateBytes logGenerations
  atomicCopyToPath faults .active snapshotLen rotateBytes 1
  ensurePathMatchesOpenFile faults .rematchPath
  operate faults .truncate fun files => ((), { files with active := some [] })
  inspect faults .rewind fun _ => ()
  inspect faults .syncData fun _ => ()

/-- What happens under the lock. -/
def rotateLocked : LogEffect Unit := do
  ensurePathMatchesOpenFile faults .matchPath
  let snapshotLen ← inspect faults .measure fun files => (files.active.getD []).length
  if snapshotLen ≤ rotateBytes then pure () else rotateLongLog faults rotateBytes snapshotLen

def rotateOpenLogIfNeeded : LogEffect Unit := do
  inspect faults .lock fun _ => ()
  let rotation ← observe (rotateLocked faults rotateBytes)
  let unlock ← observe (inspect faults .unlock fun _ => ())
  match rotation, unlock with
  | .error error, _ => throw error
  | .ok (), .error error => throw error
  | .ok (), .ok () => pure ()

end Rotation

end MindOne.Engine.Logs
