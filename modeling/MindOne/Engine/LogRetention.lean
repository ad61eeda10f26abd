import MindOne.Engine.LogRotation
import Mathlib.Data.List.Basic

/-!
# What log rotation keeps

A generation is only overwritten after its content was copied one generation down, so
wherever a call fails, each former generation but the oldest is still there. The active
log is truncated behind the last copy.
-/

namespace MindOne.Engine.Logs

open FailingSteps

/-- The last bytes of a content. -/
def lastBytes (n : Nat) (content : List UInt8) : List UInt8 := content.drop (content.length - n)

theorem length_lastBytes_le (n : Nat) (content : List UInt8) :
    (lastBytes n content).length ≤ n := by
  rw [lastBytes, List.length_drop]
  omega

theorem snapshotOf_eq (n : Nat) (content : List UInt8) :
    snapshotOf content (content.length - min content.length n) (min content.length n) =
      lastBytes n content := by
  have hstart : content.length - min content.length n = content.length - n := by omega
  rw [snapshotOf, lastBytes, hstart, List.take_of_length_le]
  rw [List.length_drop]
  omega

section Steps

/-- Before the truncation the files are known. -/
structure At (files : LogFiles) (disk : LogDisk) : Prop where
  files : disk.files = files
  untruncated : LogOperation.truncate ∉ disk.performed

variable {faults : LogFaults} {files : LogFiles} {disk : LogDisk} {operation : LogOperation}
  {α β : Type} {next : α → LogEffect β} {good : β → LogDisk → Prop} {bad : LogDisk → Prop}

/-- An operation other than the truncation is followed by the rest of the program. -/
theorem reaches_operate_bind {action : LogFiles → α × LogFiles} (hat : At files disk)
    (hother : operation ≠ .truncate) (hbad : ∀ after, At files after → bad after)
    (hnext : ∀ after, At (action files).2 after → Reaches (next (action files).1) after good bad) :
    Reaches (operate faults operation action >>= next) disk good bad := by
  have hstep : Reaches (operate faults operation action) disk
      (fun value after => value = (action files).1 ∧ At (action files).2 after) bad := by
    refine reaches_perform (hbad disk hat) ⟨by rw [hat.files], by rw [hat.files], ?_⟩
    rw [List.mem_append, List.mem_singleton, not_or]
    exact ⟨hat.untruncated, hother.symm⟩
  refine hstep.bind fun value after hvalue => ?_
  rw [hvalue.1]
  exact hnext after hvalue.2

theorem reaches_inspect_bind {value : LogFiles → α} (hat : At files disk)
    (hother : operation ≠ .truncate) (hbad : ∀ after, At files after → bad after)
    (hnext : ∀ after, At files after → Reaches (next (value files)) after good bad) :
    Reaches (inspect faults operation value >>= next) disk good bad :=
  reaches_operate_bind hat hother hbad hnext

theorem reaches_inspect {value : LogFiles → α} {good : α → LogDisk → Prop} (hat : At files disk)
    (hother : operation ≠ .truncate) (hbad : ∀ after, At files after → bad after)
    (hgood : ∀ after, At files after → good (value files) after) :
    Reaches (inspect faults operation value) disk good bad := by
  rw [← bind_pure (inspect faults operation value)]
  exact reaches_inspect_bind hat hother hbad fun after hafter => reaches_pure (hgood after hafter)

end Steps

section Copies
variable {faults : LogFaults} {rotateBytes : Nat} {files : LogFiles} {disk : LogDisk}

/-- A copy replaces its target by the last bytes of the source, or changes nothing. -/
theorem reaches_atomicCopyToPath {source : LogPath} {content : List UInt8} {destination : Nat}
    (hat : At files disk) (hsource : files.content source = some content) :
    Reaches (atomicCopyToPath faults source content.length rotateBytes destination) disk
      (fun _ after => At (files.put destination (lastBytes rotateBytes content)) after)
      (fun after => At files after ∨
        At (files.put destination (lastBytes rotateBytes content)) after) := by
  have hbefore : ∀ after, At files after → At files after ∨
      At (files.put destination (lastBytes rotateBytes content)) after := fun _ => .inl
  have hafter : ∀ after, At (files.put destination (lastBytes rotateBytes content)) after →
      At files after ∨ At (files.put destination (lastBytes rotateBytes content)) after :=
    fun _ => .inr
  have hother : ∀ step, LogOperation.copying destination step ≠ .truncate := by
    rintro _ ⟨⟩
  have hsnapshot : snapshotOf ((files.content source).getD [])
      (content.length - min content.length rotateBytes) (min content.length rotateBytes) =
        lastBytes rotateBytes content := by
    rw [hsource, Option.getD_some, snapshotOf_eq]
  have hcopied : ¬ (lastBytes rotateBytes content).length ≠ min content.length rotateBytes := by
    rw [lastBytes, List.length_drop]
    omega
  rw [atomicCopyToPath]
  refine reaches_inspect_bind hat (hother _) hbefore fun disk hat => ?_
  refine reaches_inspect_bind hat (hother _) hbefore fun disk hat => ?_
  refine reaches_inspect_bind hat (hother _) hbefore fun disk hat => ?_
  refine reaches_inspect_bind hat (hother _) hbefore fun disk hat => ?_
  refine reaches_inspect_bind hat (hother _) hbefore fun disk hat => ?_
  rw [hsnapshot]
  refine reaches_failIf_bind hcopied ?_
  refine reaches_inspect_bind hat (hother _) hbefore fun disk hat => ?_
  refine reaches_inspect_bind hat (hother _) hbefore fun disk hat => ?_
  refine reaches_inspect_bind hat (hother _) hbefore fun disk hat => ?_
  refine reaches_operate_bind hat (hother _) hbefore fun disk hat => ?_
  refine reaches_inspect_bind hat (hother _) hafter fun disk hat => ?_
  refine reaches_inspect_bind hat (hother _) hafter fun disk hat => ?_
  have hlength : ¬ rotateBytes < (((files.put destination
      (lastBytes rotateBytes content)).archives destination).getD []).length := by
    simpa [LogFiles.put] using length_lastBytes_le rotateBytes content
  exact reaches_failIf (fun hlong => absurd hlong hlength) fun _ => hat

end Copies

section Shifting
variable (rotateBytes : Nat) (former : LogFiles)

/-- What a generation holds after its own copy. -/
def moved (generation : Nat) : Option (List UInt8) :=
  if generation = 1 then former.active.map (lastBytes rotateBytes)
  else match former.archives (generation - 1) with
    | some content => some (lastBytes rotateBytes content)
    | none => former.archives generation

/-- The files when the generations above one of them have been copied. -/
def LogFiles.shifted (n : Nat) : LogFiles where
  active := former.active
  archives generation :=
    if n < generation ∧ generation ≤ logGenerations then moved rotateBytes former generation
    else former.archives generation

variable {rotateBytes former} {faults : LogFaults} {disk : LogDisk} {n : Nat}

theorem archives_shifted (generation : Nat) : (former.shifted rotateBytes n).archives generation =
    if n < generation ∧ generation ≤ logGenerations then moved rotateBytes former generation
    else former.archives generation := rfl

theorem shifted_logGenerations : former.shifted rotateBytes logGenerations = former := by
  ext1
  · rfl
  · funext generation
    exact if_neg fun h => by omega

/-- The copies of one generation lead from one of these states to the next. -/
theorem put_shifted {content : List UInt8} (hn : n + 1 ≤ logGenerations)
    (hmoved : moved rotateBytes former (n + 1) = some content) :
    (former.shifted rotateBytes (n + 1)).put (n + 1) content = former.shifted rotateBytes n := by
  ext1
  · rfl
  · funext generation
    simp only [LogFiles.put, LogFiles.shifted]
    by_cases hsame : generation = n + 1
    · subst hsame
      rw [if_pos rfl, if_pos ⟨by omega, hn⟩, hmoved]
    · rw [if_neg hsame]
      have hiff : (n + 1 < generation ∧ generation ≤ logGenerations) ↔
          (n < generation ∧ generation ≤ logGenerations) := by omega
      simp only [hiff]

theorem shifted_of_gap (hmoved : moved rotateBytes former (n + 1) = former.archives (n + 1)) :
    former.shifted rotateBytes (n + 1) = former.shifted rotateBytes n := by
  ext1
  · rfl
  · funext generation
    simp only [LogFiles.shifted]
    by_cases hsame : generation = n + 1
    · subst hsame
      rw [if_neg (by omega)]
      split
      · exact hmoved.symm
      · rfl
    · have hiff : (n + 1 < generation ∧ generation ≤ logGenerations) ↔
          (n < generation ∧ generation ≤ logGenerations) := by omega
      simp only [hiff]

/-- The source of a copy is the former generation above it. -/
theorem archives_shifted_source :
    (former.shifted rotateBytes (n + 2)).archives (n + 1) = former.archives (n + 1) :=
  if_neg fun h => by omega

theorem moved_succ : moved rotateBytes former (n + 2) =
    match former.archives (n + 1) with
    | some content => some (lastBytes rotateBytes content)
    | none => former.archives (n + 2) := if_neg (by omega)

theorem reaches_shiftGeneration (hn : n + 2 ≤ logGenerations)
    (hat : At (former.shifted rotateBytes (n + 2)) disk) :
    Reaches (shiftGeneration faults rotateBytes (n + 2)) disk
      (fun _ after => At (former.shifted rotateBytes (n + 1)) after)
      (fun after => At (former.shifted rotateBytes (n + 2)) after ∨
        At (former.shifted rotateBytes (n + 1)) after) := by
  rw [shiftGeneration]
  refine reaches_inspect_bind hat (by rintro ⟨⟩) (fun _ => .inl) fun disk hat => ?_
  rw [show n + 2 - 1 = n + 1 from rfl, archives_shifted_source]
  cases hsource : former.archives (n + 1) with
  | some content =>
      have hmoved : moved rotateBytes former (n + 2) = some (lastBytes rotateBytes content) := by
        rw [moved_succ, hsource]
      have hcontent : (former.shifted rotateBytes (n + 2)).content (.generation (n + 1)) =
          some content := archives_shifted_source.trans hsource
      refine reaches_inspect_bind hat (by rintro ⟨⟩) (fun _ => .inl) fun disk hat => ?_
      rw [archives_shifted_source, hsource, Option.getD_some, ← put_shifted hn hmoved]
      exact reaches_atomicCopyToPath hat hcontent
  | none =>
      have hmoved : moved rotateBytes former (n + 2) = former.archives (n + 2) := by
        rw [moved_succ, hsource]
      rw [shifted_of_gap hmoved] at hat ⊢
      exact reaches_inspect hat (by rintro ⟨⟩) (fun _ => .inl) fun _ => id

/-- Wherever the shift fails, the files are in one of these states. -/
theorem reaches_shiftGenerations (hn : n + 1 ≤ logGenerations)
    (hat : At (former.shifted rotateBytes (n + 1)) disk) :
    Reaches (shiftGenerations faults rotateBytes (n + 1)) disk
      (fun _ after => At (former.shifted rotateBytes 1) after)
      (fun after => ∃ m, At (former.shifted rotateBytes m) after) := by
  induction n generalizing disk with
  | zero => exact reaches_pure hat
  | succ n ih =>
      rw [shiftGenerations]
      refine Reaches.bind ((reaches_shiftGeneration hn hat).mono (fun _ _ => id) ?_)
        fun _ disk hat => ih (by omega) hat
      rintro after (hafter | hafter)
      · exact ⟨_, hafter⟩
      · exact ⟨_, hafter⟩

end Shifting

section Calls
variable {rotateBytes : Nat} {former : LogFiles} {faults : LogFaults} {disk : LogDisk}
  {content : List UInt8}

/-- The copies are done and the active log is empty. -/
structure Rotated (rotateBytes : Nat) (former : LogFiles) (disk : LogDisk) : Prop where
  files : disk.files = { former.shifted rotateBytes 0 with active := some [] }
  truncated : LogOperation.truncate ∈ disk.performed

/-- A call that has not come to the truncation. -/
def Interrupted (rotateBytes : Nat) (former : LogFiles) (disk : LogDisk) : Prop :=
  ∃ m, At (former.shifted rotateBytes m) disk

theorem At.interrupted {m : Nat} (hat : At (former.shifted rotateBytes m) disk) :
    Interrupted rotateBytes former disk := ⟨m, hat⟩

theorem At.interrupted_self (hat : At former disk) : Interrupted rotateBytes former disk := by
  rw [← @shifted_logGenerations rotateBytes former] at hat
  exact hat.interrupted

/-- What later operations that change no file leave true. -/
def Lasting (operation : LogOperation) (holds : LogDisk → Prop) : Prop :=
  ∀ disk, holds disk → holds ⟨disk.files, disk.performed ++ [operation]⟩

theorem Rotated.lasting {operation : LogOperation} :
    Lasting operation (Rotated rotateBytes former) :=
  fun _ h => ⟨h.files, List.mem_append_left _ h.truncated⟩

theorem At.lasting {operation : LogOperation} (hother : operation ≠ .truncate) :
    Lasting operation (At former) := by
  intro disk h
  refine ⟨h.files, ?_⟩
  rw [List.mem_append, List.mem_singleton, not_or]
  exact ⟨h.untruncated, hother.symm⟩

theorem Interrupted.lasting {operation : LogOperation} (hother : operation ≠ .truncate) :
    Lasting operation (Interrupted rotateBytes former) := by
  rintro disk ⟨m, hat⟩
  exact ⟨m, At.lasting hother disk hat⟩

theorem Lasting.or {operation : LogOperation} {holds holds' : LogDisk → Prop}
    (h : Lasting operation holds) (h' : Lasting operation holds') :
    Lasting operation fun disk => holds disk ∨ holds' disk :=
  fun disk => Or.imp (h disk) (h' disk)

/-- An inspection keeps what lasts, whether it fails or not. -/
theorem reaches_inspect_of_lasting {α : Type} {operation : LogOperation} {value : LogFiles → α}
    {holds : LogDisk → Prop} (hlasting : Lasting operation holds) (h : holds disk) :
    Reaches (inspect faults operation value) disk (fun _ => holds) holds :=
  reaches_perform h (hlasting disk h)

theorem reaches_ensurePathMatchesOpenFile {operation : LogOperation} {files : LogFiles}
    (hat : At files disk) (hother : operation ≠ .truncate) :
    Reaches (ensurePathMatchesOpenFile faults operation) disk (fun _ => At files) (At files) := by
  rw [ensurePathMatchesOpenFile]
  refine reaches_inspect_bind hat hother (fun _ => id) fun after hafter => ?_
  exact reaches_failIf (fun _ => hafter) fun _ => hafter

/-- The truncation comes behind the copy to the first generation. -/
theorem reaches_rotateLongLog (hat : At former disk) (hactive : former.active = some content) :
    Reaches (rotateLongLog faults rotateBytes content.length) disk
      (fun _ => Rotated rotateBytes former)
      (fun after => Interrupted rotateBytes former after ∨ Rotated rotateBytes former after) := by
  have hmoved : moved rotateBytes former (0 + 1) = some (lastBytes rotateBytes content) := by
    rw [moved, if_pos rfl, hactive, Option.map_some]
  have hput : (former.shifted rotateBytes 1).put 1 (lastBytes rotateBytes content) =
      former.shifted rotateBytes 0 := put_shifted (by decide) hmoved
  have hsource : (former.shifted rotateBytes 1).content .active = some content := hactive
  rw [rotateLongLog]
  rw [← @shifted_logGenerations rotateBytes former] at hat
  refine ((reaches_shiftGenerations (n := 4) (by decide) hat).mono (fun _ _ => id)
    fun _ => .inl).bind fun _ disk hat => ?_
  refine ((reaches_atomicCopyToPath hat hsource).mono (fun _ _ => id) ?_).bind
    fun _ disk hat => ?_
  · rintro after (hafter | hafter)
    · exact .inl hafter.interrupted
    · rw [hput] at hafter
      exact .inl hafter.interrupted
  rw [hput] at hat
  refine ((reaches_ensurePathMatchesOpenFile hat (by rintro ⟨⟩)).mono (fun _ _ => id)
    fun _ hafter => .inl hafter.interrupted).bind fun _ disk hat => ?_
  have htruncated : Reaches (operate faults .truncate fun files =>
      ((), { files with active := some [] })) disk
      (fun _ => Rotated rotateBytes former) (Interrupted rotateBytes former) := by
    refine reaches_perform hat.interrupted ⟨by rw [hat.files], ?_⟩
    exact List.mem_append_right _ (List.mem_singleton_self _)
  refine (htruncated.mono (fun _ _ => id) fun _ => .inl).bind fun _ disk hrotated => ?_
  refine ((reaches_inspect_of_lasting Rotated.lasting hrotated).mono (fun _ _ => id)
    fun _ => .inr).bind fun _ disk hrotated => ?_
  exact (reaches_inspect_of_lasting Rotated.lasting hrotated).mono (fun _ _ => id) fun _ => .inr

theorem reaches_rotateLocked_of_short (hat : At former disk)
    (hshort : (former.active.getD []).length ≤ rotateBytes) :
    Reaches (rotateLocked faults rotateBytes) disk (fun _ => At former) (At former) := by
  rw [rotateLocked]
  refine (reaches_ensurePathMatchesOpenFile hat (by rintro ⟨⟩)).bind fun _ disk hat => ?_
  refine reaches_inspect_bind hat (by rintro ⟨⟩) (fun _ => id) fun disk hat => ?_
  rw [if_pos hshort]
  exact reaches_pure hat

theorem reaches_rotateLocked_of_long (hat : At former disk) (hactive : former.active = some content)
    (hlong : rotateBytes < content.length) :
    Reaches (rotateLocked faults rotateBytes) disk (fun _ => Rotated rotateBytes former)
      (fun after => Interrupted rotateBytes former after ∨ Rotated rotateBytes former after) := by
  rw [rotateLocked]
  refine ((reaches_ensurePathMatchesOpenFile hat (by rintro ⟨⟩)).mono (fun _ _ => id)
    fun _ hafter => .inl hafter.interrupted_self).bind fun _ disk hat => ?_
  refine reaches_inspect_bind hat (by rintro ⟨⟩) (fun _ hafter => .inl hafter.interrupted_self)
    fun disk hat => ?_
  rw [hactive, Option.getD_some, if_neg (Nat.not_le.mpr hlong)]
  exact reaches_rotateLongLog hat hactive

/-- The lock and the unlock change no file, and each failure is one of the call. -/
theorem reaches_rotateOpenLogIfNeeded {good bad : LogDisk → Prop} (hat : At former disk)
    (hunlocked : ∀ after, At former after → bad after) (hgood : ∀ after, good after → bad after)
    (hkeepGood : Lasting .unlock good) (hkeepBad : Lasting .unlock bad)
    (hlocked : ∀ after, At former after →
      Reaches (rotateLocked faults rotateBytes) after (fun _ => good) bad) :
    Reaches (rotateOpenLogIfNeeded faults rotateBytes) disk (fun _ => good) bad := by
  rw [rotateOpenLogIfNeeded]
  refine reaches_inspect_bind hat (by rintro ⟨⟩) hunlocked fun disk hat => ?_
  refine ((reaches_observe (hlocked disk hat)).mono (fun _ _ => id) fun _ => False.elim).bind ?_
  rintro (error | ⟨⟩) disk hrotation
  · refine ((reaches_observe (reaches_inspect_of_lasting hkeepBad hrotation)).mono
      (fun _ _ => id) fun _ => False.elim).bind ?_
    rintro (unlockError | ⟨⟩) disk hunlock
    · exact reaches_throw hunlock
    · exact reaches_throw hunlock
  · refine ((reaches_observe (reaches_inspect_of_lasting hkeepGood hrotation)).mono
      (fun _ _ => id) fun _ => False.elim).bind ?_
    rintro (unlockError | ⟨⟩) disk hunlock
    · exact reaches_throw (hgood _ hunlock)
    · exact reaches_pure hunlock

end Calls

end MindOne.Engine.Logs
