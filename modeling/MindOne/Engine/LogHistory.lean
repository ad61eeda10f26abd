import MindOne.Engine.LogRetention

/-!
# The history of a log

Appends and rotations follow each other in any order. Every call keeps the law of
rotation from the files that it finds, those of an interrupted call among them.
-/

namespace MindOne.Engine.Logs

open FailingSteps

inductive LogEvent where
  | append (bytes : List UInt8)
  | rotate (faults : LogFaults)

section History
variable (rotateBytes : Nat)

/-- A call on the files, with the operations that it carries out. -/
def rotateCall (faults : LogFaults) (files : LogFiles) : Except LogMonitorError Unit × LogDisk :=
  exec (rotateOpenLogIfNeeded faults rotateBytes) ⟨files, []⟩

def LogEvent.apply (files : LogFiles) : LogEvent → LogFiles
  | .append bytes => { files with active := some (files.active.getD [] ++ bytes) }
  | .rotate faults => (rotateCall rotateBytes faults files).2.files

def afterEvents (initial : LogFiles) (events : List LogEvent) : LogFiles :=
  events.foldl (LogEvent.apply rotateBytes) initial

end History

/-- A content is stored in a generation, whole or by its last bytes. -/
def Kept (rotateBytes : Nat) (files : LogFiles) (content : List UInt8) : Prop :=
  ∃ k, 1 ≤ k ∧ k ≤ logGenerations ∧
    (files.archives k = some content ∨ files.archives k = some (lastBytes rotateBytes content))

/-- Every archive is within the bound. -/
def ArchivesBounded (rotateBytes : Nat) (files : LogFiles) : Prop :=
  ∀ k content, 1 ≤ k → k ≤ logGenerations → files.archives k = some content →
    content.length ≤ rotateBytes

/-- What a call may do to the files that it finds. -/
structure RotationLaw (rotateBytes : Nat) (former : LogFiles)
    (outcome : Except LogMonitorError Unit × LogDisk) : Prop where
  unchanged_of_short : (former.active.getD []).length ≤ rotateBytes → outcome.2.files = former
  rotated_of_ok : rotateBytes < (former.active.getD []).length → outcome.1 = .ok () →
    outcome.2.files.active = some [] ∧
      outcome.2.files.archives 1 = some (lastBytes rotateBytes (former.active.getD [])) ∧
      ∀ k, 2 ≤ k → k ≤ logGenerations → outcome.2.files.archives k =
        match former.archives (k - 1) with
        | some content => some (lastBytes rotateBytes content)
        | none => former.archives k
  active_of_error : ∀ error, outcome.1 = .error error →
    LogOperation.truncate ∉ outcome.2.performed → outcome.2.files.active = former.active
  kept_of_error : ∀ error, outcome.1 = .error error →
    LogOperation.truncate ∉ outcome.2.performed → ∀ i content, 1 ≤ i →
      former.archives i = some content →
      (∃ older, i < older ∧ older ≤ logGenerations ∧ former.archives older ≠ none) →
      Kept rotateBytes outcome.2.files content
  bounded : ArchivesBounded rotateBytes former → ArchivesBounded rotateBytes outcome.2.files

section Law
variable {rotateBytes : Nat} {former : LogFiles}

/-- A former generation other than the last stays where it is or goes one down. -/
theorem kept_shifted {m i : Nat} {content : List UInt8} (hi : 1 ≤ i) (hlast : i < logGenerations)
    (hcontent : former.archives i = some content) :
    Kept rotateBytes (former.shifted rotateBytes m) content := by
  by_cases hm : i ≤ m
  · refine ⟨i, hi, by omega, .inl ?_⟩
    rw [archives_shifted, if_neg (by omega), hcontent]
  · obtain ⟨j, rfl⟩ : ∃ j, i = j + 1 := ⟨i - 1, by omega⟩
    refine ⟨j + 2, by omega, hlast, .inr ?_⟩
    rw [archives_shifted, if_pos ⟨by omega, hlast⟩, moved_succ, hcontent]

theorem moved_bounded {k : Nat} {content : List UInt8} (hk : 1 ≤ k) (hlast : k ≤ logGenerations)
    (hbounded : ArchivesBounded rotateBytes former)
    (hmoved : moved rotateBytes former k = some content) : content.length ≤ rotateBytes := by
  rw [moved] at hmoved
  split at hmoved
  · obtain ⟨active, -, rfl⟩ := Option.map_eq_some_iff.mp hmoved
    exact length_lastBytes_le _ _
  · split at hmoved
    · obtain rfl := Option.some.inj hmoved
      exact length_lastBytes_le _ _
    · exact hbounded k content hk hlast hmoved

theorem ArchivesBounded.shifted (hbounded : ArchivesBounded rotateBytes former) (m : Nat) :
    ArchivesBounded rotateBytes (former.shifted rotateBytes m) := by
  intro k content hk hlast hcontent
  rw [archives_shifted] at hcontent
  split at hcontent
  · exact moved_bounded hk hlast hbounded hcontent
  · exact hbounded k content hk hlast hcontent

theorem Interrupted.bounded {disk : LogDisk} (h : Interrupted rotateBytes former disk)
    (hbounded : ArchivesBounded rotateBytes former) : ArchivesBounded rotateBytes disk.files := by
  obtain ⟨m, hat⟩ := h
  rw [hat.files]
  exact hbounded.shifted m

theorem Rotated.bounded {disk : LogDisk} (h : Rotated rotateBytes former disk)
    (hbounded : ArchivesBounded rotateBytes former) : ArchivesBounded rotateBytes disk.files := by
  rw [h.files]
  exact hbounded.shifted 0

theorem Rotated.archives_one {disk : LogDisk} {content : List UInt8}
    (h : Rotated rotateBytes former disk) (hactive : former.active = some content) :
    disk.files.archives 1 = some (lastBytes rotateBytes content) := by
  rw [h.files]
  have hfirst : (former.shifted rotateBytes 0).archives 1 = moved rotateBytes former 1 := rfl
  rw [hfirst, moved, if_pos rfl, hactive, Option.map_some]

theorem Rotated.archives_succ {disk : LogDisk} {n : Nat} (h : Rotated rotateBytes former disk)
    (hn : n + 2 ≤ logGenerations) : disk.files.archives (n + 2) =
      match former.archives (n + 1) with
      | some content => some (lastBytes rotateBytes content)
      | none => former.archives (n + 2) := by
  have hmoved : (former.shifted rotateBytes 0).archives (n + 2) =
      moved rotateBytes former (n + 2) := if_pos ⟨by omega, hn⟩
  rw [h.files]
  exact hmoved.trans moved_succ

theorem rotationLaw_of_short (faults : LogFaults)
    (hshort : (former.active.getD []).length ≤ rotateBytes) :
    RotationLaw rotateBytes former (rotateCall rotateBytes faults former) := by
  have hreaches : Reaches (rotateOpenLogIfNeeded faults rotateBytes) ⟨former, []⟩
      (fun _ => At former) (At former) :=
    reaches_rotateOpenLogIfNeeded ⟨rfl, List.not_mem_nil⟩ (fun _ => id) (fun _ => id)
      (At.lasting (by rintro ⟨⟩)) (At.lasting (by rintro ⟨⟩))
      fun _ hat => reaches_rotateLocked_of_short hat hshort
  have hfiles : (rotateCall rotateBytes faults former).2.files = former := by
    simp only [Reaches, rotateCall] at hreaches ⊢
    generalize exec (rotateOpenLogIfNeeded faults rotateBytes) ⟨former, []⟩ = outcome at hreaches ⊢
    obtain ⟨error | value, after⟩ := outcome
    · exact hreaches.files
    · exact hreaches.files
  constructor
  · exact fun _ => hfiles
  · exact fun hlong => absurd hshort (Nat.not_le.mpr hlong)
  · exact fun _ _ _ => by rw [hfiles]
  · rintro error herror huntruncated i content hi hcontent ⟨older, hless, hlast, -⟩
    exact ⟨i, hi, by omega, .inl (by rw [hfiles, hcontent])⟩
  · rw [hfiles]
    exact id

theorem rotationLaw_of_long {content : List UInt8} (faults : LogFaults)
    (hactive : former.active = some content) (hlong : rotateBytes < content.length) :
    RotationLaw rotateBytes former (rotateCall rotateBytes faults former) := by
  have hreaches : Reaches (rotateOpenLogIfNeeded faults rotateBytes) ⟨former, []⟩
      (fun _ => Rotated rotateBytes former)
      (fun after => Interrupted rotateBytes former after ∨ Rotated rotateBytes former after) :=
    reaches_rotateOpenLogIfNeeded ⟨rfl, List.not_mem_nil⟩
      (fun _ hafter => .inl hafter.interrupted_self) (fun _ => .inr) Rotated.lasting
      ((Interrupted.lasting (by rintro ⟨⟩)).or Rotated.lasting)
      fun _ hat => reaches_rotateLocked_of_long hat hactive hlong
  simp only [Reaches] at hreaches
  rw [rotateCall]
  generalize exec (rotateOpenLogIfNeeded faults rotateBytes) ⟨former, []⟩ = outcome at hreaches ⊢
  have hnot : ¬ (former.active.getD []).length ≤ rotateBytes := by
    rw [hactive]
    exact Nat.not_le.mpr hlong
  obtain ⟨error | ⟨⟩, after⟩ := outcome
  · have hinterrupted : LogOperation.truncate ∉ after.performed →
        Interrupted rotateBytes former after :=
      fun huntruncated => hreaches.resolve_right fun h => huntruncated h.truncated
    constructor
    · exact fun hshort => absurd hshort hnot
    · rintro _ ⟨⟩
    · intro _ _ huntruncated
      obtain ⟨m, hat⟩ := hinterrupted huntruncated
      rw [hat.files]
      rfl
    · rintro _ - huntruncated i former hi hcontent ⟨older, hless, hlast, -⟩
      obtain ⟨m, hat⟩ := hinterrupted huntruncated
      rw [hat.files]
      exact kept_shifted hi (by omega) hcontent
    · intro hbounded
      rcases hreaches with hreaches | hreaches
      · exact hreaches.bounded hbounded
      · exact hreaches.bounded hbounded
  · constructor
    · exact fun hshort => absurd hshort hnot
    · intro _ _
      refine ⟨by rw [hreaches.files], by rw [hreaches.archives_one hactive, hactive]; rfl, ?_⟩
      intro k hk hlast
      obtain ⟨n, rfl⟩ : ∃ n, k = n + 2 := ⟨k - 2, by omega⟩
      exact hreaches.archives_succ hlast
    · rintro _ ⟨⟩
    · rintro _ ⟨⟩
    · exact hreaches.bounded

/-- Every call keeps the law, wherever it fails. -/
theorem rotationLaw_rotateCall (rotateBytes : Nat) (former : LogFiles) (faults : LogFaults) :
    RotationLaw rotateBytes former (rotateCall rotateBytes faults former) := by
  by_cases hshort : (former.active.getD []).length ≤ rotateBytes
  · exact rotationLaw_of_short faults hshort
  · cases hactive : former.active with
    | none =>
        rw [hactive] at hshort
        exact absurd (Nat.zero_le rotateBytes) hshort
    | some content =>
        rw [hactive, Option.getD_some, Nat.not_le] at hshort
        exact rotationLaw_of_long faults hactive hshort

/-- Archives within the bound stay there over every history. -/
theorem bounded_afterEvents (events : List LogEvent)
    (hbounded : ArchivesBounded rotateBytes former) :
    ArchivesBounded rotateBytes (afterEvents rotateBytes former events) := by
  induction events generalizing former with
  | nil => exact hbounded
  | cons event events ih =>
      refine ih ?_
      cases event with
      | append bytes => exact hbounded
      | rotate faults => exact (rotationLaw_rotateCall rotateBytes former faults).bounded hbounded

end Law

end MindOne.Engine.Logs
