import MindOne.Coordinator.DrainingSteps

/-!
# An instance that drains has a lease

Sound systems stay sound when transactions begin, commit and roll back. So in an
attentive run every draining instance has a lease whenever no transaction is open.
Three runs that are not attentive leave an instance draining for ever.
-/

namespace MindOne.Coordinator.Draining

open KeyedTable LabelledRuns

variable {system next : System} {session : Session}

section Transactions

theorem sound_initial {clock : Int} {rows : Rows}
    (hrows : ∀ id, rows.status id = some .draining → ∃ work, rows.Leased work id) :
    (initial clock rows).Sound := by
  refine ⟨by simp [initial, Table.empty], by simp [initial, Table.empty],
    by simp [initial, Table.empty], ?_⟩
  rintro id (hdraining | ⟨session, hmem, -⟩)
  · obtain ⟨work, hleased⟩ := hrows id hdraining
    exact ⟨work, hleased, by simp [initial, Table.empty]⟩
  · cases hmem

theorem begin_sound (hsound : system.Sound) (t : Nat) : (system.put (.opened t)).Sound := by
  have hrows : ∀ other ∈ (system.put (.opened t)).sessions.rows,
      other = .opened t ∨ other ∈ system.sessions.rows := fun other hother =>
    (Table.mem_set.mp hother).imp_right And.left
  have hfresh : ∀ committed : Rows, (Session.opened t).view committed = committed := fun _ => rfl
  refine ⟨?_, ?_, ?_, ?_⟩
  · intro other hother
    rcases hrows other hother with rfl | hold
    · constructor <;> simp [Session.opened, Stage.unpublishing?, Stage.work?]
    · exact hsound.sessions other hold
  · intro a ha b hb hne id hida
    rcases hrows a ha with rfl | haold
    · simp [Session.opened] at hida
    · rcases hrows b hb with rfl | hbold
      · simp [Session.opened]
      · exact hsound.workLocks a haold b hbold hne id hida
  · intro a ha b hb hne id hida
    rcases hrows a ha with rfl | haold
    · simp [Session.opened] at hida
    · rcases hrows b hb with rfl | hbold
      · simp [Session.opened]
      · exact hsound.instanceLocks a haold b hbold hne id hida
  · intro modelInstanceId hwatched
    have hbefore : Watched system modelInstanceId := by
      rcases hwatched with hdraining | ⟨other, hother, hdrains⟩
      · exact .inl hdraining
      · rcases hrows other hother with rfl | hold
        · rcases hdrains with hcounts | hwritten
          · exact absurd hcounts (by simp [Session.opened, Stage.Counts])
          · cases hwritten
        · exact .inr ⟨other, hold, hdrains⟩
    obtain ⟨id, hleased, hall⟩ := hsound.kept modelInstanceId hbefore
    refine ⟨id, hleased, fun other hother => ?_⟩
    rcases hrows other hother with rfl | hold
    · exact .inl (hfresh system.committed ▸ hleased)
    · exact hall other hold

theorem rollback_sound (hsound : system.Sound) (t : Nat) :
    System.Sound { system with sessions := system.sessions.erase t } := by
  have hrows : ∀ other ∈ (system.sessions.erase t).rows, other ∈ system.sessions.rows :=
    fun other hother => (Table.mem_erase.mp hother).1
  refine ⟨fun other hother => hsound.sessions other (hrows other hother),
    fun a ha b hb => hsound.workLocks a (hrows a ha) b (hrows b hb),
    fun a ha b hb => hsound.instanceLocks a (hrows a ha) b (hrows b hb), ?_⟩
  intro modelInstanceId hwatched
  have hbefore : Watched system modelInstanceId :=
    hwatched.imp_right fun ⟨other, hother, hdrains⟩ => ⟨other, hrows other hother, hdrains⟩
  obtain ⟨id, hleased, hall⟩ := hsound.kept modelInstanceId hbefore
  exact ⟨id, hleased, fun other hother => hall other (hrows other hother)⟩

/-- What a transaction has written about an instance is one status. -/
theorem Session.Sound.status_of_unpublished {committed : Rows} (h : session.Sound committed)
    {modelInstanceId : Uuid} (hmem : ⟨modelInstanceId, .unpublished⟩ ∈ session.instances) :
    (session.view committed).status modelInstanceId = some .unpublished := by
  have hall : ∀ row ∈ session.instances, row.status = .unpublished := by
    intro row hrow
    by_contra hne
    obtain ⟨-, honly⟩ := h.single row hrow hne
    rw [honly, List.mem_singleton] at hmem
    exact hne (by rw [← hmem])
  obtain ⟨row, hrow⟩ : ∃ row, (session.instances.find? fun row => row.id = modelInstanceId) =
      some row := by
    rw [← Option.isSome_iff_exists, List.find?_isSome]
    exact ⟨_, hmem, decide_eq_true rfl⟩
  rw [status_view, hrow]
  exact congrArg some (hall row (List.mem_of_find?_eq_some hrow))

/-- A draining instance that a commit shows was watched before. -/
theorem watched_of_view (hmem : session ∈ system.sessions.rows) {modelInstanceId : Uuid}
    (hview : (session.view system.committed).status modelInstanceId = some .draining) :
    Watched system modelInstanceId := by
  by_cases hwritten : ∃ row ∈ session.instances, row.id = modelInstanceId ∧ row.status = .draining
  · obtain ⟨⟨id, status⟩, hrow, rfl, rfl⟩ := hwritten
    exact .inr ⟨session, hmem, .inr hrow⟩
  · rw [status_view] at hview
    cases hfind : session.instances.find? fun row => row.id = modelInstanceId with
    | none =>
        rw [hfind, Option.none_or] at hview
        exact .inl hview
    | some row =>
        rw [hfind, Option.some_or, Option.map_some, Option.some.injEq] at hview
        have hid : row.id = modelInstanceId := by simpa using List.find?_some hfind
        exact absurd ⟨row, List.mem_of_find?_eq_some hfind, hid, hview⟩ hwritten

theorem commit_sound (hsound : system.Sound) (hmem : session ∈ system.sessions.rows)
    (hstage : session.stage.MayCommit) :
    System.Sound { system with
      committed := session.view system.committed
      sessions := system.sessions.erase session.id } := by
  have hold := hsound.sessions session hmem
  have hrows : ∀ other ∈ (system.sessions.erase session.id).rows,
      other ∈ system.sessions.rows ∧ other.id ≠ session.id := fun other hother =>
    Table.mem_erase.mp hother
  refine ⟨?_, fun a ha b hb => hsound.workLocks a (hrows a ha).1 b (hrows b hb).1,
    fun a ha b hb => hsound.instanceLocks a (hrows a ha).1 b (hrows b hb).1, ?_⟩
  · intro other hother
    obtain ⟨hmemOther, hne⟩ := hrows other hother
    have hsame := hsound.sessions other hmemOther
    refine ⟨hsame.workLocks, hsame.instanceLocks, hsame.unleased, hsame.unpublished, hsame.single,
      hsame.unpublishing, ?_⟩
    intro work hwork
    obtain ⟨hlock, hfind⟩ := hsame.busy work hwork
    refine ⟨hlock, ?_⟩
    have hunwritten : ∀ row ∈ session.works, row.id ≠ work.id := by
      intro row hrow hid
      exact hsound.workLocks session hmem other hmemOther (Ne.symm hne) row.id
        (hold.workLocks row hrow) (hid ▸ hlock)
    rw [find_view] at hfind ⊢
    rw [find_view_of_unwritten hunwritten]
    exact hfind
  · intro modelInstanceId hwatched
    have hbefore : Watched system modelInstanceId := by
      rcases hwatched with hdraining | ⟨other, hother, hdrains⟩
      · exact watched_of_view hmem hdraining
      · exact .inr ⟨other, (hrows other hother).1, hdrains⟩
    obtain ⟨id, -, hall⟩ := hsound.kept modelInstanceId hbefore
    have hleased : (session.view system.committed).Leased id modelInstanceId := by
      rcases hall session hmem with hview | hlater | hunpublished
      · exact hview
      · cases hcase : session.stage <;> simp [hcase, Stage.WillLook, Stage.MayCommit] at hlater hstage
      · rcases hwatched with hdraining | ⟨other, hother, hdrains⟩
        · have hstatus := hold.status_of_unpublished hunpublished
          rw [hdraining] at hstatus
          cases hstatus
        · obtain ⟨hmemOther, hne⟩ := hrows other hother
          have hheld := (hsound.sessions other hmemOther).holds_of_drains hdrains
          exact absurd (hold.instanceLocks _ hunpublished)
            (hsound.instanceLocks other hmemOther session hmem hne _ hheld).1
    refine ⟨id, hleased, fun other hother => ?_⟩
    rcases hall other (hrows other hother).1 with hview | hlater | hunpublished
    · refine .inl ?_
      obtain ⟨work, hfind, hon⟩ := hview
      rw [Option.mem_def, find_view] at hfind
      cases hwrote : other.works.find? fun work => work.id = id with
      | none =>
          obtain ⟨found, hfound, hfoundOn⟩ := hleased
          refine ⟨found, ?_, hfoundOn⟩
          rw [Option.mem_def, find_view, hwrote, Option.none_or]
          exact hfound
      | some row =>
          rw [hwrote, Option.some_or, Option.some.injEq] at hfind
          subst hfind
          refine ⟨row, ?_, hon⟩
          rw [Option.mem_def, find_view, hwrote, Option.some_or]
    · exact .inr (.inl hlater)
    · exact .inr (.inr hunpublished)

theorem step_sound (hsound : system.Sound) {past : List Event} {event : Event}
    (hattentive : Attentive past system event) (h : step event system = some next) :
    next.Sound := by
  cases event with
  | tick now =>
      simp only [step, Option.ite_none_right_eq_some] at h
      obtain ⟨-, h⟩ := h
      cases h
      exact ⟨hsound.sessions, hsound.workLocks, hsound.instanceLocks, hsound.kept⟩
  | begin t =>
      simp only [step] at h
      split at h
      · cases h
        exact begin_sound hsound t
      · cases h
  | statement t statement =>
      simp only [step, Option.bind_eq_some_iff, Option.map_eq_some_iff] at h
      obtain ⟨session, hfind, after, hrun, rfl⟩ := h
      exact run_sound hsound (Table.mem_of_find hfind) (hattentive session hfind) hrun
  | commit t =>
      simp only [step, Option.bind_eq_some_iff, Option.ite_none_right_eq_some] at h
      obtain ⟨session, hfind, hstage, h⟩ := h
      cases h
      obtain rfl := Table.key_of_find hfind
      exact commit_sound hsound (Table.mem_of_find hfind) hstage
  | rollback t =>
      simp only [step, Option.map_eq_some_iff] at h
      obtain ⟨session, -, rfl⟩ := h
      exact rollback_sound hsound t

end Transactions

section Draining

theorem not_leased_of_leases {rows : Rows} {modelInstanceId : Uuid}
    (h : rows.leases modelInstanceId = []) : ∀ work, ¬rows.Leased work modelInstanceId := by
  rintro id ⟨work, hfind, hleased⟩
  have hmem : work ∈ rows.leases modelInstanceId :=
    mem_leases.mpr ⟨(Table.key_of_find hfind).symm ▸ hfind, hleased⟩
  rw [h] at hmem
  cases hmem

variable {clock : Int} {rows : Rows} {past : List Event}

theorem sound_of_run (hrows : ∀ id, rows.status id = some .draining → ∃ work, rows.Leased work id)
    (run : Run step Attentive (initial clock rows) past system) : system.Sound :=
  run.stays (sound_initial hrows) fun hsound hattentive h => step_sound hsound hattentive h

/-- A transaction that has written work writes no instance but to unpublish it. -/
theorem unpublished_of_last (hsound : system.Sound) (hmem : session ∈ system.sessions.rows)
    (hstage : session.stage.MayCommit) {modelInstanceId : Uuid}
    (hdraining : system.committed.status modelInstanceId = some .draining)
    (hlast : ∀ work, ¬(session.view system.committed).Leased work modelInstanceId) :
    (session.view system.committed).status modelInstanceId = some .unpublished := by
  have hold := hsound.sessions session hmem
  have hnext : (session.view system.committed).status modelInstanceId ≠ some .draining := by
    intro hstill
    obtain ⟨work, hleased, -⟩ :=
      (commit_sound hsound hmem hstage).kept modelInstanceId (.inl hstill)
    exact hlast work hleased
  have hwritten : ∃ row ∈ session.instances, row.id = modelInstanceId := by
    by_contra hnone
    refine hnext ?_
    rw [status_view_of_unwritten fun row hrow hid => hnone ⟨row, hrow, hid⟩, hdraining]
  obtain ⟨⟨id, status⟩, hrow, rfl⟩ := hwritten
  by_cases hunpublished : status = .unpublished
  · exact hold.status_of_unpublished (hunpublished ▸ hrow)
  · obtain ⟨hworks, -⟩ := hold.single _ hrow hunpublished
    obtain ⟨work, ⟨found, hfind, hleased⟩, -⟩ := hsound.kept _ (.inl hdraining)
    refine absurd ⟨found, ?_, hleased⟩ (hlast work)
    rw [Option.mem_def, find_view, hworks, List.find?_nil, Option.none_or]
    exact hfind

/-- In an attentive run an instance that drains has a lease, and the transaction that takes
the last one away unpublishes it. -/
theorem leased_of_draining
    (hrows : ∀ id, rows.status id = some .draining → ∃ work, rows.Leased work id)
    (run : Run step Attentive (initial clock rows) past system) {modelInstanceId : Uuid}
    (hdraining : system.committed.status modelInstanceId = some .draining) :
    (∃ work, system.committed.Leased work modelInstanceId) ∧
      ∀ t next, step (.commit t) system = some next →
        (∀ work, ¬next.committed.Leased work modelInstanceId) →
          next.committed.status modelInstanceId = some .unpublished := by
  have hsound := sound_of_run hrows run
  constructor
  · obtain ⟨work, hleased, -⟩ := hsound.kept modelInstanceId (.inl hdraining)
    exact ⟨work, hleased⟩
  · intro t next h hlast
    simp only [step, Option.bind_eq_some_iff, Option.ite_none_right_eq_some] at h
    obtain ⟨session, hfind, hstage, h⟩ := h
    cases h
    exact unpublished_of_last hsound (Table.mem_of_find hfind) hstage hdraining hlast

end Draining

section Samples

def sampleFirst : Uuid := .fromU128 0

def sampleSecond : Uuid := .fromU128 1

/-- Two published instances; two jobs are leased on the first one. -/
def sampleRows : Rows where
  works := ⟨[⟨.job sampleFirst, .leased, some sampleFirst, some 10, 1, 2⟩,
    ⟨.job sampleSecond, .leased, some sampleFirst, some 10, 1, 2⟩],
    by decide⟩
  instances := ⟨[⟨sampleFirst, .published⟩, ⟨sampleSecond, .published⟩], by decide⟩

theorem sampleRows_leased :
    ∀ id, sampleRows.status id = some .draining → ∃ work, sampleRows.Leased work id := by
  intro id h
  simp only [Rows.status, Option.map_eq_some_iff] at h
  obtain ⟨row, hrow, hstatus⟩ := h
  have hmem := Table.mem_of_find hrow
  simp only [sampleRows, List.mem_cons, List.not_mem_nil, or_false] at hmem
  rcases hmem with rfl | rfl <;> cases hstatus

def statements (t : Nat) (statements : List Statement) : List Event :=
  .begin t :: statements.map (.statement t)

/-- `unpublish_model` of the first instance. -/
def unpublishing : List Event :=
  statements 0 [.lockInstance sampleFirst, .countLeases, .setStatus] ++ [.commit 0]

/-- A job ends, and its transaction looks at the instance. -/
def sampleEnding (t : Nat) (job : Uuid) : List Event :=
  statements t [.lockWork (.job job), .endWork .ended, .finalize]

theorem leased_of_draining_sample : ∃ past system next,
    Run step Attentive (initial 0 sampleRows) past system ∧
    (∃ work, system.committed.Leased work sampleFirst) ∧ step (.commit 2) system = some next ∧
    next.committed.status sampleFirst = some .unpublished := by
  have hexecuted : ((execute step Attentive []
      (unpublishing ++ sampleEnding 1 sampleFirst ++ [.commit 1] ++ sampleEnding 2 sampleSecond ++
        [.statement 2 .finalized]) (initial 0 sampleRows)).bind fun system =>
          (step (.commit 2) system).map fun next =>
            decide (system.committed.status sampleFirst = some .draining ∧
              next.committed.leases sampleFirst = [])) = some true := by
    decide +kernel
  simp only [Option.bind_eq_some_iff, Option.map_eq_some_iff] at hexecuted
  obtain ⟨system, hrun, next, hnext, hfacts⟩ := hexecuted
  obtain ⟨hdraining, hnone⟩ := of_decide_eq_true hfacts
  have run := Run.start.execute hrun
  obtain ⟨hleased, hlast⟩ := leased_of_draining sampleRows_leased run hdraining
  exact ⟨_, system, next, run, hleased, hnext, hlast 2 next hnext (not_leased_of_leases hnone)⟩

/-- The last lease is over; a claim takes it to the second instance. -/
def retakenElsewhere : List Event :=
  unpublishing ++ sampleEnding 1 sampleSecond ++ [.commit 1, .tick 11] ++
    statements 2 [.chooseJob (.job sampleFirst) sampleSecond, .shareInstance, .writeLease 50] ++
      [.commit 2]

/-- Each of two endings sees the lease of the other one. -/
def endedTogether : List Event :=
  unpublishing ++ sampleEnding 1 sampleFirst ++ sampleEnding 2 sampleSecond ++ [.commit 1, .commit 2]

/-- `unpublish_model` counts a lease whose transaction has looked at the instance before. -/
def countedTooLate : List Event :=
  sampleEnding 2 sampleSecond ++ [.commit 2] ++ sampleEnding 1 sampleFirst ++
    statements 0 [.lockInstance sampleFirst, .countLeases, .setStatus] ++ [.commit 1, .commit 0]

/-- At the end no transaction is open and an instance drains without a lease. -/
def LeavesDraining (events : List Event) : Prop :=
  ∃ system, Run step Anything (initial 0 sampleRows) events.reverse system ∧
    system.sessions.rows = [] ∧ system.committed.status sampleFirst = some .draining ∧
    ∀ work, ¬system.committed.Leased work sampleFirst

theorem leavesDraining_of_execute {events : List Event}
    (h : ((execute step Anything [] events (initial 0 sampleRows)).map fun system =>
      decide (system.sessions.rows.isEmpty = true ∧
        system.committed.status sampleFirst = some .draining ∧
        system.committed.leases sampleFirst = [])) = some true) : LeavesDraining events := by
  obtain ⟨system, hrun, hfacts⟩ := Option.map_eq_some_iff.mp h
  obtain ⟨hidle, hdraining, hnone⟩ := of_decide_eq_true hfacts
  have run := Run.start.execute hrun
  rw [List.append_nil] at run
  exact ⟨system, run, List.isEmpty_iff.mp hidle, hdraining, not_leased_of_leases hnone⟩

/-- In three ways an instance is left draining without a lease. -/
theorem leased_of_draining_fails :
    LeavesDraining retakenElsewhere ∧ LeavesDraining endedTogether ∧
      LeavesDraining countedTooLate := by
  refine ⟨leavesDraining_of_execute ?_, leavesDraining_of_execute ?_,
    leavesDraining_of_execute ?_⟩
  · decide +kernel
  · decide +kernel
  · decide +kernel

end Samples

end MindOne.Coordinator.Draining
