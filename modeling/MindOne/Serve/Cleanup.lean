import MindOne.Serve.Proxy

/-!
# Slot 0 between two local inferences

At most one request holds the permit, and whoever holds it knows whether the slot
is clean: it has a receipt, or it awaits one, or the flag says that one is owed.
This fails where a client goes away while its request is with the engine, for the
handler that would have erased the slot is dropped with the permit. No inference
is sent after the reporting flag is set unless a request had passed its check
before.
-/

namespace MindOne.Serve

open LabelledRuns

/-- The phases of a handler that leave an erase undone when it is dropped. -/
def Phase.OwesErase : Phase → Prop
  | .sending | .failedErasing _ => True
  | _ => False

instance (phase : Phase) : Decidable phase.OwesErase :=
  match phase with
  | .sending | .failedErasing _ => instDecidableTrue
  | .received | .queued | .retrying _ | .retryRecording _ | .preparing | .failedRecording _
  | .streaming | .erasing _ | .recording _ | .ended => instDecidableFalse

namespace ServeProxy

/-- What the holder of the permit knows about the slot. -/
def Settled (proxy : ServeProxy) : Phase → Prop
  | .retrying issuedAt => issuedAt = proxy.sends ∧ proxy.cleanupRequired = true
  | .retryRecording success | .failedRecording success | .recording success =>
      if success = true then proxy.erased = true else proxy.cleanupRequired = true
  | .preparing => proxy.erased = true
  | .failedErasing issuedAt | .erasing issuedAt => issuedAt = proxy.sends
  | .received | .queued | .sending | .streaming | .ended => True

structure Guarded (proxy : ServeProxy) : Prop where
  exclusive : ∀ i j, (proxy.phase i).HoldsPermit → (proxy.phase j).HoldsPermit → i = j
  permit : proxy.permitFree = true → ∀ i, ¬ (proxy.phase i).HoldsPermit
  free : proxy.permitFree = true → proxy.erased = true ∨ proxy.cleanupRequired = true
  settled : ∀ i, proxy.Settled (proxy.phase i)

/-- After a failed report nobody is on the way to the engine. -/
def Reported (proxy : ServeProxy) : Prop :=
  proxy.reportingFailed = true → ∀ i, ¬ (proxy.phase i).WillSend

/-- A client goes away whose request is with the engine, or owes the erase of one. -/
def DropsErase (proxy : ServeProxy) : Event → Prop
  | .disconnect i => (proxy.phase i).OwesErase
  | _ => False

/-- Some request other than the given one has passed its check and not been sent. -/
def SomeWillSend (proxy : ServeProxy) (i : Nat) : Prop :=
  ∃ j < proxy.requests.length, j ≠ i ∧ (proxy.phase j).WillSend

/-- Reporting fails behind the back of a request that has passed its check. -/
def OvertakesReport (proxy : ServeProxy) : Event → Prop
  | .recorded i written => written = false ∧ proxy.SomeWillSend i
  | .flushFailed => proxy.SomeWillSend proxy.requests.length
  | _ => False

instance (proxy : ServeProxy) (i : Nat) : Decidable (proxy.SomeWillSend i) :=
  inferInstanceAs (Decidable (∃ j < _, _))

instance (proxy : ServeProxy) (event : Event) : Decidable (proxy.DropsErase event) := by
  cases event <;> unfold DropsErase <;> infer_instance

instance (proxy : ServeProxy) (event : Event) : Decidable (proxy.OvertakesReport event) := by
  cases event <;> unfold OvertakesReport <;> infer_instance

section Guarded
variable {proxy after : ServeProxy} {i : Nat} {next : Phase}

theorem settled_of_not_holds {phase : Phase} (h : ¬ phase.HoldsPermit) : proxy.Settled phase := by
  cases phase <;> first | trivial | exact absurd trivial h

/-- Nobody but the holder holds the permit. -/
theorem Guarded.others (h : proxy.Guarded) (hheld : (proxy.phase i).HoldsPermit) :
    ∀ j ≠ i, ¬ (proxy.phase j).HoldsPermit :=
  fun j hne hother => hne (h.exclusive j i hother hheld)

theorem Guarded.busy (h : proxy.Guarded) (hheld : (proxy.phase i).HoldsPermit) :
    proxy.permitFree = false :=
  Bool.eq_false_iff.mpr fun hfree => h.permit hfree i hheld

theorem phase_ne_ended (hheld : (proxy.phase i).HoldsPermit) : proxy.phase i ≠ .ended := by
  intro hended
  rw [hended] at hheld
  exact hheld

/-- One request holds the permit afterwards. -/
theorem guarded_of_holder (hothers : ∀ j ≠ i, ¬ (proxy.phase j).HoldsPermit)
    (hphase : ∀ j, after.phase j = if j = i then next else proxy.phase j)
    (htaken : after.permitFree = false) (hsettled : after.Settled next) : after.Guarded := by
  have hother : ∀ j ≠ i, ¬ (after.phase j).HoldsPermit := by
    intro j hne
    rw [hphase, if_neg hne]
    exact hothers j hne
  have hat (j : Nat) (hj : (after.phase j).HoldsPermit) : j = i :=
    Decidable.byContradiction fun hne => hother j hne hj
  refine ⟨fun j k hj hk => (hat j hj).trans (hat k hk).symm, ?_, ?_, fun j => ?_⟩
  · intro hfree
    rw [htaken] at hfree
    cases hfree
  · intro hfree
    rw [htaken] at hfree
    cases hfree
  · by_cases hj : j = i
    · rw [hphase, if_pos hj]
      exact hsettled
    · exact settled_of_not_holds (hother j hj)

/-- Nobody holds the permit afterwards. -/
theorem guarded_of_free (hothers : ∀ j ≠ i, ¬ (proxy.phase j).HoldsPermit)
    (hphase : ∀ j, after.phase j = if j = i then next else proxy.phase j)
    (hnext : ¬ next.HoldsPermit) (hclean : after.erased = true ∨ after.cleanupRequired = true) :
    after.Guarded := by
  have hnone : ∀ j, ¬ (after.phase j).HoldsPermit := by
    intro j
    rw [hphase]
    split
    · exact hnext
    · rename_i hne
      exact hothers j hne
  exact ⟨fun j _ hj _ => absurd hj (hnone j), fun _ => hnone, fun _ => hclean,
    fun j => settled_of_not_holds (hnone j)⟩

/-- A request without the permit goes on without it. -/
theorem Guarded.pass (h : proxy.Guarded) (hphase : ∀ j, after.phase j =
      if j = i then next else proxy.phase j) (hnext : ¬ next.HoldsPermit)
    (hpermit : after.permitFree = proxy.permitFree) (herased : after.erased = proxy.erased)
    (hcleanup : after.cleanupRequired = proxy.cleanupRequired) (hsends : after.sends = proxy.sends) :
    after.Guarded := by
  have hheld (j : Nat) (hj : (after.phase j).HoldsPermit) :
      (proxy.phase j).HoldsPermit := by
    rw [hphase] at hj
    split at hj
    · exact absurd hj hnext
    · exact hj
  have hsettled (phase : Phase) : after.Settled phase ↔ proxy.Settled phase := by
    cases phase <;> simp only [Settled, herased, hcleanup, hsends]
  refine ⟨fun j k hj hk => h.exclusive j k (hheld j hj) (hheld k hk), ?_, ?_, fun j => ?_⟩
  · intro hfree j hj
    exact h.permit (hpermit ▸ hfree) j (hheld j hj)
  · intro hfree
    rw [herased, hcleanup]
    exact h.free (hpermit ▸ hfree)
  · rw [hphase]
    split
    · exact settled_of_not_holds hnext
    · exact (hsettled _).mpr (h.settled j)

/-- The holder of the permit goes on with it. -/
theorem Guarded.hold (h : proxy.Guarded) (hheld : (proxy.phase i).HoldsPermit)
    (hphase : ∀ j, after.phase j = if j = i then next else proxy.phase j)
    (hpermit : after.permitFree = proxy.permitFree) (hsettled : after.Settled next) :
    after.Guarded :=
  guarded_of_holder (h.others hheld) hphase (hpermit.trans (h.busy hheld)) hsettled

/-- The holder of the permit gives it back with a slot that is clean or known not to be. -/
theorem Guarded.finish (h : proxy.Guarded) (hheld : (proxy.phase i).HoldsPermit)
    (hclean : proxy.erased = true ∨ proxy.cleanupRequired = true) : (proxy.finish i).Guarded :=
  guarded_of_free (h.others hheld) (phase_setPhase (phase_ne_ended hheld) .ended) id hclean

theorem Guarded.failReporting (h : proxy.Guarded) : proxy.failReporting.Guarded :=
  ⟨h.exclusive, h.permit, h.free, h.settled⟩

theorem Settled.clean {success : Bool}
    (h : if success = true then proxy.erased = true else proxy.cleanupRequired = true) :
    proxy.erased = true ∨ proxy.cleanupRequired = true := by
  cases success
  · exact .inr h
  · exact .inl h

/-- An answered erase settles the slot, well or badly. -/
theorem noteErase_settled {issuedAt : Nat} {success : Bool} (hissued : issuedAt = proxy.sends) :
    if success = true then (proxy.noteErase i issuedAt success next).erased = true
    else (proxy.noteErase i issuedAt success next).cleanupRequired = true := by
  cases success
  · rfl
  · simp [noteErase, hissued]

theorem Guarded.acquire (h : proxy.Guarded) (hqueued : proxy.phase i = .queued)
    (hfree : proxy.permitFree = true) (targetIdentity : Bool) :
    (proxy.acquire i targetIdentity).Guarded := by
  have hne : proxy.phase i ≠ .ended := by
    rw [hqueued]
    exact fun hended => (nomatch hended)
  have hothers : ∀ j ≠ i, ¬ (proxy.phase j).HoldsPermit := fun j _ => h.permit hfree j
  unfold ServeProxy.acquire
  split
  · exact h.pass (phase_setPhase hne .ended) id rfl rfl rfl rfl
  · split
    · rename_i hcleanup
      exact guarded_of_holder hothers (phase_setPhase hne _) rfl ⟨rfl, hcleanup⟩
    · rename_i hcleanup
      exact guarded_of_holder hothers (phase_setPhase hne _) rfl
        ((h.free hfree).resolve_right hcleanup)

theorem Guarded.eraseAnswered (h : proxy.Guarded) {receipt : Option SlotEraseReceipt}
    (hanswered : proxy.eraseAnswered i receipt = some after) : after.Guarded := by
  have hsettled := h.settled i
  have hheld (hp : (proxy.phase i).HoldsPermit) {issuedAt : Nat} {success : Bool} {next : Phase}
      (hnext : (proxy.noteErase i issuedAt success next).Settled next) :
      (proxy.noteErase i issuedAt success next).Guarded :=
    h.hold hp (phase_setPhase (phase_ne_ended hp) next) rfl hnext
  unfold ServeProxy.eraseAnswered at hanswered
  cases hphase : proxy.phase i with
  | retrying issuedAt =>
      simp only [hphase, Option.some.injEq] at hanswered
      subst hanswered
      rw [hphase] at hsettled
      exact hheld (hphase ▸ trivial) (noteErase_settled hsettled.1)
  | failedErasing issuedAt =>
      simp only [hphase, Option.some.injEq] at hanswered
      subst hanswered
      rw [hphase] at hsettled
      exact hheld (hphase ▸ trivial) (noteErase_settled hsettled)
  | erasing issuedAt =>
      simp only [hphase, Option.some.injEq] at hanswered
      subst hanswered
      rw [hphase] at hsettled
      exact hheld (hphase ▸ trivial) (noteErase_settled hsettled)
  | _ => simp [hphase] at hanswered

theorem Guarded.noted (h : proxy.Guarded) (written : Bool) :
    (if written = true then proxy else proxy.failReporting).Guarded := by
  split
  · exact h
  · exact h.failReporting

theorem noted_phase (proxy : ServeProxy) (written : Bool) (j : Nat) :
    (if written = true then proxy else proxy.failReporting).phase j = proxy.phase j := by
  split <;> rfl

theorem Guarded.recorded (h : proxy.Guarded) {written : Bool}
    (hrecorded : proxy.recorded i written = some after) : after.Guarded := by
  have hnoted := h.noted written
  have hsame := noted_phase proxy written i
  have hsettled := hnoted.settled i
  rw [hsame] at hsettled
  unfold ServeProxy.recorded at hrecorded
  generalize (if written = true then proxy else proxy.failReporting) = noted at *
  cases hphase : proxy.phase i with
  | retryRecording success =>
      have hheld : (noted.phase i).HoldsPermit := by
        rw [hsame, hphase]
        trivial
      rw [hphase] at hsettled
      simp only [hphase] at hrecorded
      split at hrecorded
      · rename_i hboth
        cases hrecorded
        refine hnoted.hold hheld (phase_setPhase (phase_ne_ended hheld) _) rfl ?_
        rw [Settled, if_pos hboth.2] at hsettled
        exact hsettled
      · cases hrecorded
        exact hnoted.finish hheld (Settled.clean hsettled)
  | failedRecording success =>
      have hheld : (noted.phase i).HoldsPermit := by
        rw [hsame, hphase]
        trivial
      rw [hphase] at hsettled
      simp only [hphase, Option.some.injEq] at hrecorded
      subst hrecorded
      exact hnoted.finish hheld (Settled.clean hsettled)
  | recording success =>
      have hheld : (noted.phase i).HoldsPermit := by
        rw [hsame, hphase]
        trivial
      rw [hphase] at hsettled
      simp only [hphase, Option.some.injEq] at hrecorded
      subst hrecorded
      exact hnoted.finish hheld (Settled.clean hsettled)
  | _ => simp [hphase] at hrecorded

/-- A dropped handler leaves a slot that is clean or known not to be, unless it owes
the erase. -/
theorem Guarded.disconnect (h : proxy.Guarded) (hhandler : (proxy.phase i).IsHandler)
    (howes : ¬ (proxy.phase i).OwesErase) : (proxy.disconnect i).Guarded := by
  have hne : proxy.phase i ≠ .ended := by
    intro hended
    rw [hended] at hhandler
    exact hhandler
  have hsettled := h.settled i
  unfold ServeProxy.disconnect
  split
  · rename_i hheld
    refine h.finish hheld ?_
    cases hphase : proxy.phase i with
    | retrying issuedAt =>
        rw [hphase] at hsettled
        exact .inr hsettled.2
    | retryRecording success =>
        rw [hphase] at hsettled
        exact Settled.clean hsettled
    | preparing =>
        rw [hphase] at hsettled
        exact .inl hsettled
    | failedRecording success =>
        rw [hphase] at hsettled
        exact Settled.clean hsettled
    | sending => exact absurd (hphase ▸ trivial) howes
    | failedErasing issuedAt => exact absurd (hphase ▸ trivial) howes
    | received | queued | ended =>
        rw [hphase] at hheld
        exact hheld.elim
    | streaming | erasing | recording =>
        rw [hphase] at hhandler
        exact hhandler.elim
  · exact h.pass (phase_setPhase hne .ended) id rfl rfl rfl rfl

/-- Every event keeps the slot guarded that drops no erase. -/
theorem Guarded.step (h : proxy.Guarded) {event : Event} (hkept : ¬ proxy.DropsErase event)
    (hstep : ServeProxy.step event proxy = some after) : after.Guarded := by
  cases event with
  | arrive =>
      cases hstep
      exact h.pass (phase_arrive proxy) id rfl rfl rfl rfl
  | check i targetIdentity =>
      simp only [ServeProxy.step, Option.ite_none_right_eq_some, Option.some.injEq] at hstep
      obtain ⟨hreceived, rfl⟩ := hstep
      have hne : proxy.phase i ≠ .ended := by
        rw [hreceived]
        exact fun hended => (nomatch hended)
      unfold ServeProxy.check
      split
      · exact h.pass (phase_setPhase hne .ended) id rfl rfl rfl rfl
      · exact h.pass (phase_setPhase hne .queued) id rfl rfl rfl rfl
  | acquire i targetIdentity =>
      simp only [ServeProxy.step, Option.ite_none_right_eq_some, Option.some.injEq] at hstep
      obtain ⟨⟨hqueued, hfree⟩, rfl⟩ := hstep
      exact h.acquire hqueued hfree targetIdentity
  | eraseAnswered i receipt => exact h.eraseAnswered hstep
  | recorded i written => exact h.recorded hstep
  | refused i =>
      simp only [ServeProxy.step, Option.ite_none_right_eq_some, Option.some.injEq] at hstep
      obtain ⟨hpreparing, rfl⟩ := hstep
      have hsettled := h.settled i
      rw [hpreparing] at hsettled
      exact h.finish (hpreparing ▸ trivial) (.inl hsettled)
  | send i =>
      simp only [ServeProxy.step, Option.ite_none_right_eq_some, Option.some.injEq] at hstep
      obtain ⟨hpreparing, rfl⟩ := hstep
      have hheld : (proxy.phase i).HoldsPermit := hpreparing ▸ trivial
      exact h.hold hheld (phase_setPhase (phase_ne_ended hheld) .sending) rfl trivial
  | responded i ok =>
      simp only [ServeProxy.step, Option.ite_none_right_eq_some, Option.some.injEq] at hstep
      obtain ⟨hsending, rfl⟩ := hstep
      have hheld : (proxy.phase i).HoldsPermit := hsending ▸ trivial
      refine h.hold hheld (phase_setPhase (phase_ne_ended hheld) _) rfl ?_
      cases ok
      · exact rfl
      · trivial
  | streamEnded i =>
      simp only [ServeProxy.step, Option.ite_none_right_eq_some, Option.some.injEq] at hstep
      obtain ⟨hstreaming, rfl⟩ := hstep
      have hheld : (proxy.phase i).HoldsPermit := hstreaming ▸ trivial
      exact h.hold hheld (phase_setPhase (phase_ne_ended hheld) _) rfl rfl
  | disconnect i =>
      simp only [ServeProxy.step, Option.ite_none_right_eq_some, Option.some.injEq] at hstep
      obtain ⟨hhandler, rfl⟩ := hstep
      exact h.disconnect hhandler hkept
  | flushFailed =>
      cases hstep
      exact h.failReporting

end Guarded

section Reported
variable {proxy after : ServeProxy} {i : Nat} {next : Phase}

theorem not_willSend_of_not_some (h : ¬ proxy.SomeWillSend i) {j : Nat} (hne : j ≠ i) :
    ¬ (proxy.phase j).WillSend := by
  intro hsend
  have hlt : j < proxy.requests.length := by
    refine lt_of_phase fun hended => ?_
    rw [hended] at hsend
    exact hsend
  exact h ⟨j, hlt, hne, hsend⟩

/-- No request gets on the way to the engine, and no report fails. -/
theorem Reported.keep (h : proxy.Reported)
    (hflag : after.reportingFailed = proxy.reportingFailed)
    (hphase : ∀ j, after.phase j = if j = i then next else proxy.phase j)
    (hnext : next.WillSend → (proxy.phase i).WillSend) : after.Reported := by
  intro hfailed j hsend
  have hbefore := h (hflag ▸ hfailed)
  rw [hphase] at hsend
  split at hsend
  · exact hbefore i (hnext hsend)
  · exact hbefore j hsend

theorem Reported.set (h : proxy.Reported) (hphase : proxy.phase i ≠ .ended)
    (hflag : after.reportingFailed = proxy.reportingFailed)
    (hrequests : after.requests = proxy.requests.set i next)
    (hnext : next.WillSend → (proxy.phase i).WillSend) : after.Reported := by
  refine h.keep hflag (fun j => ?_) hnext
  have hset := phase_setPhase hphase next j
  rw [phase, hrequests]
  exact hset

theorem Reported.ends (h : proxy.Reported) (hphase : proxy.phase i ≠ .ended)
    (hflag : after.reportingFailed = proxy.reportingFailed)
    (hrequests : after.requests = proxy.requests.set i .ended) : after.Reported :=
  h.set hphase hflag hrequests fun hsend => False.elim hsend

theorem Reported.recorded (h : proxy.Reported) {written : Bool}
    (hkept : ¬ proxy.OvertakesReport (.recorded i written))
    (hrecorded : proxy.recorded i written = some after) : after.Reported := by
  have hne : proxy.phase i ≠ .ended := by
    intro hended
    simp [ServeProxy.recorded, hended] at hrecorded
  cases written with
  | true =>
      simp only [ServeProxy.recorded, if_true, true_and] at hrecorded
      split at hrecorded
      · rename_i hphase
        split at hrecorded <;> cases hrecorded
        · exact h.set hne rfl rfl fun _ => hphase ▸ trivial
        · exact h.ends hne rfl rfl
      · cases hrecorded
        exact h.ends hne rfl rfl
      · cases hrecorded
        exact h.ends hne rfl rfl
      · cases hrecorded
  | false =>
      have hnobody : ¬ proxy.SomeWillSend i := fun hsome => hkept ⟨rfl, hsome⟩
      have hfinished : after = proxy.failReporting.finish i := by
        simp only [ServeProxy.recorded, Bool.false_eq_true, if_false, false_and] at hrecorded
        split at hrecorded <;> cases hrecorded <;> rfl
      subst hfinished
      intro _ j hsend
      have hphase : (proxy.failReporting.finish i).phase j =
          if j = i then .ended else proxy.phase j := phase_setPhase hne .ended j
      rw [hphase] at hsend
      split at hsend
      · exact hsend
      · rename_i hother
        exact not_willSend_of_not_some hnobody hother hsend

/-- Every event keeps the way to the engine empty that does not fail a report behind
the back of a request. -/
theorem Reported.step (h : proxy.Reported) {event : Event}
    (hkept : ¬ proxy.OvertakesReport event) (hstep : ServeProxy.step event proxy = some after) :
    after.Reported := by
  cases event with
  | arrive =>
      cases hstep
      exact h.keep rfl (phase_arrive proxy) fun hsend => False.elim hsend
  | check i targetIdentity =>
      simp only [ServeProxy.step, Option.ite_none_right_eq_some, Option.some.injEq] at hstep
      obtain ⟨hreceived, rfl⟩ := hstep
      have hne : proxy.phase i ≠ .ended := by
        rw [hreceived]
        exact fun hended => (nomatch hended)
      unfold ServeProxy.check
      split
      · exact h.ends hne rfl rfl
      · rename_i hpassed
        intro hfailed
        exact absurd (.inr hfailed) hpassed
  | acquire i targetIdentity =>
      simp only [ServeProxy.step, Option.ite_none_right_eq_some, Option.some.injEq] at hstep
      obtain ⟨⟨hqueued, -⟩, rfl⟩ := hstep
      have hne : proxy.phase i ≠ .ended := by
        rw [hqueued]
        exact fun hended => (nomatch hended)
      unfold ServeProxy.acquire
      split
      · exact h.ends hne rfl rfl
      · split <;> exact h.set hne rfl rfl fun _ => hqueued ▸ trivial
  | eraseAnswered i receipt =>
      simp only [ServeProxy.step, ServeProxy.eraseAnswered] at hstep
      split at hstep
      · rename_i hphase
        cases hstep
        exact h.set (by simp [hphase]) rfl rfl fun _ => hphase ▸ trivial
      · rename_i hphase
        cases hstep
        exact h.set (by simp [hphase]) rfl rfl fun hsend => False.elim hsend
      · rename_i hphase
        cases hstep
        exact h.set (by simp [hphase]) rfl rfl fun hsend => False.elim hsend
      · cases hstep
  | recorded i written => exact h.recorded hkept hstep
  | refused i =>
      simp only [ServeProxy.step, Option.ite_none_right_eq_some, Option.some.injEq] at hstep
      obtain ⟨hpreparing, rfl⟩ := hstep
      exact h.ends (by simp [hpreparing]) rfl rfl
  | send i =>
      simp only [ServeProxy.step, Option.ite_none_right_eq_some, Option.some.injEq] at hstep
      obtain ⟨hpreparing, rfl⟩ := hstep
      exact h.set (by simp [hpreparing]) rfl rfl fun hsend => False.elim hsend
  | responded i ok =>
      simp only [ServeProxy.step, Option.ite_none_right_eq_some, Option.some.injEq] at hstep
      obtain ⟨hsending, rfl⟩ := hstep
      refine h.set (by simp [hsending]) rfl rfl fun hsend => ?_
      cases ok <;> exact hsend.elim
  | streamEnded i =>
      simp only [ServeProxy.step, Option.ite_none_right_eq_some, Option.some.injEq] at hstep
      obtain ⟨hstreaming, rfl⟩ := hstep
      exact h.set (by simp [hstreaming]) rfl rfl fun hsend => False.elim hsend
  | disconnect i =>
      simp only [ServeProxy.step, Option.ite_none_right_eq_some, Option.some.injEq] at hstep
      obtain ⟨hhandler, rfl⟩ := hstep
      have hne : proxy.phase i ≠ .ended := by
        intro hended
        rw [hended] at hhandler
        exact hhandler
      unfold ServeProxy.disconnect
      split <;> exact h.ends hne rfl rfl
  | flushFailed =>
      cases hstep
      intro _ j hsend
      by_cases hj : j = proxy.requests.length
      · have hended : proxy.phase j = .ended := by
          rw [phase, hj, List.getElem?_eq_none (Nat.le_refl _), Option.getD_none]
        rw [show proxy.failReporting.phase j = proxy.phase j from rfl, hended] at hsend
        exact hsend
      · exact not_willSend_of_not_some hkept hj hsend

end Reported

end ServeProxy

/-- The client stays while its request is with the engine and while the handler erases
after it, and no report fails behind the back of a request on the way to the engine. -/
def Undisturbed (_ : List Event) (proxy : ServeProxy) (event : Event) : Prop :=
  ¬ proxy.DropsErase event ∧ ¬ proxy.OvertakesReport event

instance (past : List Event) (proxy : ServeProxy) (event : Event) :
    Decidable (Undisturbed past proxy event) :=
  inferInstanceAs (Decidable (_ ∧ _))

/-- In every undisturbed run an inference is only sent when an erase that was sent
after the last one has been confirmed, and while reporting works. -/
theorem send_after_erase {past : List Event} {proxy : ServeProxy}
    (run : Run ServeProxy.step Undisturbed ServeProxy.initial past proxy) :
    ∀ i, (ServeProxy.step (.send i) proxy).isSome = true →
      proxy.erased = true ∧ proxy.reportingFailed = false := by
  let both (proxy : ServeProxy) : Prop := proxy.Guarded ∧ proxy.Reported
  have guarded : both proxy := by
    refine run.stays ?_ ?_
    · refine ⟨⟨fun _ _ hi _ => hi.elim, fun _ _ hi => hi, fun _ => .inl rfl, fun _ => trivial⟩, ?_⟩
      intro hfailed
      cases hfailed
    · intro past proxy next event both kept made
      exact ⟨both.1.step kept.1 made, both.2.step kept.2 made⟩
  intro i hsends
  obtain ⟨after, hstep⟩ := Option.isSome_iff_exists.mp hsends
  simp only [ServeProxy.step, Option.ite_none_right_eq_some, Option.some.injEq] at hstep
  obtain ⟨hpreparing, -⟩ := hstep
  constructor
  · have hsettled := guarded.1.settled i
    rw [hpreparing] at hsettled
    exact hsettled
  · refine Bool.eq_false_iff.mpr fun hfailed => ?_
    have hnobody := guarded.2 hfailed i
    rw [hpreparing] at hnobody
    exact hnobody trivial

section Sample

/-- A request on its way through the proxy, up to the body. -/
def sampleAdmitted (request : Nat) : List Event :=
  [.arrive, .check request true, .acquire request true]

/-- An inference whose first erase fails, and the next one, which erases first. -/
def sampleRetry : List Event := sampleAdmitted 0 ++ [.send 0, .responded 0 true, .streamEnded 0,
  .eraseAnswered 0 none, .recorded 0 true] ++ sampleAdmitted 1 ++
  [.eraseAnswered 1 (some ⟨0, 12⟩), .recorded 1 true]

/-- The client of an inference goes away before the engine responds; another one comes. -/
def sampleDropped : List Event :=
  sampleAdmitted 0 ++ [.send 0, .disconnect 0] ++ sampleAdmitted 1

theorem send_after_erase_sample :
    ∃ past proxy, Run ServeProxy.step Undisturbed ServeProxy.initial past proxy ∧
      proxy.sends = 1 ∧ (ServeProxy.step (.send 1) proxy).isSome = true ∧
      proxy.erased = true ∧ proxy.reportingFailed = false := by
  cases h : execute ServeProxy.step Undisturbed [] sampleRetry ServeProxy.initial with
  | none => exact absurd (congrArg Option.isSome h) (by decide +kernel)
  | some proxy =>
      have run := Run.start.execute h
      have hseen := (congrArg (Option.map fun proxy : ServeProxy =>
        (proxy.sends, (ServeProxy.step (.send 1) proxy).isSome)) h).symm.trans
        (by decide +kernel : _ = some (1, true))
      obtain ⟨hsends, hready⟩ := Prod.mk.inj (Option.some.inj hseen)
      exact ⟨_, proxy, run, hsends, hready, send_after_erase run 1 hready⟩

/-- A dropped handler lets the next inference onto a slot that nobody has erased. -/
theorem send_after_erase_fails :
    ¬ ∀ (past : List Event) (proxy : ServeProxy),
      Run ServeProxy.step Anything ServeProxy.initial past proxy →
      ∀ i, (ServeProxy.step (.send i) proxy).isSome = true →
        proxy.erased = true ∧ proxy.reportingFailed = false := by
  intro clean
  cases h : execute ServeProxy.step Anything [] sampleDropped ServeProxy.initial with
  | none => exact absurd (congrArg Option.isSome h) (by decide +kernel)
  | some proxy =>
      have hseen := (congrArg (Option.map fun proxy : ServeProxy =>
        ((ServeProxy.step (.send 1) proxy).isSome, proxy.erased)) h).symm.trans
        (by decide +kernel : _ = some (true, false))
      obtain ⟨hready, herased⟩ := Prod.mk.inj (Option.some.inj hseen)
      have hclean := (clean _ proxy (Run.start.execute h) 1 hready).1
      rw [herased] at hclean
      cases hclean

end Sample

end MindOne.Serve
