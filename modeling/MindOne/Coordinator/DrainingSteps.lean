import MindOne.Coordinator.DrainingRuns

/-!
# The statements of the transactions around a draining instance

Each statement keeps the system sound: a lease that all transactions keep is left on
every instance that drains or is about to.
-/

namespace MindOne.Coordinator.Draining

open KeyedTable LabelledRuns

variable {system : System} {session next : Session}

/-- A statement that writes nothing. -/
theorem System.Sound.restage (hsound : system.Sound) (hmem : session ∈ system.sessions.rows)
    (hid : next.id = session.id) (hnext : next.Sound system.committed)
    (hworks : next.works = session.works) (hinstances : next.instances = session.instances)
    (hworkLocks : ∀ id ∈ next.workLocks, id ∈ session.workLocks ∨ WorkFree system session id)
    (hinstanceLocks : ∀ id ∈ next.instanceLocks,
      id ∈ session.instanceLocks ∨ InstanceFree system session id)
    (hsharedLocks : ∀ id ∈ next.sharedLocks,
      id ∈ session.sharedLocks ∨ InstanceShareable system session id)
    (hlook : ∀ id, session.stage.WillLook id → next.stage.WillLook id)
    (hcounts : ∀ id, next.stage.Counts id → session.stage.Counts id) :
    (system.put next).Sound := by
  refine hsound.put hmem hid hnext hworkLocks hinstanceLocks hsharedLocks ?_
  intro modelInstanceId hwatched
  refine hsound.kept_put hmem hwatched ?_ ?_
  · rintro (hnow | hwritten)
    · exact .inl (hcounts modelInstanceId hnow)
    · exact .inr (hinstances ▸ hwritten)
  · rintro id - (hleased | hlater | hunpublished)
    · exact .inl (view_congr hworks hinstances ▸ hleased)
    · exact .inr (.inl (hlook modelInstanceId hlater))
    · exact .inr (.inr (hinstances ▸ hunpublished))

section Leases
variable {committed : Rows} {id : WorkId} {modelInstanceId : Uuid} {work : Work}

theorem Session.Sound.find_busy (h : session.Sound committed)
    (hstage : session.stage.work? = some work) :
    (session.view committed).works.find work.id = some work :=
  (h.busy work hstage).2

theorem view_works_cons (hworks : next.works = work :: session.works) :
    (next.view committed).works = (session.view committed).works.set work := by
  rw [Session.view, hworks]
  rfl

/-- Writing one row leaves what is leased under other names. -/
theorem leased_cons_of_ne (hworks : next.works = work :: session.works) (hne : id ≠ work.id) :
    (next.view committed).Leased id modelInstanceId ↔
      (session.view committed).Leased id modelInstanceId := by
  rw [Rows.Leased, view_works_cons hworks, Table.find_set_ne hne]
  rfl

theorem leased_cons_self (hworks : next.works = work :: session.works)
    (hleased : work.LeasedOn modelInstanceId) :
    (next.view committed).Leased work.id modelInstanceId := by
  refine ⟨work, ?_, hleased⟩
  rw [view_works_cons hworks, Table.find_set_self]
  rfl

end Leases

section Locking

/-- A row is locked and remembered. -/
theorem remember_sound (hsound : system.Sound) (hmem : session ∈ system.sessions.rows)
    (hstage : session.stage = .ready) {id : WorkId} {work : Work} {stage : Stage}
    (hfind : (session.view system.committed).works.find id = some work)
    (hfree : WorkFree system session id) (hwork : stage.work? = some work)
    (hunpublishing : stage.unpublishing? = none) (hcounts : ∀ id, ¬stage.Counts id) :
    (system.put
      { session with
        stage
        workLocks := id :: session.workLocks }).Sound := by
  have hkey : work.id = id := Table.key_of_find hfind
  have hopen : session.stage ≠ .done := by simp [hstage]
  refine hsound.restage hmem rfl ?_ rfl rfl ?_ (fun _ h => .inl h) (fun _ h => .inl h) ?_ ?_
  · refine (hsound.sessions session hmem).restage hopen rfl rfl (List.subset_cons_self _ _)
      (List.Subset.refl _) ?_ ?_
    · intro other hother
      rw [hunpublishing] at hother
      cases hother
    · intro found hfound
      obtain rfl : work = found := Option.some.inj (hwork.symm.trans hfound)
      exact ⟨by simp [hkey], hkey ▸ hfind⟩
  · intro other hother
    rcases List.mem_cons.mp hother with rfl | hold
    · exact .inr hfree
    · exact .inl hold
  · simp [hstage, Stage.WillLook]
  · exact fun other h => absurd h (hcounts other)

theorem lockWork_sound (hsound : system.Sound) (hmem : session ∈ system.sessions.rows)
    (hstage : session.stage = .ready) {id : WorkId} (h : session.lockWork system id = some next) :
    (system.put next).Sound := by
  simp only [Session.lockWork] at h
  split at h
  · cases h
  · rename_i work hfind
    split at h
    · rename_i hcond
      cases h
      exact remember_sound hsound hmem hstage hfind hcond.1 rfl rfl (by simp [Stage.Counts])
    · cases h

theorem chooseJob_sound (hsound : system.Sound) (hmem : session ∈ system.sessions.rows)
    (hstage : session.stage = .ready) {id : WorkId} {modelInstanceId : Uuid}
    (h : session.chooseJob system id modelInstanceId = some next) : (system.put next).Sound := by
  simp only [Session.chooseJob] at h
  split at h
  · rename_i work hfind
    split at h
    · rename_i hcond
      cases h
      exact remember_sound hsound hmem hstage hfind hcond.1 rfl rfl (by simp [Stage.Counts])
    · cases h
  · cases h

theorem lockInstance_sound (hsound : system.Sound) (hmem : session ∈ system.sessions.rows)
    (hstage : session.stage = .ready) {modelInstanceId : Uuid}
    (h : session.lockInstance system modelInstanceId = some next) : (system.put next).Sound := by
  simp only [Session.lockInstance] at h
  split at h
  · rename_i hcond
    cases h
    have hopen : session.stage ≠ .done := by simp [hstage]
    refine hsound.restage hmem rfl ?_ rfl rfl (fun _ h => .inl h) ?_ (fun _ h => .inl h) ?_ ?_
    · refine (hsound.sessions session hmem).restage hopen rfl rfl (List.Subset.refl _)
        (List.subset_cons_self _ _) ?_ (by simp [Stage.work?])
      rintro id hid
      obtain rfl : modelInstanceId = id := by simpa [Stage.unpublishing?] using hid
      exact ⟨List.mem_cons_self, hcond.1⟩
    · intro other hother
      rcases List.mem_cons.mp hother with rfl | hold
      · exact .inr hcond.2.1
      · exact .inl hold
    · simp [hstage, Stage.WillLook]
    · simp [Stage.Counts]
  · cases h

theorem shareInstance_sound (hsound : system.Sound) (hmem : session ∈ system.sessions.rows)
    {work : Work} {modelInstanceId : Uuid} (hstage : session.stage = .chosen work modelInstanceId)
    (h : session.shareInstance system work modelInstanceId = some next) :
    (system.put next).Sound := by
  simp only [Session.shareInstance] at h
  split at h
  · rename_i hcond
    cases h
    have hopen : session.stage ≠ .done := by simp [hstage]
    have hbusy := (hsound.sessions session hmem).busy work (by simp [hstage, Stage.work?])
    refine hsound.restage hmem rfl ?_ rfl rfl (fun _ h => .inl h) (fun _ h => .inl h) ?_ ?_ ?_
    · refine (hsound.sessions session hmem).restage hopen rfl rfl (List.Subset.refl _)
        (List.Subset.refl _) ?_ ?_
      · intro id hid
        split at hid <;> simp [Stage.unpublishing?] at hid
      · intro found hfound
        split at hfound
        · obtain rfl : work = found := by simpa [Stage.work?] using hfound
          exact hbusy
        · simp [Stage.work?] at hfound
    · intro other hother
      rcases List.mem_cons.mp hother with rfl | hold
      · exact .inr hcond
      · exact .inl hold
    · simp [hstage, Stage.WillLook]
    · intro id hid
      split at hid <;> simp [Stage.Counts] at hid
  · cases h

end Locking

section Looking

theorem view_status_of_finalized (hsound : session.Sound system.committed)
    (hopen : session.stage ≠ .done) {modelInstanceId : Uuid}
    (hview : (session.view system.committed).status modelInstanceId ≠ some .draining) :
    ⟨modelInstanceId, .unpublished⟩ ∈ session.instances ∨
      system.committed.status modelInstanceId ≠ some .draining := by
  by_cases hwritten : ∃ row ∈ session.instances, row.id = modelInstanceId
  · obtain ⟨row, hrow, rfl⟩ := hwritten
    have hstatus : row = ⟨row.id, .unpublished⟩ := by
      rw [← hsound.unpublished hopen row hrow]
    exact .inl (hstatus ▸ hrow)
  · rw [status_view_of_unwritten fun row hrow hid => hwritten ⟨row, hrow, hid⟩] at hview
    exact .inr hview

/-- A transaction that makes an instance drain holds it. -/
theorem Session.Sound.holds_of_drains {committed : Rows} (h : session.Sound committed)
    {modelInstanceId : Uuid} (hdrains : session.Drains modelInstanceId) :
    modelInstanceId ∈ session.instanceLocks := by
  rcases hdrains with hcounts | hwritten
  · refine (h.unpublishing modelInstanceId ?_).1
    cases hstage : session.stage with
    | counted id activeJobs =>
        rw [hstage] at hcounts
        exact congrArg some hcounts.1
    | _ =>
        rw [hstage] at hcounts
        exact absurd hcounts (by simp [Stage.Counts])
  · exact h.instanceLocks _ hwritten

theorem System.Sound.not_drains (hsound : system.Sound) {modelInstanceId : Uuid}
    (hfree : InstanceFree system session modelInstanceId) :
    ∀ other ∈ system.sessions.rows, other.id ≠ session.id → ¬other.Drains modelInstanceId :=
  fun other hother hne hdrains =>
    (hfree other hother hne).1 ((hsound.sessions other hother).holds_of_drains hdrains)

/-- Looking at an instance that has not been seen to drain. -/
theorem look_sound (hsound : system.Sound) (hmem : session ∈ system.sessions.rows)
    (modelInstanceId : Uuid) (hopen : session.stage ≠ .done)
    (hlook : ∀ id, session.stage.WillLook id → id = modelInstanceId)
    (hwell : session.stage.WillLook modelInstanceId → Watched system modelInstanceId →
      (session.view system.committed).status modelInstanceId = some .draining ∧
        (session.view system.committed).leases modelInstanceId = [] ∨
      SeesLease system session modelInstanceId []) :
    (system.put (session.look system modelInstanceId)).Sound := by
  rw [Session.look]
  split
  · rename_i hdrained
    refine hsound.restage hmem rfl ?_ rfl rfl (fun _ h => .inl h) (fun _ h => .inl h)
      (fun _ h => .inl h) ?_ (by simp [Stage.Counts])
    · exact (hsound.sessions session hmem).restage hopen rfl rfl (List.Subset.refl _)
        (List.Subset.refl _) (by simp [Stage.unpublishing?]) (by simp [Stage.work?])
    · exact fun id hid => (hlook id hid).symm
  · rename_i hbusy
    refine hsound.put hmem rfl ?_ (fun _ h => .inl h) (fun _ h => .inl h) (fun _ h => .inl h) ?_
    · exact (hsound.sessions session hmem).restage hopen rfl rfl (List.Subset.refl _)
        (List.Subset.refl _) (by simp [Stage.unpublishing?]) (by simp [Stage.work?])
    · intro other hwatched
      have hdrains : Session.Drains { session with stage := .ready } other →
          session.Drains other := by
        rintro (hcounts | hwritten)
        · exact absurd hcounts (by simp [Stage.Counts])
        · exact .inr hwritten
      by_cases hlooks : session.stage.WillLook other
      · obtain rfl := hlook other hlooks
        rcases hwell hlooks (watched_put hwatched hmem hdrains) with hdrained | hsees
        · exact absurd hdrained hbusy
        · obtain ⟨work, hwork, -, hview, hothers⟩ := hsees
          exact ⟨work.id, leased_of_mem_leases hwork, .inl hview, hothers⟩
      · refine hsound.kept_put hmem hwatched hdrains ?_
        rintro id - (hleased | hlater | hunpublished)
        · exact .inl hleased
        · exact absurd hlater hlooks
        · exact .inr (.inr hunpublished)

end Looking

section Writing

/-- A statement that writes one row of work. -/
theorem System.Sound.write (hsound : system.Sound) (hmem : session ∈ system.sessions.rows)
    (hopen : session.stage ≠ .done) (hid : next.id = session.id) {work : Work}
    (hworks : next.works = work :: session.works) (hinstances : next.instances = session.instances)
    (hlocked : work.id ∈ next.workLocks) (hkeptLocks : session.workLocks ⊆ next.workLocks)
    (hkeptInstances : session.instanceLocks ⊆ next.instanceLocks)
    (hworkLocks : ∀ id ∈ next.workLocks, id ∈ session.workLocks ∨ WorkFree system session id)
    (hinstanceLocks : ∀ id ∈ next.instanceLocks,
      id ∈ session.instanceLocks ∨ InstanceFree system session id)
    (hsharedLocks : next.sharedLocks = session.sharedLocks)
    (hstage : next.stage = .done ∨ next.stage.work? = none ∧ next.stage.unpublishing? = none ∧
      work.status ≠ .leased)
    (hquiet : ∀ id, ¬session.stage.WillLook id ∧ ¬next.stage.Counts id)
    (hkept : ∀ modelInstanceId, Watched system modelInstanceId →
      system.committed.Leased work.id modelInstanceId →
      (session.view system.committed).Leased work.id modelInstanceId →
        next.Keeps modelInstanceId system.committed work.id ∨
          SeesLease system session modelInstanceId [work.id]) :
    (system.put next).Sound := by
  have hold := hsound.sessions session hmem
  have hidle : next.stage.work? = none ∧ next.stage.unpublishing? = none := by
    rcases hstage with hdone | ⟨hwork, hunpublishing, -⟩
    · rw [hdone]
      exact ⟨rfl, rfl⟩
    · exact ⟨hwork, hunpublishing⟩
  refine hsound.put hmem hid ?_ hworkLocks hinstanceLocks ?_ ?_
  · constructor
    · intro row hrow
      rw [hworks] at hrow
      rcases List.mem_cons.mp hrow with rfl | hrow
      · exact hlocked
      · exact hkeptLocks (hold.workLocks row hrow)
    · exact fun row hrow => hkeptInstances (hold.instanceLocks row (hinstances ▸ hrow))
    · intro hnotDone row hrow
      rw [hworks] at hrow
      rcases List.mem_cons.mp hrow with rfl | hrow
      · rcases hstage with hdone | ⟨-, -, hunleased⟩
        · exact absurd hdone hnotDone
        · exact hunleased
      · exact hold.unleased hopen row hrow
    · exact fun _ row hrow => hold.unpublished hopen row (hinstances ▸ hrow)
    · exact fun row hrow hne => absurd (hold.unpublished hopen row (hinstances ▸ hrow)) hne
    · intro id hid
      rw [hidle.2] at hid
      cases hid
    · intro found hfound
      rw [hidle.1] at hfound
      cases hfound
  · exact fun id h => .inl (hsharedLocks ▸ h)
  · intro modelInstanceId hwatched
    have hbefore : Watched system modelInstanceId := by
      refine watched_put hwatched hmem ?_
      rintro (hcounts | hwritten)
      · exact absurd hcounts (hquiet modelInstanceId).2
      · exact .inr (hinstances ▸ hwritten)
    obtain ⟨id, hleased, hall⟩ := hsound.kept modelInstanceId hbefore
    have hothers := fun other hother (_ : other.id ≠ session.id) => hall other hother
    rcases hall session hmem with hview | hlater | hunpublished
    · by_cases hne : id = work.id
      · subst hne
        rcases hkept modelInstanceId hbefore hleased hview with hkeeps | hsees
        · exact ⟨work.id, hleased, hkeeps, hothers⟩
        · obtain ⟨found, hfound, hexcepted, hsaw, hrest⟩ := hsees
          rw [List.mem_singleton] at hexcepted
          exact ⟨found.id, leased_of_mem_leases hfound,
            .inl ((leased_cons_of_ne hworks hexcepted).mpr hsaw), hrest⟩
      · exact ⟨id, hleased, .inl ((leased_cons_of_ne hworks hne).mpr hview), hothers⟩
    · exact absurd hlater (hquiet modelInstanceId).1
    · exact ⟨id, hleased, .inr (.inr (hinstances ▸ hunpublished)), hothers⟩

theorem Ending.apply_id (ending : Ending) (work : Work) : (ending.apply work).id = work.id := by
  cases ending <;> rfl

theorem Ending.apply_unleased (ending : Ending) (work : Work) :
    (ending.apply work).status ≠ .leased := by
  cases ending <;> simp [Ending.apply]

/-- Who ends a lease looks at its instance next. -/
theorem endWork_sound (hsound : system.Sound) (hmem : session ∈ system.sessions.rows)
    {work : Work} (hstage : session.stage = .found work) (ending : Ending) :
    (system.put (session.endWork work ending)).Sound := by
  have hwork : session.stage.work? = some work := by rw [hstage, Stage.work?]
  have hbusy := (hsound.sessions session hmem).busy work hwork
  have hid := ending.apply_id work
  refine hsound.write hmem (by simp [hstage]) rfl rfl rfl (hid ▸ hbusy.1)
    (List.Subset.refl _) (List.Subset.refl _) (fun _ h => .inl h) (fun _ h => .inl h) rfl ?_ ?_ ?_
  · refine .inr ⟨?_, ?_, ending.apply_unleased work⟩ <;> cases hinstance : work.modelInstanceId <;>
      simp [Session.endWork, hinstance, Stage.work?, Stage.unpublishing?]
  · intro id
    constructor
    · simp [hstage, Stage.WillLook]
    · cases hinstance : work.modelInstanceId <;> simp [Session.endWork, hinstance, Stage.Counts]
  · intro modelInstanceId _ _ hview
    obtain ⟨found, hfound, hleased⟩ := hview
    obtain rfl : work = found := by
      rw [hid, hbusy.2] at hfound
      exact Option.some.inj hfound
    refine .inl (.inr (.inl ?_))
    simp [Session.endWork, hleased.2, Stage.WillLook]

theorem renewLease_sound (hsound : system.Sound) (hmem : session ∈ system.sessions.rows)
    {work : Work} (hstage : session.stage = .found work) {leaseExpiresAt : Int}
    (h : session.renewLease work leaseExpiresAt = some next) : (system.put next).Sound := by
  have hwork : session.stage.work? = some work := by rw [hstage, Stage.work?]
  have hbusy := (hsound.sessions session hmem).busy work hwork
  simp only [Session.renewLease] at h
  split at h
  · cases h
    refine hsound.write hmem (by simp [hstage]) rfl rfl rfl hbusy.1
      (List.Subset.refl _) (List.Subset.refl _) (fun _ h => .inl h) (fun _ h => .inl h) rfl
      (.inl rfl) ?_ ?_
    · simp [hstage, Stage.WillLook, Stage.Counts]
    · intro modelInstanceId _ _ hview
      obtain ⟨found, hfound, hleased⟩ := hview
      obtain rfl : work = found := Option.some.inj (hbusy.2.symm.trans hfound)
      exact .inl (.inl (leased_cons_self rfl hleased))
  · cases h

/-- A claim takes a lease elsewhere only when another one stays. -/
theorem writeLease_sound (hsound : system.Sound) (hmem : session ∈ system.sessions.rows)
    {work : Work} {target : Uuid} (hstage : session.stage = .confirmed work target)
    (leaseExpiresAt : Int)
    (hwell : ∀ id ∈ work.modelInstanceId, work.status = .leased → id ≠ target →
      Watched system id → SeesLease system session id [work.id]) :
    (system.put (session.writeLease work target leaseExpiresAt)).Sound := by
  have hwork : session.stage.work? = some work := by rw [hstage, Stage.work?]
  have hbusy := (hsound.sessions session hmem).busy work hwork
  refine hsound.write hmem (by simp [hstage]) rfl rfl rfl hbusy.1
    (List.Subset.refl _) (List.Subset.refl _) (fun _ h => .inl h) (fun _ h => .inl h) rfl
    (.inl rfl) ?_ ?_
  · simp [hstage, Stage.WillLook, Session.writeLease, Stage.Counts]
  · intro modelInstanceId hwatched _ hview
    obtain ⟨found, hfound, hleased⟩ := hview
    obtain rfl : work = found := Option.some.inj (hbusy.2.symm.trans hfound)
    by_cases htarget : modelInstanceId = target
    · exact .inl (.inl (leased_cons_self rfl ⟨rfl, congrArg some htarget.symm⟩))
    · exact .inr (hwell modelInstanceId hleased.2 hleased.1 htarget hwatched)

theorem leaseChallenge_sound (hsound : system.Sound) (hmem : session ∈ system.sessions.rows)
    (hstage : session.stage = .ready) {id : WorkId} {modelInstanceId : Uuid} {leaseExpiresAt : Int}
    (h : session.leaseChallenge system id modelInstanceId leaseExpiresAt = some next) :
    (system.put next).Sound := by
  simp only [Session.leaseChallenge] at h
  split at h
  · cases h
  · split at h
    · rename_i hcond
      cases h
      refine hsound.write hmem (by simp [hstage]) rfl rfl rfl List.mem_cons_self
        (List.subset_cons_self _ _) (List.subset_cons_self _ _) ?_ ?_ rfl (.inl rfl) ?_ ?_
      · intro other hother
        rcases List.mem_cons.mp hother with rfl | hold
        · exact .inr hcond.1
        · exact .inl hold
      · intro other hother
        rcases List.mem_cons.mp hother with rfl | hold
        · exact .inr hcond.2.2.1
        · exact .inl hold
      · simp [hstage, Stage.WillLook, Stage.Counts]
      · intro other _ _ hview
        obtain ⟨found, hfound, -⟩ := hview
        rw [hcond.2.1] at hfound
        cases hfound
    · cases h

end Writing

section Instances

/-- A statement that writes the rows of instances, or counts. -/
theorem System.Sound.keep_works (hsound : system.Sound) (hmem : session ∈ system.sessions.rows)
    (hid : next.id = session.id) (hnext : next.Sound system.committed)
    (hworks : next.works = session.works) (hworkLocks : next.workLocks = session.workLocks)
    (hinstances : session.instances ⊆ next.instances)
    (hinstanceLocks : ∀ id ∈ next.instanceLocks,
      id ∈ session.instanceLocks ∨ InstanceFree system session id)
    (hsharedLocks : next.sharedLocks = session.sharedLocks)
    (hkept : ∀ modelInstanceId, Watched (system.put next) modelInstanceId →
      SeesLease system session modelInstanceId [] ∨
        (next.Drains modelInstanceId → session.Drains modelInstanceId) ∧
        (Watched system modelInstanceId → session.stage.WillLook modelInstanceId →
          ⟨modelInstanceId, .unpublished⟩ ∈ next.instances)) :
    (system.put next).Sound := by
  have hview : ∀ id modelInstanceId, (session.view system.committed).Leased id modelInstanceId →
      next.Keeps modelInstanceId system.committed id := by
    rintro id modelInstanceId ⟨work, hfind, hleased⟩
    refine .inl ⟨work, ?_, hleased⟩
    rw [Option.mem_def, find_view, hworks, ← find_view]
    exact hfind
  refine hsound.put hmem hid hnext (fun _ h => .inl (hworkLocks ▸ h)) hinstanceLocks
    (fun _ h => .inl (hsharedLocks ▸ h)) ?_
  intro modelInstanceId hwatched
  rcases hkept modelInstanceId hwatched with hsees | ⟨hdrains, hlooks⟩
  · obtain ⟨work, hwork, -, hsaw, hothers⟩ := hsees
    exact ⟨work.id, leased_of_mem_leases hwork, hview work.id modelInstanceId hsaw, hothers⟩
  · refine hsound.kept_put hmem hwatched hdrains ?_
    rintro id - (hleased | hlater | hunpublished)
    · exact hview id modelInstanceId hleased
    · exact .inr (.inr (hlooks (watched_put hwatched hmem hdrains) hlater))
    · exact .inr (.inr (hinstances hunpublished))

/-- The `UPDATE` writes an instance that drains; another one is not watched. -/
theorem finalized_sound (hsound : system.Sound) (hmem : session ∈ system.sessions.rows)
    {modelInstanceId : Uuid} (hstage : session.stage = .finalizing modelInstanceId)
    (h : session.finalized system modelInstanceId = some next) : (system.put next).Sound := by
  have hold := hsound.sessions session hmem
  have hopen : session.stage ≠ .done := by simp [hstage]
  simp only [Session.finalized] at h
  split at h
  · rename_i hfree
    cases h
    refine hsound.keep_works hmem rfl ?_ rfl rfl ?_ ?_ rfl ?_
    · have hrows : ∀ row ∈ (if (session.view system.committed).status modelInstanceId =
          some .draining then (⟨modelInstanceId, .unpublished⟩ :: session.instances)
          else session.instances), row = ⟨modelInstanceId, .unpublished⟩ ∨
            row ∈ session.instances := by
        intro row hrow
        split at hrow
        · exact List.mem_cons.mp hrow
        · exact .inr hrow
      have hunpublished : ∀ row ∈ (if (session.view system.committed).status modelInstanceId =
          some .draining then (⟨modelInstanceId, .unpublished⟩ :: session.instances)
          else session.instances), row.status = .unpublished := by
        intro row hrow
        rcases hrows row hrow with rfl | hrow
        · rfl
        · exact hold.unpublished hopen row hrow
      refine ⟨hold.workLocks, ?_, fun _ => hold.unleased hopen, fun _ => hunpublished,
        fun row hrow hne => absurd (hunpublished row hrow) hne, ?_, ?_⟩
      · intro row hrow
        rcases hrows row hrow with rfl | hrow
        · exact List.mem_cons_self
        · exact List.mem_cons_of_mem _ (hold.instanceLocks row hrow)
      · simp [Stage.unpublishing?]
      · simp [Stage.work?]
    · intro row hrow
      split
      · exact List.mem_cons_of_mem _ hrow
      · exact hrow
    · intro id hid
      rcases List.mem_cons.mp hid with rfl | hid
      · exact .inr hfree
      · exact .inl hid
    · intro other hwatched
      refine .inr ⟨?_, ?_⟩
      · rintro (hcounts | hwritten)
        · exact absurd hcounts (by simp [Stage.Counts])
        · refine .inr ?_
          split at hwritten
          · simpa using hwritten
          · exact hwritten
      · intro hbefore hlooks
        obtain rfl : modelInstanceId = other := by simpa [hstage, Stage.WillLook] using hlooks
        split
        · exact List.mem_cons_self
        · rename_i hview
          rcases view_status_of_finalized hold hopen hview with hwritten | hcommitted
          · exact hwritten
          · rcases hbefore with hdraining | ⟨drainer, hdrainer, hdrains⟩
            · exact absurd hdraining hcommitted
            · by_cases hself : drainer.id = session.id
              · obtain rfl : drainer = session :=
                  List.inj_on_of_nodup_map system.sessions.nodup hdrainer hmem hself
                rcases hdrains with hcounts | hwritten
                · exact absurd hcounts (by simp [hstage, Stage.Counts])
                · exact absurd (hold.unpublished hopen _ hwritten) (by simp)
              · exact absurd hdrains (hsound.not_drains hfree drainer hdrainer hself)
  · cases h

theorem countLeases_sound (hsound : system.Sound) (hmem : session ∈ system.sessions.rows)
    {modelInstanceId : Uuid} (hstage : session.stage = .locked modelInstanceId)
    (hwell : (session.view system.committed).leases modelInstanceId ≠ [] →
      SeesLease system session modelInstanceId []) :
    (system.put
      { session with
        stage := .counted modelInstanceId
          ((session.view system.committed).leases modelInstanceId).length }).Sound := by
  have hopen : session.stage ≠ .done := by simp [hstage]
  have hold := hsound.sessions session hmem
  refine hsound.keep_works hmem rfl ?_ rfl rfl (List.Subset.refl _) (fun _ h => .inl h) rfl ?_
  · refine hold.restage hopen rfl rfl (List.Subset.refl _) (List.Subset.refl _) ?_
      (by simp [Stage.work?])
    exact fun id hid => hold.unpublishing id (by rwa [hstage])
  · intro other _
    by_cases hcounts : other = modelInstanceId ∧
        (session.view system.committed).leases modelInstanceId ≠ []
    · exact .inl (hcounts.1 ▸ hwell hcounts.2)
    · refine .inr ⟨?_, by simp [hstage, Stage.WillLook]⟩
      rintro (⟨rfl, hne⟩ | hwritten)
      · exact absurd ⟨rfl, fun hnil => hne (congrArg List.length hnil)⟩ hcounts
      · exact .inr hwritten

theorem setStatus_sound (hsound : system.Sound) (hmem : session ∈ system.sessions.rows)
    {modelInstanceId : Uuid} {activeJobs : Nat}
    (hstage : session.stage = .counted modelInstanceId activeJobs) :
    (system.put (session.setStatus modelInstanceId activeJobs)).Sound := by
  have hold := hsound.sessions session hmem
  obtain ⟨hlock, hfresh⟩ := hold.unpublishing modelInstanceId
    (by rw [hstage, Stage.unpublishing?, Option.mem_def])
  refine hsound.keep_works hmem rfl ?_ rfl rfl (List.subset_cons_self _ _) (fun _ h => .inl h)
    rfl ?_
  · refine ⟨hold.workLocks, ?_, fun hnotDone => absurd rfl hnotDone,
      fun hnotDone => absurd rfl hnotDone, ?_, by simp [Session.setStatus, Stage.unpublishing?],
      by simp [Session.setStatus, Stage.work?]⟩
    · simp [Session.setStatus, hfresh.2, hlock]
    · simp [Session.setStatus, hfresh.1, hfresh.2]
  · intro other _
    refine .inr ⟨?_, by simp [hstage, Stage.WillLook]⟩
    rintro (hcounts | hwritten)
    · exact absurd hcounts (by simp [Session.setStatus, Stage.Counts])
    · rcases List.mem_cons.mp hwritten with hrow | hwritten
      · refine .inl ?_
        rw [hstage]
        simp only [InstanceRow.mk.injEq] at hrow
        refine ⟨hrow.1.symm, fun hzero => ?_⟩
        simp [hzero] at hrow
      · exact .inr hwritten

theorem publish_sound (hsound : system.Sound) (hmem : session ∈ system.sessions.rows)
    (hstage : session.stage = .ready) {modelInstanceId : Uuid}
    (h : session.publish system modelInstanceId = some next) : (system.put next).Sound := by
  have hold := hsound.sessions session hmem
  simp only [Session.publish] at h
  split at h
  · rename_i hcond
    cases h
    refine hsound.keep_works hmem rfl ?_ rfl rfl (List.subset_cons_self _ _) ?_ rfl ?_
    · refine ⟨hold.workLocks, ?_, fun hnotDone => absurd rfl hnotDone,
        fun hnotDone => absurd rfl hnotDone, ?_, by simp [Stage.unpublishing?],
        by simp [Stage.work?]⟩
      · simp [hcond.1.2]
      · simp [hcond.1.1, hcond.1.2]
    · intro id hid
      rcases List.mem_cons.mp hid with rfl | hid
      · exact .inr hcond.2
      · exact .inl hid
    · intro other _
      refine .inr ⟨?_, by simp [hstage, Stage.WillLook]⟩
      rintro (hcounts | hwritten)
      · exact absurd hcounts (by simp [Stage.Counts])
      · simp [hcond.1.2] at hwritten
  · cases h

end Instances

/-- Every statement keeps the system sound. -/
theorem run_sound (hsound : system.Sound) (hmem : session ∈ system.sessions.rows)
    {statement : Statement} (hwell : LooksWell system session statement)
    (h : session.run system statement = some next) : (system.put next).Sound := by
  cases statement with
  | lockWork id =>
      cases hstage : session.stage <;> simp only [Session.run, hstage] at h <;> try cases h
      exact lockWork_sound hsound hmem hstage h
  | endWork ending =>
      cases hstage : session.stage <;> simp only [Session.run, hstage] at h <;> cases h
      exact endWork_sound hsound hmem hstage ending
  | renewLease leaseExpiresAt =>
      cases hstage : session.stage <;> simp only [Session.run, hstage] at h <;> try cases h
      exact renewLease_sound hsound hmem hstage h
  | finalize =>
      cases hstage : session.stage <;> simp only [Session.run, hstage] at h <;> cases h
      refine look_sound hsound hmem _ (by simp [hstage])
        (by simp [hstage, Stage.WillLook]) ?_
      exact fun _ => hwell _ (by rw [hstage, Stage.released?, Option.mem_def])
  | sweep modelInstanceId =>
      cases hstage : session.stage <;> simp only [Session.run, hstage] at h <;> cases h
      exact look_sound hsound hmem _ (by simp [hstage]) (by simp [hstage, Stage.WillLook])
        (by simp [hstage, Stage.WillLook])
  | finalized =>
      cases hstage : session.stage <;> simp only [Session.run, hstage] at h <;> try cases h
      exact finalized_sound hsound hmem hstage h
  | lockInstance modelInstanceId =>
      cases hstage : session.stage <;> simp only [Session.run, hstage] at h <;> try cases h
      exact lockInstance_sound hsound hmem hstage h
  | countLeases =>
      cases hstage : session.stage <;> simp only [Session.run, hstage] at h <;> cases h
      exact countLeases_sound hsound hmem hstage
        (hwell _ (by rw [hstage, Stage.locked?, Option.mem_def]))
  | setStatus =>
      cases hstage : session.stage <;> simp only [Session.run, hstage] at h <;> cases h
      exact setStatus_sound hsound hmem hstage
  | publish modelInstanceId =>
      cases hstage : session.stage <;> simp only [Session.run, hstage] at h <;> try cases h
      exact publish_sound hsound hmem hstage h
  | chooseJob id modelInstanceId =>
      cases hstage : session.stage <;> simp only [Session.run, hstage] at h <;> try cases h
      exact chooseJob_sound hsound hmem hstage h
  | shareInstance =>
      cases hstage : session.stage <;> simp only [Session.run, hstage] at h <;> try cases h
      exact shareInstance_sound hsound hmem hstage h
  | writeLease leaseExpiresAt =>
      cases hstage : session.stage <;> simp only [Session.run, hstage] at h <;> cases h
      exact writeLease_sound hsound hmem hstage leaseExpiresAt
        (hwell _ (by rw [hstage, Stage.confirmed?, Option.mem_def]))
  | leaseChallenge id modelInstanceId leaseExpiresAt =>
      cases hstage : session.stage <;> simp only [Session.run, hstage] at h <;> try cases h
      exact leaseChallenge_sound hsound hmem hstage h

end MindOne.Coordinator.Draining
