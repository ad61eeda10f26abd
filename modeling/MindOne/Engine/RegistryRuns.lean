import MindOne.Engine.ModelRegistry

/-!
# Names and identifiers of the registered models

As long as a record that is added or put back shares no name with another, and no
name reads as the identifier of another, names and identifiers stay distinct, both
find their record, and what was written last for an identifier is registered
until a deletion takes it. Putting a record back checks nothing but its identifier.
-/

namespace MindOne.Engine

open CheckedArithmetic LabelledRuns

/-- What never changes of a record. -/
def ModelRecord.key (record : ModelRecord) : Uuid × String := (record.id, record.name)

/-- The records that a call works with. -/
def CallStage.keys : CallStage → List (Uuid × String)
  | .idle | .received _ | .ended => []
  | .verifying _ record | .verified _ record | .deleting _ record | .quarantined _ record
  | .deleted record => [record.key]
  | .removing current removed | .movedBack current removed => [current.key, removed.key]

/-- A deletion has taken out the record that it had looked up, if not its last version. -/
def CallStage.Agrees : CallStage → Prop
  | .removing current removed | .movedBack current removed => current.id = removed.id
  | _ => True

namespace RegistrySystem
variable {bundleSha256 : List ModelArtifactRecord → String}

/-- The name of the one is not the identifier of the other. -/
def Apart (id : Uuid) (name : String) (model : ModelRecord) : Prop :=
  model.name ≠ id.text ∧ model.id.text ≠ name

instance (id : Uuid) (name : String) (model : ModelRecord) : Decidable (Apart id name model) :=
  inferInstanceAs (Decidable (_ ∧ _))

/-- The record that a call is about to add reads like no other. -/
def AddsApart (models : List ModelRecord) (id : Uuid) : CallStage → Prop
  | .received (.register registration) => ∀ model ∈ models, Apart id registration.name model
  | _ => True

/-- The record that a call is about to put back has not changed since it was looked up, and
its name is neither taken nor reads like an identifier. -/
def RestoresApart (models : List ModelRecord) : CallStage → Prop
  | .movedBack current removed => removed = current ∧ ∀ model ∈ models,
      model.name ≠ current.name ∧ Apart current.id current.name model
  | _ => True

def Undisturbed : List RegistryEvent → RegistrySystem → RegistryEvent → Prop
  | _, system, .register i id => AddsApart system.models id (system.calls i)
  | _, system, .restore i => RestoresApart system.models (system.calls i)
  | _, _, _ => True

instance (models : List ModelRecord) (id : Uuid) (stage : CallStage) :
    Decidable (AddsApart models id stage) :=
  match stage with
  | .received (.register registration) =>
      inferInstanceAs (Decidable (∀ model ∈ models, Apart id registration.name model))
  | .idle | .received (.reverify _) | .received (.delete _ _) | .verifying _ _ | .verified _ _
  | .deleting _ _ | .quarantined _ _ | .removing _ _ | .movedBack _ _ | .deleted _ | .ended =>
      instDecidableTrue

instance (models : List ModelRecord) (stage : CallStage) : Decidable (RestoresApart models stage) :=
  match stage with
  | .movedBack current removed => inferInstanceAs (Decidable (removed = current ∧
      ∀ model ∈ models, model.name ≠ current.name ∧ Apart current.id current.name model))
  | .idle | .received _ | .verifying _ _ | .verified _ _ | .deleting _ _ | .quarantined _ _
  | .removing _ _ | .deleted _ | .ended => instDecidableTrue

instance (past : List RegistryEvent) (system : RegistrySystem) (event : RegistryEvent) :
    Decidable (Undisturbed past system event) :=
  match event with
  | .register i id => inferInstanceAs (Decidable (AddsApart system.models id (system.calls i)))
  | .restore i => inferInstanceAs (Decidable (RestoresApart system.models (system.calls i)))
  | .call _ _ | .find _ | .validated _ _ | .reverify _ | .quarantine _ | .remove _ _
  | .unlinked _ | .moveBack _ | .fail _ => instDecidableTrue

structure Sound (system : RegistrySystem) : Prop where
  issued : (system.issued.map Prod.fst).Nodup
  known : ∀ model ∈ system.models, model.key ∈ system.issued
  held : ∀ i, ∀ key ∈ (system.calls i).keys, key ∈ system.issued
  agrees : ∀ i, (system.calls i).Agrees
  names : (system.models.map ModelRecord.name).Nodup
  ids : (system.models.map ModelRecord.id).Nodup
  apart : ∀ a ∈ system.models, ∀ b ∈ system.models, a.name = b.id.text → a.id = b.id
  taken : ∀ i record, (system.calls i).took = some record →
    ∀ model ∈ system.models, model.id ≠ record.id
  exclusive : ∀ i j record record', (system.calls i).took = some record →
    (system.calls j).took = some record' → record.id = record'.id → i = j
  latest : ∀ id record, system.latestWrite id = some record →
    record ∈ system.models ∨ ∃ i, (system.calls i).took = some record

section Sections
variable {record : ModelRecord} {models models' : List ModelRecord}

theorem replaceFirst_eq_some (h : replaceFirst record models = some models') :
    ∃ before old after, models = before ++ old :: after ∧ models' = before ++ record :: after ∧
      old.id = record.id := by
  induction models generalizing models' with
  | nil => cases h
  | cons model rest ih =>
      simp only [replaceFirst] at h
      split at h
      · rename_i hid
        cases h
        exact ⟨[], model, rest, rfl, rfl, hid⟩
      · obtain ⟨rest', hrest, rfl⟩ := Option.map_eq_some_iff.mp h
        obtain ⟨before, old, after, rfl, rfl, hid⟩ := ih hrest
        exact ⟨model :: before, old, after, rfl, rfl, hid⟩

theorem id_ne_of_mem_eraseP {id : Uuid} (h : (models.map ModelRecord.id).Nodup)
    {model : ModelRecord} (hmem : model ∈ models.eraseP fun model => model.id = id) :
    model.id ≠ id := by
  induction models with
  | nil => cases hmem
  | cons first rest ih =>
      obtain ⟨hfirst, hrest⟩ := List.nodup_cons.mp h
      by_cases hid : first.id = id
      · rw [List.eraseP_cons_of_pos (by simp [hid])] at hmem
        rintro rfl
        exact hfirst (hid ▸ List.mem_map_of_mem hmem)
      · rw [List.eraseP_cons_of_neg (by simp [hid])] at hmem
        rcases List.mem_cons.mp hmem with rfl | hmem
        · exact hid
        · exact ih hrest hmem

end Sections

section Calls
variable {system : RegistrySystem} {i j : Nat} {stage : CallStage}

theorem calls_setCall (system : RegistrySystem) (i : Nat) (stage : CallStage) (j : Nat) :
    (system.setCall i stage).calls j = if j = i then stage else system.calls j :=
  Function.update_apply ..

theorem took_setCall (h : stage.took = (system.calls i).took) (j : Nat) :
    ((system.setCall i stage).calls j).took = (system.calls j).took := by
  rw [calls_setCall]
  split
  · subst j
    exact h
  · rfl

theorem key_mem_of_took {record : ModelRecord} (h : stage.took = some record) :
    record.key ∈ stage.keys := by
  cases stage <;> cases h <;> simp [CallStage.keys]

theorem took_stopped (stage : CallStage) : stage.stopped.took = stage.took := by
  cases stage <;> rfl

theorem keys_stopped : ∀ key ∈ stage.stopped.keys, key ∈ stage.keys := by
  cases stage <;> simp [CallStage.stopped, CallStage.keys]

theorem agrees_stopped (stage : CallStage) : stage.stopped.Agrees := by
  cases stage <;> trivial

/-- A call that goes on without touching the registry. -/
theorem Sound.setCall (h : system.Sound) (htook : stage.took = (system.calls i).took)
    (hagrees : stage.Agrees)
    (hkeys : ∀ key ∈ stage.keys, key ∈ (system.calls i).keys ∨ key ∈ system.models.map ModelRecord.key) :
    (system.setCall i stage).Sound where
  issued := h.issued
  known := h.known
  held j key hkey := by
    rw [calls_setCall] at hkey
    split at hkey
    · rcases hkeys key hkey with hold | hmodel
      · exact h.held i key hold
      · obtain ⟨model, hmem, rfl⟩ := List.mem_map.mp hmodel
        exact h.known model hmem
    · exact h.held j key hkey
  agrees j := by
    rw [calls_setCall]
    split
    · exact hagrees
    · exact h.agrees j
  names := h.names
  ids := h.ids
  apart := h.apart
  taken j record hrecord := h.taken j record (took_setCall htook j ▸ hrecord)
  exclusive j k record record' hj hk :=
    h.exclusive j k record record' (took_setCall htook j ▸ hj) (took_setCall htook k ▸ hk)
  latest id record hrecord := by
    rcases h.latest id record hrecord with hmem | ⟨j, hj⟩
    · exact .inl hmem
    · exact .inr ⟨j, (took_setCall htook j).trans hj⟩

/-- A call that ends and had taken nothing. -/
theorem Sound.ended (h : system.Sound) (htook : (system.calls i).took = none) :
    (system.setCall i .ended).Sound :=
  h.setCall (htook.symm : CallStage.ended.took = _) trivial fun _ hkey => nomatch hkey

end Calls

section Changes
variable {system next : RegistrySystem} {i : Nat} {record : ModelRecord}

theorem latestWrite_cons (h : next.writes = record :: system.writes) (id : Uuid) :
    next.latestWrite id = if record.id = id then some record else system.latestWrite id := by
  rw [latestWrite, h, List.find?_cons]
  by_cases hid : record.id = id <;> simp [hid, latestWrite]

theorem Sound.eq_of_id (h : system.Sound) {a b : ModelRecord} (ha : a ∈ system.models)
    (hb : b ∈ system.models) (hid : a.id = b.id) : a = b :=
  List.inj_on_of_nodup_map h.ids ha hb hid

theorem Sound.eq_of_key (h : system.Sound) {a b : Uuid × String} (ha : a ∈ system.issued)
    (hb : b ∈ system.issued) (hid : a.1 = b.1) : a = b :=
  List.inj_on_of_nodup_map h.issued ha hb hid

/-- A record comes in at the end, with its name free. -/
structure Comes (system : RegistrySystem) (record : ModelRecord) : Prop where
  absent : ∀ model ∈ system.models, model.id ≠ record.id
  free : ∀ model ∈ system.models, model.name ≠ record.name
  apart : ∀ model ∈ system.models, Apart record.id record.name model

theorem Comes.names (h : system.Comes record) (hnames : (system.models.map ModelRecord.name).Nodup) :
    ((system.models ++ [record]).map ModelRecord.name).Nodup := by
  rw [List.map_append, List.nodup_append]
  refine ⟨hnames, by simp, ?_⟩
  intro name hname other hother
  obtain ⟨model, hmem, rfl⟩ := List.mem_map.mp hname
  obtain rfl : other = record.name := by simpa using hother
  exact h.free model hmem

theorem Comes.ids (h : system.Comes record) (hids : (system.models.map ModelRecord.id).Nodup) :
    ((system.models ++ [record]).map ModelRecord.id).Nodup := by
  rw [List.map_append, List.nodup_append]
  refine ⟨hids, by simp, ?_⟩
  intro id hid other hother
  obtain ⟨model, hmem, rfl⟩ := List.mem_map.mp hid
  obtain rfl : other = record.id := by simpa using hother
  exact h.absent model hmem

theorem Comes.reads (h : system.Comes record)
    (hapart : ∀ a ∈ system.models, ∀ b ∈ system.models, a.name = b.id.text → a.id = b.id) :
    ∀ a ∈ system.models ++ [record], ∀ b ∈ system.models ++ [record],
      a.name = b.id.text → a.id = b.id := by
  intro a ha b hb hname
  rcases List.mem_append.mp ha with ha' | ha' <;> rcases List.mem_append.mp hb with hb' | hb'
  · exact hapart a ha' b hb' hname
  · obtain rfl := List.mem_singleton.mp hb'
    exact absurd hname (h.apart a ha').1
  · obtain rfl := List.mem_singleton.mp ha'
    exact absurd hname.symm (h.apart b hb').2
  · rw [List.mem_singleton.mp ha', List.mem_singleton.mp hb']

theorem Sound.register (h : system.Sound) (hcall : (system.calls i).took = none)
    (hfresh : record.id ∉ system.issued.map Prod.fst) (hcomes : system.Comes record)
    (hcalls : next.calls = (system.setCall i .ended).calls)
    (hissued : next.issued = record.key :: system.issued)
    (hwrites : next.writes = record :: system.writes)
    (hmodels : next.models = system.models ++ [record]) : next.Sound := by
  have hended := h.ended hcall
  refine {
    issued := hissued ▸ List.nodup_cons.mpr ⟨hfresh, h.issued⟩
    known := ?_
    held := fun j key hkey => hissued ▸ List.mem_cons_of_mem _ (hended.held j key (hcalls ▸ hkey))
    agrees := hcalls ▸ hended.agrees
    names := hmodels ▸ hcomes.names h.names
    ids := hmodels ▸ hcomes.ids h.ids
    apart := hmodels ▸ hcomes.reads h.apart
    taken := ?_
    exclusive := hcalls ▸ hended.exclusive
    latest := ?_ }
  · intro model hmem
    rw [hmodels] at hmem
    rw [hissued]
    rcases List.mem_append.mp hmem with hmem | hmem
    · exact List.mem_cons_of_mem _ (h.known model hmem)
    · rw [List.mem_singleton.mp hmem]
      exact List.mem_cons_self
  · intro j taken htaken model hmem
    rw [hcalls] at htaken
    rw [hmodels] at hmem
    rcases List.mem_append.mp hmem with hmem | hmem
    · exact hended.taken j taken htaken model hmem
    · rw [List.mem_singleton.mp hmem]
      intro hid
      have hheld := hended.held j _ (key_mem_of_took htaken)
      exact hfresh (hid ▸ List.mem_map_of_mem hheld)
  · intro id written hwritten
    rw [latestWrite_cons hwrites] at hwritten
    rw [hmodels, hcalls]
    split at hwritten
    · cases hwritten
      exact .inl (List.mem_append_right _ (List.mem_singleton_self _))
    · exact (hended.latest id written hwritten).imp_left (List.mem_append_left _)

theorem Sound.replace (h : system.Sound) (hcall : (system.calls i).took = none)
    (hkey : record.key ∈ system.issued)
    (hcalls : next.calls = (system.setCall i .ended).calls)
    (hissued : next.issued = system.issued) (hwrites : next.writes = record :: system.writes)
    (hmodels : replaceFirst record system.models = some next.models) : next.Sound := by
  have hended := h.ended hcall
  obtain ⟨before, old, after, hbefore, hafter, hid⟩ := replaceFirst_eq_some hmodels
  have hold : old ∈ system.models := hbefore ▸ by simp
  -- an identifier keeps its name
  have hsame : old.key = record.key := h.eq_of_key (h.known old hold) hkey hid
  have hkeys : next.models.map ModelRecord.key = system.models.map ModelRecord.key := by
    rw [hbefore, hafter, List.map_append, List.map_append, List.map_cons, List.map_cons, hsame]
  have hcopy : ∀ model ∈ next.models, ∃ earlier ∈ system.models, earlier.key = model.key :=
    fun model hmem => List.mem_map.mp (hkeys ▸ List.mem_map_of_mem hmem)
  have hnames := congrArg (List.map Prod.snd) hkeys
  have hids := congrArg (List.map Prod.fst) hkeys
  rw [List.map_map, List.map_map] at hnames hids
  refine {
    issued := hissued ▸ h.issued
    known := ?_
    held := fun j key hheld => hissued ▸ hended.held j key (hcalls ▸ hheld)
    agrees := hcalls ▸ hended.agrees
    names := hnames ▸ h.names
    ids := hids ▸ h.ids
    apart := ?_
    taken := ?_
    exclusive := hcalls ▸ hended.exclusive
    latest := ?_ }
  · intro model hmem
    obtain ⟨earlier, hmem, heq⟩ := hcopy model hmem
    exact hissued ▸ heq ▸ h.known earlier hmem
  · intro a ha b hb hname
    obtain ⟨a', ha', hakey⟩ := hcopy a ha
    obtain ⟨b', hb', hbkey⟩ := hcopy b hb
    have hreads : a'.name = b'.id.text := (congrArg Prod.snd hakey).trans
      (hname.trans (congrArg (fun key : Uuid × String => key.1.text) hbkey).symm)
    calc a.id = a'.id := (congrArg Prod.fst hakey).symm
      _ = b'.id := h.apart a' ha' b' hb' hreads
      _ = b.id := congrArg Prod.fst hbkey
  · intro j taken htaken model hmem
    obtain ⟨earlier, hmem, heq⟩ := hcopy model hmem
    have hne := hended.taken j taken (hcalls ▸ htaken) earlier hmem
    exact fun hid => hne ((congrArg Prod.fst heq).trans hid)
  · intro id written hwritten
    rw [latestWrite_cons hwrites] at hwritten
    rw [hcalls]
    split at hwritten
    · cases hwritten
      exact .inl (hafter ▸ by simp)
    · rename_i hne
      refine (hended.latest id written hwritten).imp_left fun hmem => ?_
      have hwrittenId : written.id = id := by simpa using List.find?_some hwritten
      have hother : written ≠ old := by
        rintro rfl
        exact hne (hid ▸ hwrittenId)
      have hmem' : written ∈ before ++ old :: after := hbefore ▸ hmem
      rw [hafter]
      simp only [List.mem_append, List.mem_cons, hother, false_or] at hmem' ⊢
      exact hmem'.imp_right .inr

/-- A deletion takes a record out. -/
theorem Sound.remove (stage : CallStage) {id : Uuid} (h : system.Sound)
    (hcall : (system.calls i).took = none) (hmem : record ∈ system.models) (hid : record.id = id)
    (htook : stage.took = some record) (hagrees : stage.Agrees)
    (hkeys : ∀ key ∈ stage.keys, key ∈ system.issued)
    (hcalls : next.calls = (system.setCall i stage).calls)
    (hissued : next.issued = system.issued) (hwrites : next.writes = system.writes)
    (hmodels : next.models = system.models.eraseP fun model => model.id = id) :
    next.Sound := by
  have hsub : ∀ model ∈ next.models, model ∈ system.models := fun model hmodel =>
    List.mem_of_mem_eraseP (hmodels ▸ hmodel)
  have htaken : ∀ j taken, (next.calls j).took = some taken →
      (j = i ∧ taken = record) ∨ (j ≠ i ∧ (system.calls j).took = some taken) := by
    intro j taken hj
    rw [hcalls, calls_setCall] at hj
    split at hj
    · exact .inl ⟨‹j = i›, Option.some.inj (hj.symm.trans htook)⟩
    · exact .inr ⟨‹_›, hj⟩
  refine {
    issued := hissued ▸ h.issued
    known := fun model hmodel => hissued ▸ h.known model (hsub model hmodel)
    held := ?_
    agrees := ?_
    names := hmodels ▸ h.names.sublist (List.eraseP_sublist.map _)
    ids := hmodels ▸ h.ids.sublist (List.eraseP_sublist.map _)
    apart := fun a ha b hb => h.apart a (hsub a ha) b (hsub b hb)
    taken := ?_
    exclusive := ?_
    latest := ?_ }
  · intro j key hkey
    rw [hcalls, calls_setCall] at hkey
    rw [hissued]
    split at hkey
    · exact hkeys key hkey
    · exact h.held j key hkey
  · intro j
    rw [hcalls, calls_setCall]
    split
    · exact hagrees
    · exact h.agrees j
  · intro j taken hj model hmodel
    rcases htaken j taken hj with ⟨-, rfl⟩ | ⟨-, hj⟩
    · exact hid ▸ id_ne_of_mem_eraseP h.ids (hmodels ▸ hmodel)
    · exact h.taken j taken hj model (hsub model hmodel)
  · intro j k taken taken' hj hk heq
    rcases htaken j taken hj with ⟨rfl, rfl⟩ | ⟨-, hj⟩ <;>
      rcases htaken k taken' hk with ⟨rfl, rfl⟩ | ⟨-, hk⟩
    · rfl
    · exact absurd heq (h.taken k taken' hk _ hmem)
    · exact absurd heq.symm (h.taken j taken hj _ hmem)
    · exact h.exclusive j k taken taken' hj hk heq
  · intro other written hwritten
    rw [latestWrite, hwrites] at hwritten
    rcases h.latest other written hwritten with hmodel | ⟨j, hj⟩
    · by_cases hsame : written.id = id
      · obtain rfl := h.eq_of_id hmodel hmem (hsame.trans hid.symm)
        exact .inr ⟨i, by rw [hcalls, calls_setCall, if_pos rfl, htook]⟩
      · refine .inl ?_
        rw [hmodels]
        exact (List.mem_eraseP_of_neg (by simpa using hsame)).mpr hmodel
    · refine .inr ⟨j, ?_⟩
      have hne : j ≠ i := by
        rintro rfl
        rw [hcall] at hj
        cases hj
      rw [hcalls, calls_setCall, if_neg hne, hj]

/-- A deletion puts back what it has taken. -/
theorem Sound.restore (h : system.Sound) (hcall : (system.calls i).took = some record)
    (hcomes : system.Comes record)
    (hcalls : next.calls = (system.setCall i .ended).calls)
    (hissued : next.issued = system.issued) (hwrites : next.writes = system.writes)
    (hmodels : next.models = system.models ++ [record]) : next.Sound := by
  have hkey : record.key ∈ system.issued := h.held i _ (key_mem_of_took hcall)
  have htaken : ∀ j taken, (next.calls j).took = some taken →
      j ≠ i ∧ (system.calls j).took = some taken := by
    intro j taken hj
    rw [hcalls, calls_setCall] at hj
    split at hj
    · cases hj
    · exact ⟨‹_›, hj⟩
  refine {
    issued := hissued ▸ h.issued
    known := ?_
    held := ?_
    agrees := ?_
    names := hmodels ▸ hcomes.names h.names
    ids := hmodels ▸ hcomes.ids h.ids
    apart := hmodels ▸ hcomes.reads h.apart
    taken := ?_
    exclusive := fun j k taken taken' hj hk =>
      h.exclusive j k taken taken' (htaken j taken hj).2 (htaken k taken' hk).2
    latest := ?_ }
  · intro model hmem
    rw [hmodels] at hmem
    rw [hissued]
    rcases List.mem_append.mp hmem with hmem | hmem
    · exact h.known model hmem
    · rw [List.mem_singleton.mp hmem]
      exact hkey
  · intro j key hheld
    rw [hcalls, calls_setCall] at hheld
    rw [hissued]
    split at hheld
    · cases hheld
    · exact h.held j key hheld
  · intro j
    rw [hcalls, calls_setCall]
    split
    · trivial
    · exact h.agrees j
  · intro j taken hj model hmem
    obtain ⟨hne, hj⟩ := htaken j taken hj
    rw [hmodels] at hmem
    rcases List.mem_append.mp hmem with hmem | hmem
    · exact h.taken j taken hj model hmem
    · rw [List.mem_singleton.mp hmem]
      exact fun heq => hne (h.exclusive j i taken record hj hcall heq.symm)
  · intro id written hwritten
    rw [latestWrite, hwrites] at hwritten
    rw [hmodels]
    rcases h.latest id written hwritten with hmem | ⟨j, hj⟩
    · exact .inl (List.mem_append_left _ hmem)
    · by_cases hji : j = i
      · subst hji
        obtain rfl := Option.some.inj (hcall.symm.trans hj)
        exact .inl (List.mem_append_right _ (List.mem_singleton_self _))
      · exact .inr ⟨j, by rw [hcalls, calls_setCall, if_neg hji, hj]⟩

end Changes

section Steps
variable {system next : RegistrySystem} {i : Nat}

theorem initial_sound : initial.Sound where
  issued := List.nodup_nil
  known _ h := nomatch h
  held _ _ h := nomatch h
  agrees _ := trivial
  names := List.nodup_nil
  ids := List.nodup_nil
  apart _ h := nomatch h
  taken _ _ h := nomatch h
  exclusive _ _ _ _ h := nomatch h
  latest _ _ h := nomatch h

theorem mem_of_find {nameOrId : String} {record : ModelRecord}
    (h : Engine.find system.file nameOrId = .ok record) : record ∈ system.models := by
  simp only [Engine.find, bind_eq_ok] at h
  obtain ⟨data, hdata, hfound⟩ := h
  split at hfound
  · rename_i hlookup
    cases hfound
    have hmodels : data.models = system.models := models_of_readData hdata
    exact hmodels ▸ List.mem_of_find?_eq_some hlookup
  · cases hfound

theorem key_of_record {registration : Registration} {id : Uuid} {record : ModelRecord}
    (h : registration.record bundleSha256 id = .ok record) :
    record.id = id ∧ record.name = registration.name := by
  simp only [Registration.record, bind_eq_ok] at h
  obtain ⟨-, -, hrecord⟩ := h
  cases registration with
  | single name report =>
      simp only [bind_eq_ok] at hrecord
      obtain ⟨-, -, hrecord⟩ := hrecord
      cases hrecord
      exact ⟨rfl, rfl⟩
  | bundle name reports => exact recordFromReports_eq_ok hrecord

theorem key_of_refreshedRecord {current refreshed : ModelRecord} {reports : List ValidationReport}
    (h : refreshedRecord bundleSha256 current reports = .ok refreshed) :
    refreshed.key = current.key := by
  unfold refreshedRecord at h
  split at h
  · split at h <;> cases h
    rfl
  · cases h
  · simp only [bind_eq_ok] at h
    obtain ⟨-, -, hrecord⟩ := h
    obtain ⟨hid, hname⟩ := recordFromReports_eq_ok hrecord
    simp only [ModelRecord.key, hid, hname]

theorem Sound.registerStep (h : system.Sound) {registration : Registration} {id : Uuid}
    (hcall : system.calls i = .received (.register registration))
    (hfresh : id ∉ system.issued.map Prod.fst)
    (hapart : ∀ model ∈ system.models, Apart id registration.name model) :
    (system.registerStep bundleSha256 i registration id).Sound := by
  have htook : (system.calls i).took = none := by rw [hcall]; rfl
  unfold RegistrySystem.registerStep
  split
  · exact h.ended htook
  · rename_i record hrecord
    obtain ⟨rfl, hname⟩ := key_of_record hrecord
    split
    · exact h.ended htook
    · rename_i data hadded
      simp only [bind_eq_ok] at hadded
      obtain ⟨stored, hstored, hadded⟩ := hadded
      have hmodels : stored.models = system.models := models_of_readData hstored
      unfold addRecord at hadded
      split at hadded
      · cases hadded
      · rename_i hfree
        cases hadded
        refine h.register htook hfresh ?_ rfl rfl rfl ?_
        · refine ⟨?_, ?_, hname ▸ hapart⟩
          · exact fun model hmem heq => hfresh (heq ▸ List.mem_map_of_mem (h.known model hmem))
          · exact fun model hmem heq => hfree ⟨model, hmodels ▸ hmem, heq⟩
        · show stored.models ++ [record] = system.models ++ [record]
          rw [hmodels]

theorem Sound.findStep (h : system.Sound) {call : RegistryCall}
    (hcall : system.calls i = .received call) (hmade : system.findStep i call = some next) :
    next.Sound := by
  have htook : (system.calls i).took = none := by rw [hcall]; rfl
  cases call with
  | register registration => cases hmade
  | reverify nameOrId =>
      simp only [RegistrySystem.findStep] at hmade
      split at hmade <;> cases hmade
      · rename_i current hfind
        refine h.setCall htook.symm trivial fun key hkey => .inr ?_
        rw [List.mem_singleton.mp hkey]
        exact List.mem_map_of_mem (mem_of_find hfind)
      · exact h.ended htook
  | delete nameOrId isInUse =>
      simp only [RegistrySystem.findStep] at hmade
      split at hmade
      · cases hmade
        exact h.ended htook
      · split at hmade <;> cases hmade
        · rename_i current hfind
          refine h.setCall htook.symm trivial fun key hkey => .inr ?_
          rw [List.mem_singleton.mp hkey]
          exact List.mem_map_of_mem (mem_of_find hfind)
        · exact h.ended htook

theorem Sound.reverifyStep (h : system.Sound) {nameOrId : String} {refreshed : ModelRecord}
    (hcall : system.calls i = .verified nameOrId refreshed) :
    (system.reverifyStep i nameOrId refreshed).Sound := by
  have htook : (system.calls i).took = none := by rw [hcall]; rfl
  have hkey : refreshed.key ∈ system.issued := h.held i _ (by rw [hcall]; exact List.mem_cons_self)
  unfold RegistrySystem.reverifyStep
  split
  · exact h.ended htook
  · rename_i data hreplaced
    simp only [bind_eq_ok] at hreplaced
    obtain ⟨stored, hstored, hreplaced⟩ := hreplaced
    unfold replaceRecord at hreplaced
    split at hreplaced
    · rename_i models hmodels
      cases hreplaced
      have hstored : stored.models = system.models := models_of_readData hstored
      exact h.replace htook hkey rfl rfl rfl (hstored ▸ hmodels)
    · cases hreplaced

theorem Sound.removeStep (h : system.Sound) {nameOrId : String} {current : ModelRecord}
    {synced : Bool} (hcall : system.calls i = .quarantined nameOrId current) :
    (system.removeStep i nameOrId current synced).Sound := by
  have htook : (system.calls i).took = none := by rw [hcall]; rfl
  have hkey : current.key ∈ system.issued := h.held i _ (by rw [hcall]; exact List.mem_cons_self)
  unfold RegistrySystem.removeStep
  split
  · exact h.ended htook
  · rename_i data removed hremoved
    simp only [bind_eq_ok] at hremoved
    obtain ⟨stored, hstored, hremoved⟩ := hremoved
    have hmodels : stored.models = system.models := models_of_readData hstored
    unfold removeRecord at hremoved
    split at hremoved
    · rename_i found hfound
      cases hremoved
      have hid : removed.id = current.id := by simpa using List.find?_some hfound
      have hmem : removed ∈ system.models := hmodels ▸ List.mem_of_find?_eq_some hfound
      have hmodels' : stored.models.eraseP (fun model => model.id = current.id) =
          system.models.eraseP fun model => model.id = current.id := by rw [hmodels]
      cases synced with
      | true =>
          refine h.remove (.removing current removed) htook hmem hid rfl hid.symm ?_ rfl rfl rfl hmodels'
          intro key hheld
          rcases List.mem_cons.mp hheld with rfl | hheld
          · exact hkey
          · rw [List.mem_singleton.mp hheld]
            exact h.known removed hmem
      | false =>
          refine h.remove (.deleted removed) htook hmem hid rfl trivial ?_ rfl rfl rfl hmodels'
          intro key hheld
          rw [List.mem_singleton.mp hheld]
          exact h.known removed hmem
    · cases hremoved

theorem Sound.restoreStep (h : system.Sound) {record : ModelRecord}
    (hcall : system.calls i = .movedBack record record)
    (hapart : ∀ model ∈ system.models,
      model.name ≠ record.name ∧ Apart record.id record.name model) :
    (system.restoreStep i record record).Sound := by
  have htook : (system.calls i).took = some record := by rw [hcall]; rfl
  unfold RegistrySystem.restoreStep
  split
  · refine h.setCall htook.symm trivial fun key hkey => .inl ?_
    rw [hcall]
    exact List.mem_cons_of_mem _ hkey
  · rename_i data hdata
    have hmodels : data.models = system.models := models_of_readData hdata
    have habsent := h.taken i record htook
    refine h.restore htook ⟨habsent, fun model hmem => (hapart model hmem).1,
      fun model hmem => (hapart model hmem).2⟩ rfl rfl rfl ?_
    have hnone : ¬ ∃ model ∈ data.models, model.id = record.id := by
      rintro ⟨model, hmem, hid⟩
      exact habsent model (hmodels ▸ hmem) hid
    show (restoreRecord record data).models = _
    rw [restoreRecord, if_neg hnone, hmodels]

theorem Sound.step {past : List RegistryEvent} {event : RegistryEvent} (h : system.Sound)
    (ok : Undisturbed past system event) (made : step bundleSha256 event system = some next) :
    next.Sound := by
  cases event with
  | call i call =>
      simp only [RegistrySystem.step] at made
      split at made <;> cases made
      rename_i hcall
      exact h.setCall (by rw [hcall]; rfl) trivial fun _ hkey => nomatch hkey
  | register i id =>
      simp only [RegistrySystem.step] at made
      split at made
      · rename_i registration hcall
        split at made <;> cases made
        rename_i hfresh
        simp only [Undisturbed, hcall, AddsApart] at ok
        exact h.registerStep hcall hfresh ok
      · cases made
  | find i =>
      simp only [RegistrySystem.step] at made
      split at made
      · exact h.findStep ‹_› made
      · cases made
  | validated i reports =>
      simp only [RegistrySystem.step] at made
      split at made
      · rename_i nameOrId current hcall
        have htook : (system.calls i).took = none := by rw [hcall]; rfl
        split at made <;> cases made
        · rename_i refreshed hrefreshed
          refine h.setCall htook.symm trivial fun key hkey => .inl ?_
          rw [List.mem_singleton.mp hkey, key_of_refreshedRecord hrefreshed, hcall]
          exact List.mem_cons_self
        · exact h.ended htook
      · cases made
  | reverify i =>
      simp only [RegistrySystem.step] at made
      split at made <;> cases made
      exact h.reverifyStep ‹_›
  | quarantine i =>
      simp only [RegistrySystem.step] at made
      split at made <;> cases made
      rename_i hcall
      exact h.setCall (by rw [hcall]; rfl) trivial fun key hkey => .inl (by rw [hcall]; exact hkey)
  | remove i synced =>
      simp only [RegistrySystem.step] at made
      split at made <;> cases made
      exact h.removeStep ‹_›
  | unlinked i =>
      simp only [RegistrySystem.step] at made
      split at made <;> cases made
      rename_i hcall
      exact h.setCall (by rw [hcall]; rfl) trivial
        fun key hkey => .inl (by rw [hcall]; exact List.mem_cons_of_mem _ hkey)
  | moveBack i =>
      simp only [RegistrySystem.step] at made
      split at made <;> cases made
      rename_i hcall
      have hagrees := h.agrees i
      rw [hcall] at hagrees
      exact h.setCall (by rw [hcall]; rfl) hagrees fun key hkey => .inl (by rw [hcall]; exact hkey)
  | restore i =>
      simp only [RegistrySystem.step] at made
      split at made <;> cases made
      rename_i current removed hcall
      simp only [Undisturbed, hcall, RestoresApart] at ok
      obtain ⟨rfl, hapart⟩ := ok
      exact h.restoreStep hcall hapart
  | fail i =>
      cases made
      exact h.setCall (took_stopped _) (agrees_stopped _) fun key hkey => .inl (keys_stopped key hkey)

end Steps

theorem Sound.lookup {system : RegistrySystem} (h : system.Sound) {record : ModelRecord}
    (hmem : record ∈ system.models) :
    lookup system.models record.name = some record ∧
      lookup system.models record.id.text = some record := by
  have hfound : ∀ text, (record.name = text ∨ record.id.text = text) →
      (∀ model ∈ system.models, model.name = text ∨ model.id.text = text → model = record) →
      Engine.lookup system.models text = some record := by
    intro text hreads honly
    have hsome : (Engine.lookup system.models text).isSome = true :=
      List.find?_isSome.mpr ⟨record, hmem, by simpa using hreads⟩
    obtain ⟨found, hlookup⟩ := Option.isSome_iff_exists.mp hsome
    rw [hlookup, honly found (List.mem_of_find?_eq_some hlookup)
      (by simpa using List.find?_some hlookup)]
  constructor
  · refine hfound _ (.inl rfl) fun model hmodel hreads => ?_
    rcases hreads with hname | hid
    · exact List.inj_on_of_nodup_map h.names hmodel hmem hname
    · exact h.eq_of_id hmodel hmem (h.apart record hmem model hmodel hid.symm).symm
  · refine hfound _ (.inr rfl) fun model hmodel hreads => ?_
    rcases hreads with hname | hid
    · exact h.eq_of_id hmodel hmem (h.apart model hmodel record hmem hname)
    · exact h.eq_of_id hmodel hmem (Uuid.text_injective hid)

end RegistrySystem

open RegistrySystem

section Sample

def sampleReport (verifiedAtUnix : Int) : ValidationReport where
  path := ⟨["models", "tiny.gguf"]⟩
  format := .gguf
  sizeBytes := 64
  sha256 := "9f86d081884c7d659a2feaa0c55ad015a3bf4f1b2b0b822cd15d6c15b0f00a08"
  modifiedUnix := 1784282400
  compatibleEngines := ModelFormat.gguf.compatibleEngines
  verifiedAtUnix
  ggufSplit := none

def sampleSha256 : List ModelArtifactRecord → String := fun artifacts =>
  String.join (artifacts.map ModelArtifactRecord.sha256)

def sampleRegistration (i : Nat) (name : String) (id : Nat) : List RegistryEvent :=
  [.call i (.register (.single name (sampleReport 100))), .register i (.fromU128 id)]

/-- A deletion up to the removal of its files. -/
def sampleDeletion (i : Nat) : List RegistryEvent :=
  [.call i (.delete "tiny" false), .find i, .quarantine i, .remove i true]

def sampleReverification (i : Nat) : List RegistryEvent :=
  [.call i (.reverify "tiny"), .find i, .validated i [sampleReport 200], .reverify i]

/-- The files of a deletion cannot be removed, and it puts its record back. -/
def sampleUndisturbed : List RegistryEvent :=
  sampleRegistration 0 "tiny" 51 ++ sampleReverification 1 ++ sampleDeletion 2 ++
    sampleRegistration 3 "small" 52 ++ [.moveBack 2, .restore 2]

/-- The name is registered again before the record is put back. -/
def sampleTaken : List RegistryEvent :=
  sampleRegistration 0 "tiny" 51 ++ sampleDeletion 1 ++ sampleRegistration 2 "tiny" 52 ++
    [.moveBack 1, .restore 1]

/-- A model is named like the identifier of another. -/
def sampleLikeId : List RegistryEvent :=
  sampleRegistration 0 "tiny" 51 ++ sampleRegistration 1 (Uuid.fromU128 51).text 52

/-- The record is written again between the lookup of a deletion and its removal. -/
def sampleStale : List RegistryEvent :=
  sampleRegistration 0 "tiny" 51 ++ (sampleDeletion 1).take 2 ++ sampleReverification 2 ++
    (sampleDeletion 1).drop 2 ++ [.moveBack 1, .restore 1]

end Sample

end MindOne.Engine
