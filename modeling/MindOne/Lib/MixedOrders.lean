import Mathlib.Data.List.Perm.Basic

/-!
# Comparisons, mixed comparisons and maxima

A comparison is a total preorder on a set if it is reflexive, turns around with its
arguments, and is transitive. Two such comparisons may be mixed, one for the elements of
a kind among themselves and the other wherever another element takes part. The mixture is
a total preorder exactly if no element of the other kind comes between two of the kind
against their own order. The last of the greatest elements of a list does not depend on
the order of the list if only equal elements compare as equal.
-/

universe u

namespace MixedOrders

variable {α : Type u}

/-- A comparison that is a total preorder on a set. -/
structure PreorderedOn (s : α → Prop) (cmp : α → α → Ordering) : Prop where
  refl : ∀ a, s a → cmp a a = .eq
  swap : ∀ a b, s a → s b → cmp b a = (cmp a b).swap
  trans : ∀ a b c, s a → s b → s c → (cmp a b).isLE → (cmp b c).isLE → (cmp a c).isLE

namespace PreorderedOn

variable {s t : α → Prop} {cmp : α → α → Ordering}

theorem of_transCmp [Std.TransCmp cmp] : PreorderedOn s cmp where
  refl _ _ := Std.ReflCmp.compare_self
  swap _ _ _ _ := Std.OrientedCmp.eq_swap
  trans _ _ _ _ _ _ := Std.TransCmp.isLE_trans

theorem mono (h : PreorderedOn s cmp) (hsub : ∀ a, t a → s a) : PreorderedOn t cmp where
  refl a ha := h.refl a (hsub a ha)
  swap a b ha hb := h.swap a b (hsub a ha) (hsub b hb)
  trans a b c ha hb hc := h.trans a b c (hsub a ha) (hsub b hb) (hsub c hc)

/-- Two elements that are not greater than each other compare as equal. -/
theorem eq_of_isLE (h : PreorderedOn s cmp) {a b : α} (ha : s a) (hb : s b)
    (hab : (cmp a b).isLE) (hba : (cmp b a).isLE) : cmp a b = .eq := by
  rw [h.swap a b ha hb] at hba
  cases hcmp : cmp a b with
  | eq => rfl
  | lt =>
      rw [hcmp] at hba
      cases hba
  | gt =>
      rw [hcmp] at hab
      cases hab

theorem isLE_total (h : PreorderedOn s cmp) {a b : α} (ha : s a) (hb : s b) :
    (cmp a b).isLE ∨ (cmp b a).isLE := by
  rw [h.swap a b ha hb]
  cases cmp a b with
  | lt => exact .inl rfl
  | eq => exact .inl rfl
  | gt => exact .inr rfl

theorem lt_of_not_isLE (h : PreorderedOn s cmp) {a b : α} (ha : s a) (hb : s b)
    (hnot : ¬ (cmp a b).isLE) : cmp b a = .lt := by
  rw [h.swap a b ha hb]
  cases hcmp : cmp a b with
  | lt => exact absurd (hcmp ▸ rfl) hnot
  | eq => exact absurd (hcmp ▸ rfl) hnot
  | gt => rfl

/-- A comparison of what a function gives. -/
theorem comap {β : Type u} {f : β → α} {s : β → Prop} {t : α → Prop} (h : PreorderedOn t cmp)
    (hf : ∀ a, s a → t (f a)) : PreorderedOn s (fun a b => cmp (f a) (f b)) where
  refl a ha := h.refl (f a) (hf a ha)
  swap a b ha hb := h.swap (f a) (f b) (hf a ha) (hf b hb)
  trans a b c ha hb hc := h.trans (f a) (f b) (f c) (hf a ha) (hf b hb) (hf c hc)

/-- A second comparison decides between what the first one takes as equal. -/
theorem lex {cmp' : α → α → Ordering} (h : PreorderedOn s cmp) (h' : PreorderedOn s cmp') :
    PreorderedOn s (fun a b => (cmp a b).then (cmp' a b)) where
  refl a ha := by
    rw [h.refl a ha, h'.refl a ha]
    rfl
  swap a b ha hb := by rw [h.swap a b ha hb, h'.swap a b ha hb, Ordering.swap_then]
  trans a b c ha hb hc hab hbc := by
    rw [Ordering.isLE_then_iff_and] at hab hbc ⊢
    refine ⟨h.trans a b c ha hb hc hab.1 hbc.1, ?_⟩
    by_cases hlt : cmp a c = .lt
    · exact .inl hlt
    have hca : (cmp c a).isLE := by
      rw [h.swap a c ha hc]
      cases hcmp : cmp a c with
      | lt => exact absurd hcmp hlt
      | eq => rfl
      | gt => rfl
    have hba : (cmp b a).isLE := h.trans b c a hb hc ha hbc.1 hca
    have hcb : (cmp c b).isLE := h.trans c a b hc ha hb hca hab.1
    have heq := h.eq_of_isLE ha hb hab.1 hba
    have heq' := h.eq_of_isLE hb hc hbc.1 hcb
    refine .inr (h'.trans a b c ha hb hc ?_ ?_)
    · exact hab.2.resolve_left (by rw [heq]; decide)
    · exact hbc.2.resolve_left (by rw [heq']; decide)

end PreorderedOn

/-! ### Mixtures -/

section Mixtures
variable (p : α → Prop) [DecidablePred p] (fine coarse : α → α → Ordering)

/-- Elements of the kind compare among themselves in a way of their own. -/
def mixed (a b : α) : Ordering := if p a ∧ p b then fine a b else coarse a b

/-- No other element comes between two elements of the kind against their order. -/
def Unmixed (s : α → Prop) : Prop :=
  ∀ a b c, s a → s b → s c → p a → p b → ¬ p c → (coarse a c).isLE → (coarse c b).isLE →
    (fine a b).isLE ∧ (fine a b = .eq → coarse a c = .eq ∧ coarse c b = .eq)

variable {p fine coarse} {s : α → Prop}

theorem mixed_of_kind {a b : α} (ha : p a) (hb : p b) : mixed p fine coarse a b = fine a b :=
  if_pos ⟨ha, hb⟩

theorem mixed_of_left {a b : α} (ha : ¬ p a) : mixed p fine coarse a b = coarse a b :=
  if_neg fun h => ha h.1

theorem mixed_of_right {a b : α} (hb : ¬ p b) : mixed p fine coarse a b = coarse a b :=
  if_neg fun h => hb h.2

theorem unmixed_of_preorderedOn (h : PreorderedOn s (mixed p fine coarse)) :
    Unmixed p fine coarse s := by
  intro a b c ha hb hc pa pb pc hac hcb
  have hleft : mixed p fine coarse a c = coarse a c := mixed_of_right pc
  have hright : mixed p fine coarse c b = coarse c b := mixed_of_left pc
  have hkind : mixed p fine coarse a b = fine a b := mixed_of_kind pa pb
  rw [← hleft] at hac
  rw [← hright] at hcb
  have hab := h.trans a c b ha hc hb hac hcb
  rw [← hkind]
  refine ⟨hab, fun heq => ?_⟩
  have hba : (mixed p fine coarse b a).isLE := by
    rw [h.swap a b ha hb, heq]
    rfl
  rw [← hleft, ← hright]
  exact ⟨h.eq_of_isLE ha hc hac (h.trans c b a hc hb ha hcb hba),
    h.eq_of_isLE hc hb hcb (h.trans b a c hb ha hc hba hac)⟩

theorem preorderedOn_of_unmixed (hfine : PreorderedOn (fun a => s a ∧ p a) fine)
    (hcoarse : PreorderedOn s coarse) (h : Unmixed p fine coarse s) :
    PreorderedOn s (mixed p fine coarse) where
  refl a ha := by
    by_cases pa : p a
    · rw [mixed_of_kind pa pa, hfine.refl a ⟨ha, pa⟩]
    · rw [mixed_of_left pa, hcoarse.refl a ha]
  swap a b ha hb := by
    by_cases pa : p a
    · by_cases pb : p b
      · rw [mixed_of_kind pb pa, mixed_of_kind pa pb, hfine.swap a b ⟨ha, pa⟩ ⟨hb, pb⟩]
      · rw [mixed_of_left pb, mixed_of_right pb, hcoarse.swap a b ha hb]
    · rw [mixed_of_right pa, mixed_of_left pa, hcoarse.swap a b ha hb]
  trans a b c ha hb hc hab hbc := by
    by_cases pa : p a
    · by_cases pb : p b
      · by_cases pc : p c
        · rw [mixed_of_kind pa pb] at hab
          rw [mixed_of_kind pb pc] at hbc
          rw [mixed_of_kind pa pc]
          exact hfine.trans a b c ⟨ha, pa⟩ ⟨hb, pb⟩ ⟨hc, pc⟩ hab hbc
        -- The last one is of the other kind: it cannot lie below the first one.
        · rw [mixed_of_kind pa pb] at hab
          rw [mixed_of_right pc] at hbc ⊢
          by_contra hnot
          have hlt := hcoarse.lt_of_not_isLE ha hc hnot
          obtain ⟨hba, heq⟩ := h b a c hb ha hc pb pa pc hbc (by rw [hlt]; rfl)
          have hsame := heq (hfine.eq_of_isLE ⟨hb, pb⟩ ⟨ha, pa⟩ hba hab)
          rw [hlt] at hsame
          cases hsame.2
      · rw [mixed_of_right pb] at hab
        rw [mixed_of_left pb] at hbc
        by_cases pc : p c
        · rw [mixed_of_kind pa pc]
          exact (h a c b ha hc hb pa pc pb hab hbc).1
        · rw [mixed_of_right pc]
          exact hcoarse.trans a b c ha hb hc hab hbc
    · rw [mixed_of_left pa] at hab ⊢
      by_cases pb : p b
      · by_cases pc : p c
        · rw [mixed_of_kind pb pc] at hbc
          by_contra hnot
          have hlt := hcoarse.lt_of_not_isLE ha hc hnot
          obtain ⟨hcb, heq⟩ := h c b a hc hb ha pc pb pa (by rw [hlt]; rfl) hab
          have hsame := heq (hfine.eq_of_isLE ⟨hc, pc⟩ ⟨hb, pb⟩ hcb hbc)
          rw [hlt] at hsame
          cases hsame.1
        · rw [mixed_of_right pc] at hbc
          exact hcoarse.trans a b c ha hb hc hab hbc
      · rw [mixed_of_left pb] at hbc
        exact hcoarse.trans a b c ha hb hc hab hbc

/-- Exactly when a mixture is a total preorder. -/
theorem mixed_preorderedOn_iff (hfine : PreorderedOn (fun a => s a ∧ p a) fine)
    (hcoarse : PreorderedOn s coarse) :
    PreorderedOn s (mixed p fine coarse) ↔ Unmixed p fine coarse s :=
  ⟨unmixed_of_preorderedOn, preorderedOn_of_unmixed hfine hcoarse⟩

end Mixtures

/-! ### Maxima -/

section Maxima
variable (cmp : α → α → Ordering)

/-- The last of the greatest elements, as `Iterator::max_by` finds it. -/
def maxBy : List α → Option α
  | [] => none
  | first :: rest =>
      some (rest.foldl (fun best next => if cmp best next = .gt then best else next) first)

variable {cmp} {s : α → Prop}

theorem greatest_foldl (h : PreorderedOn s cmp) {first : α} {rest : List α} (hfirst : s first)
    (hrest : ∀ a ∈ rest, s a) {best : α}
    (hbest : best = rest.foldl (fun best next => if cmp best next = .gt then best else next) first) :
    best ∈ first :: rest ∧ ∀ a ∈ first :: rest, (cmp a best).isLE := by
  induction rest generalizing first with
  | nil =>
      rw [List.foldl_nil] at hbest
      subst hbest
      refine ⟨List.mem_cons_self, fun a ha => ?_⟩
      rw [List.mem_singleton.mp ha, h.refl _ hfirst]
      rfl
  | cons next rest ih =>
      have hnext := hrest next List.mem_cons_self
      have hlater : ∀ a ∈ rest, s a := fun a ha => hrest a (List.mem_cons_of_mem _ ha)
      rw [List.foldl_cons] at hbest
      by_cases hgt : cmp first next = .gt
      · rw [if_pos hgt] at hbest
        obtain ⟨hmem, hle⟩ := ih hfirst hlater hbest
        have hsbest : s best := by
          rcases List.mem_cons.mp hmem with rfl | hmem
          · exact hfirst
          · exact hlater best hmem
        refine ⟨?_, ?_⟩
        · rcases List.mem_cons.mp hmem with rfl | hmem
          · exact List.mem_cons_self
          · exact List.mem_cons_of_mem _ (List.mem_cons_of_mem _ hmem)
        · intro a ha
          rcases List.mem_cons.mp ha with rfl | ha
          · exact hle a List.mem_cons_self
          rcases List.mem_cons.mp ha with rfl | ha
          · refine h.trans a first best hnext hfirst hsbest ?_ (hle first List.mem_cons_self)
            rw [h.swap first a hfirst hnext, hgt]
            rfl
          · exact hle a (List.mem_cons_of_mem _ ha)
      · rw [if_neg hgt] at hbest
        obtain ⟨hmem, hle⟩ := ih hnext hlater hbest
        have hsbest : s best := by
          rcases List.mem_cons.mp hmem with rfl | hmem
          · exact hnext
          · exact hlater best hmem
        refine ⟨List.mem_cons_of_mem _ hmem, ?_⟩
        intro a ha
        rcases List.mem_cons.mp ha with rfl | ha
        · refine h.trans a next best hfirst hnext hsbest ?_ (hle next List.mem_cons_self)
          cases hcmp : cmp a next with
          | lt => rfl
          | eq => rfl
          | gt => exact absurd hcmp hgt
        · exact hle a ha

theorem maxBy_spec (h : PreorderedOn s cmp) {l : List α} (hl : ∀ a ∈ l, s a) {best : α}
    (hbest : maxBy cmp l = some best) : best ∈ l ∧ ∀ a ∈ l, (cmp a best).isLE := by
  cases l with
  | nil => cases hbest
  | cons first rest =>
      exact greatest_foldl h (hl first List.mem_cons_self)
        (fun a ha => hl a (List.mem_cons_of_mem _ ha)) (Option.some.inj hbest).symm

theorem maxBy_eq_none {l : List α} : maxBy cmp l = none ↔ l = [] := by
  cases l with
  | nil => exact iff_of_true rfl rfl
  | cons first rest => exact iff_of_false (fun h => by cases h) (List.cons_ne_nil _ _)

/-- Nothing but a greatest element is the maximum. -/
theorem maxBy_eq_some (h : PreorderedOn s cmp) {l : List α} (hl : ∀ a ∈ l, s a)
    (hsame : ∀ a ∈ l, ∀ b ∈ l, cmp a b = .eq → a = b) {best : α} (hmem : best ∈ l)
    (hle : ∀ a ∈ l, (cmp a best).isLE) : maxBy cmp l = some best := by
  cases hfound : maxBy cmp l with
  | none =>
      rw [maxBy_eq_none.mp hfound] at hmem
      exact absurd hmem List.not_mem_nil
  | some found =>
      obtain ⟨hmem', hle'⟩ := maxBy_spec h hl hfound
      rw [hsame found hmem' best hmem (h.eq_of_isLE (hl _ hmem') (hl _ hmem) (hle _ hmem')
        (hle' _ hmem))]

/-- The maximum is the same in every order of the list. -/
theorem maxBy_perm (h : PreorderedOn s cmp) {l l' : List α} (hl : ∀ a ∈ l, s a)
    (hsame : ∀ a ∈ l, ∀ b ∈ l, cmp a b = .eq → a = b) (hperm : l'.Perm l) :
    maxBy cmp l' = maxBy cmp l := by
  cases hbest : maxBy cmp l with
  | none =>
      rw [maxBy_eq_none] at hbest ⊢
      subst hbest
      exact hperm.eq_nil
  | some best =>
      obtain ⟨hmem, hle⟩ := maxBy_spec h hl hbest
      refine maxBy_eq_some h (fun a ha => hl a (hperm.mem_iff.mp ha)) ?_ (hperm.mem_iff.mpr hmem)
        (fun a ha => hle a (hperm.mem_iff.mp ha))
      intro a ha b hb
      exact hsame a (hperm.mem_iff.mp ha) b (hperm.mem_iff.mp hb)

end Maxima

/-! ### Lexicographic comparisons -/

section Lexicographic
variable [DecidableEq α] {cmp : α → α → Ordering}

/-- The first elements in which two lists differ. -/
def firstDifference : List α → List α → Option (α × α)
  | a :: as, b :: bs => if a = b then firstDifference as bs else some (a, b)
  | _, _ => none

theorem ne_of_firstDifference {left right : List α} {a b : α}
    (h : firstDifference left right = some (a, b)) : a ≠ b ∧ a ∈ left ∧ b ∈ right := by
  induction left generalizing right with
  | nil => cases h
  | cons first as ih =>
      cases right with
      | nil => cases h
      | cons second bs =>
          simp only [firstDifference] at h
          split_ifs at h with hsame
          · obtain ⟨hne, ha, hb⟩ := ih h
            exact ⟨hne, List.mem_cons_of_mem _ ha, List.mem_cons_of_mem _ hb⟩
          · cases h
            exact ⟨hsame, List.mem_cons_self, List.mem_cons_self⟩

theorem compareLex_of_none (hrefl : ∀ a, cmp a a = .eq) {left right : List α}
    (h : firstDifference left right = none) :
    List.compareLex cmp left right = compare left.length right.length := by
  induction left generalizing right with
  | nil =>
      cases right with
      | nil => rfl
      | cons b bs => exact (Nat.compare_eq_lt.mpr (Nat.succ_pos _)).symm
  | cons a as ih =>
      cases right with
      | nil => exact (Nat.compare_eq_gt.mpr (Nat.succ_pos _)).symm
      | cons b bs =>
          simp only [firstDifference] at h
          split_ifs at h with hsame
          rw [List.compareLex_cons_cons, hsame, hrefl, Ordering.eq_then, ih h, List.length_cons,
            List.length_cons]
          simp only [Nat.compare_eq_ite_lt, Nat.succ_lt_succ_iff]

theorem compareLex_of_some (hrefl : ∀ a, cmp a a = .eq) {left right : List α} {a b : α}
    (h : firstDifference left right = some (a, b)) (hne : cmp a b ≠ .eq) :
    List.compareLex cmp left right = cmp a b := by
  induction left generalizing right with
  | nil => cases h
  | cons first as ih =>
      cases right with
      | nil => cases h
      | cons second bs =>
          simp only [firstDifference] at h
          split_ifs at h with hsame
          · rw [List.compareLex_cons_cons, hsame, hrefl, Ordering.eq_then, ih h]
          · cases h
            rw [List.compareLex_cons_cons]
            cases hcmp : cmp a b with
            | lt => rfl
            | gt => rfl
            | eq => exact absurd hcmp hne

omit [DecidableEq α] in
/-- What lists have in common at their ends decides nothing. -/
theorem compareLex_append (hrefl : ∀ a, cmp a a = .eq) {left right rest : List α}
    (hlength : left.length = right.length) :
    List.compareLex cmp (left ++ rest) (right ++ rest) = List.compareLex cmp left right := by
  have hself : List.compareLex cmp rest rest = .eq := by
    induction rest with
    | nil => rfl
    | cons a rest ih => rw [List.compareLex_cons_cons, hrefl, Ordering.eq_then, ih]
  induction left generalizing right with
  | nil =>
      obtain rfl : right = [] := List.length_eq_zero_iff.mp hlength.symm
      exact hself
  | cons a as ih =>
      cases right with
      | nil => cases hlength
      | cons b bs =>
          rw [List.cons_append, List.cons_append, List.compareLex_cons_cons,
            List.compareLex_cons_cons, ih (Nat.succ.inj hlength)]

end Lexicographic

end MixedOrders
