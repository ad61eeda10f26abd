import MindOne.Engine.Versions

/-!
# The order of versions

Both ways to compare versions are total preorders, each on its own versions. Together
they are one on a set of versions exactly if no version that is not semantic comes
between two semantic ones against their order.
-/

namespace MindOne.Engine

open AddressText MixedOrders MindOne.Regulated

/-! ### By numbers -/

section Numbers

instance transCmp_compareText : Std.TransCmp compareText :=
  inferInstanceAs (Std.TransCmp (List.compareLex compare))

instance lawfulEqCmp_compareText : Std.LawfulEqCmp compareText :=
  inferInstanceAs (Std.LawfulEqCmp (List.compareLex compare))

instance transCmp_compareRun : Std.TransCmp compareRun :=
  inferInstanceAs (Std.TransCmp (compareLex
    (compareOn fun run : List Char => (significant run).length) (compareOn significant)))

theorem compareRuns_eq (left right : List (List Char)) :
    compareRuns left right = List.compareLex compareRun left right := by
  induction left generalizing right with
  | nil =>
      cases right with
      | nil => rfl
      | cons run rest => exact Nat.compare_eq_lt.mpr (Nat.succ_pos _)
  | cons run rest ih =>
      cases right with
      | nil => exact Nat.compare_eq_gt.mpr (Nat.succ_pos _)
      | cons run' rest' => rw [compareRuns, List.compareLex_cons_cons, ih]

theorem preorderedOn_compareByNumbers (s : List Char → Prop) :
    PreorderedOn s compareByNumbers := by
  have hruns : compareRuns = List.compareLex compareRun :=
    funext fun left => funext fun right => compareRuns_eq left right
  have hlist : PreorderedOn (fun _ => True) (List.compareLex compareRun) := .of_transCmp
  have htext : PreorderedOn (fun _ => True) compareText := .of_transCmp
  rw [← hruns] at hlist
  exact (hlist.comap fun _ _ => trivial).lex (htext.comap fun _ _ => trivial)

end Numbers

/-! ### By semantic versions -/

section Semver

instance transCmp_compareIdentifier : Std.TransCmp compareIdentifier where
  eq_swap {a b} := by
    simp only [compareIdentifier]
    cases parseUnsigned (2 ^ 64) a with
    | none =>
        cases parseUnsigned (2 ^ 64) b with
        | none => exact Std.OrientedCmp.eq_swap
        | some n => rfl
    | some m =>
        cases parseUnsigned (2 ^ 64) b with
        | none => rfl
        | some n => exact Std.OrientedOrd.eq_swap
  isLE_trans {a b c} hab hbc := by
    simp only [compareIdentifier] at hab hbc ⊢
    cases ha : parseUnsigned (2 ^ 64) a with
    | none =>
        cases hb : parseUnsigned (2 ^ 64) b with
        | none =>
            cases hc : parseUnsigned (2 ^ 64) c with
            | none =>
                simp only [ha, hb, hc] at hab hbc
                exact Std.TransCmp.isLE_trans hab hbc
            | some n =>
                simp only [hb, hc] at hbc
                cases hbc
        | some m =>
            simp only [ha, hb] at hab
            cases hab
    | some l =>
        cases hc : parseUnsigned (2 ^ 64) c with
        | none => rfl
        | some n =>
            cases hb : parseUnsigned (2 ^ 64) b with
            | none =>
                simp only [hb, hc] at hbc
                cases hbc
            | some m =>
                simp only [ha, hb, hc] at hab hbc
                exact Std.TransCmp.isLE_trans hab hbc

theorem componentsOf_append {core : List Nat} {count more : Nat} (h : core.length ≤ count) :
    componentsOf (count + more) core = componentsOf count core ++ List.replicate more 0 := by
  rw [componentsOf, componentsOf, List.range_add, List.map_append]
  refine congrArg _ ?_
  rw [List.map_map]
  refine List.eq_replicate_iff.mpr ⟨?_, ?_⟩
  · rw [List.length_map, List.length_range]
  · intro number hnumber
    obtain ⟨index, -, rfl⟩ := List.mem_map.mp hnumber
    rw [Function.comp_apply, List.getD_eq_getElem?_getD, List.getElem?_eq_none (by omega),
      Option.getD_none]

theorem length_componentsOf (count : Nat) (core : List Nat) :
    (componentsOf count core).length = count := by
  rw [componentsOf, List.length_map, List.length_range]

/-- More zeros behind the numbers decide nothing. -/
theorem compareCore_eq {left right : List Nat} {count : Nat} (hleft : left.length ≤ count)
    (hright : right.length ≤ count) : compareCore left right =
      List.compareLex compare (componentsOf count left) (componentsOf count right) := by
  obtain ⟨more, rfl⟩ : ∃ more, count = max left.length right.length + more :=
    ⟨count - max left.length right.length, by omega⟩
  rw [componentsOf_append (Nat.le_max_left _ _), componentsOf_append (Nat.le_max_right _ _),
    compareLex_append (fun _ => Std.ReflCmp.compare_self)
      ((length_componentsOf _ _).trans (length_componentsOf _ _).symm)]
  rfl

theorem preorderedOn_compareCore (s : List Nat → Prop) : PreorderedOn s compareCore where
  refl a _ := by
    rw [compareCore_eq (Nat.le_refl _) (Nat.le_refl _)]
    exact Std.ReflCmp.compare_self
  swap a b _ _ := by
    rw [compareCore_eq (Nat.le_max_left b.length a.length) (Nat.le_max_right b.length a.length),
      compareCore_eq (Nat.le_max_right b.length a.length) (Nat.le_max_left b.length a.length)]
    exact Std.OrientedCmp.eq_swap
  trans a b c _ _ _ hab hbc := by
    obtain ⟨count, ha, hb, hc⟩ : ∃ count, a.length ≤ count ∧ b.length ≤ count ∧
        c.length ≤ count := ⟨a.length + b.length + c.length, by omega, by omega, by omega⟩
    rw [compareCore_eq ha hb] at hab
    rw [compareCore_eq hb hc] at hbc
    rw [compareCore_eq ha hc]
    exact Std.TransCmp.isLE_trans hab hbc

theorem preorderedOn_comparePrerelease (s : List Char → Prop) :
    PreorderedOn s comparePrerelease := by
  have hlist : PreorderedOn (fun _ => True) (List.compareLex compareIdentifier) := .of_transCmp
  exact hlist.comap fun _ _ => trivial

theorem preorderedOn_comparePrereleases (s : Option (List Char) → Prop) :
    PreorderedOn s comparePrereleases := by
  have hinner := preorderedOn_comparePrerelease fun _ => True
  constructor
  · intro a _
    cases a with
    | none => rfl
    | some a => exact hinner.refl a trivial
  · intro a b _ _
    cases a with
    | none =>
        cases b with
        | none => rfl
        | some b => rfl
    | some a =>
        cases b with
        | none => rfl
        | some b => exact hinner.swap a b trivial trivial
  · intro a b c _ _ _ hab hbc
    cases c with
    | none =>
        cases a with
        | none => rfl
        | some a => rfl
    | some c =>
        cases b with
        | none => cases hbc
        | some b =>
            cases a with
            | none => cases hab
            | some a => exact hinner.trans a b c trivial trivial trivial hab hbc

theorem preorderedOn_compareSemver (s : ParsedSemver → Prop) : PreorderedOn s compareSemver :=
  ((preorderedOn_compareCore fun _ => True).comap fun _ _ => trivial).lex
    ((preorderedOn_comparePrereleases fun _ => True).comap fun _ _ => trivial)

end Semver

/-! ### Mixed -/

section Mixed

def IsSemver (version : String) : Prop := (parseSemver version.toList).isSome = true

instance (version : String) : Decidable (IsSemver version) :=
  inferInstanceAs (Decidable (_ = true))

/-- The comparison of two versions that are both semantic. -/
def compareParsed (left right : String) : Ordering :=
  match parseSemver left.toList, parseSemver right.toList with
  | some left, some right => compareSemver left right
  | _, _ => .eq

def compareLoosely (left right : String) : Ordering :=
  compareByNumbers left.toList right.toList

theorem compareVersions_eq_mixed :
    compareVersions = mixed IsSemver compareParsed compareLoosely := by
  funext left right
  cases hleft : parseSemver left.toList with
  | none =>
      have hnot : ¬ IsSemver left := by rw [IsSemver, hleft]; decide
      rw [mixed_of_left hnot]
      simp only [compareVersions, compareLoosely, hleft]
  | some l =>
      cases hright : parseSemver right.toList with
      | none =>
          have hnot : ¬ IsSemver right := by rw [IsSemver, hright]; decide
          rw [mixed_of_right hnot]
          simp only [compareVersions, compareLoosely, hleft, hright]
      | some r =>
          have hl : IsSemver left := by rw [IsSemver, hleft]; rfl
          have hr : IsSemver right := by rw [IsSemver, hright]; rfl
          rw [mixed_of_kind hl hr]
          simp only [compareVersions, compareParsed, hleft, hright]

theorem preorderedOn_compareParsed (s : String → Prop) :
    PreorderedOn (fun version => s version ∧ IsSemver version) compareParsed := by
  have hinner := preorderedOn_compareSemver fun _ => True
  constructor
  · rintro a ⟨-, ha⟩
    obtain ⟨pa, ha⟩ := Option.isSome_iff_exists.mp ha
    simp only [compareParsed, ha]
    exact hinner.refl pa trivial
  · rintro a b ⟨-, ha⟩ ⟨-, hb⟩
    obtain ⟨pa, ha⟩ := Option.isSome_iff_exists.mp ha
    obtain ⟨pb, hb⟩ := Option.isSome_iff_exists.mp hb
    simp only [compareParsed, ha, hb]
    exact hinner.swap pa pb trivial trivial
  · rintro a b c ⟨-, ha⟩ ⟨-, hb⟩ ⟨-, hc⟩ hab hbc
    obtain ⟨pa, ha⟩ := Option.isSome_iff_exists.mp ha
    obtain ⟨pb, hb⟩ := Option.isSome_iff_exists.mp hb
    obtain ⟨pc, hc⟩ := Option.isSome_iff_exists.mp hc
    simp only [compareParsed, ha, hb, hc] at hab hbc ⊢
    exact hinner.trans pa pb pc trivial trivial trivial hab hbc

/-- No version that is not semantic comes between two semantic ones against their order. -/
abbrev Separated (versions : String → Prop) : Prop :=
  Unmixed IsSemver compareParsed compareLoosely versions

theorem preorderedOn_compareVersions_iff {versions : String → Prop} :
    PreorderedOn versions compareVersions ↔ Separated versions := by
  rw [compareVersions_eq_mixed]
  exact mixed_preorderedOn_iff (preorderedOn_compareParsed versions)
    ((preorderedOn_compareByNumbers fun _ => True).comap fun _ _ => trivial)

end Mixed

end MindOne.Engine
