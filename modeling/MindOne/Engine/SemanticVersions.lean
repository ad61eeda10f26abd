import MindOne.Engine.VersionOrder
import MindOne.Lib.PaddedDecimals

/-!
# The precedence of semantic versions

The precedence goes by the three numbers, then a version with a prerelease comes before
the one without, and then prereleases go identifier by identifier: numbers by their value
and before all others, the others as texts. The comparison reads identifiers as numbers
of 64 bits, so larger numbers are compared as texts.
-/

namespace MindOne.Engine

open AddressText MixedOrders PaddedDecimals

/-- Nothing but digits. -/
def IsNumeric (identifier : List Char) : Prop :=
  identifier ≠ [] ∧ ∀ c ∈ identifier, c.isDigit = true

instance (identifier : List Char) : Decidable (IsNumeric identifier) :=
  inferInstanceAs (Decidable (_ ∧ _))

/-- An identifier of a prerelease; numbers have no leading zeros. -/
structure IsIdentifier (identifier : List Char) : Prop where
  nonempty : identifier ≠ []
  plain : ∀ c ∈ identifier, c.isAlphanum = true ∨ c = '-'
  canonical : IsNumeric identifier → identifier.head? = some '0' → identifier = ['0']

def identifierValue (identifier : List Char) : Nat := Nat.ofDigitChars 10 identifier 0

def precedenceIdentifier (left right : List Char) : Ordering :=
  if IsNumeric left then
    if IsNumeric right then compare (identifierValue left) (identifierValue right) else .lt
  else if IsNumeric right then .gt else compareText left right

def precedencePrereleases : Option (List Char) → Option (List Char) → Ordering
  | none, none => .eq
  | none, some _ => .gt
  | some _, none => .lt
  | some left, some right =>
      List.compareLex precedenceIdentifier (left.splitOn '.') (right.splitOn '.')

def precedence (left right : ParsedSemver) : Ordering :=
  (compare left.core right.core).then
    (precedencePrereleases left.prerelease right.prerelease)

/-- A semantic version, as it is read. -/
structure Semantic (version : String) (parsed : ParsedSemver) : Prop where
  reads : parseSemver version.toList = some parsed
  core : parsed.core.length = 3
  identifiers : ∀ prerelease ∈ parsed.prerelease, ∀ identifier ∈ prerelease.splitOn '.',
    IsIdentifier identifier

/-- Semantic versions compare by their precedence. -/
def Agreeing (versions : String → Prop) : Prop :=
  ∀ left right, versions left → versions right → ∀ l r, Semantic left l → Semantic right r →
    compareVersions left right = precedence l r

/-- One of two identifiers is a number of 64 bits, or their texts have the right order. -/
def Settled (left right : List Char) : Prop :=
  (parseUnsigned (2 ^ 64) left).isSome = true ∨ (parseUnsigned (2 ^ 64) right).isSome = true ∨
    compareText left right = precedenceIdentifier left right

/-- The identifiers that decide between two prereleases are settled. -/
def Decided (versions : String → Prop) : Prop :=
  ∀ left right, versions left → versions right → ∀ l r, Semantic left l → Semantic right r →
    l.core = r.core → ∀ before ∈ l.prerelease, ∀ after ∈ r.prerelease, ∀ x y,
      firstDifference (before.splitOn '.') (after.splitOn '.') = some (x, y) → Settled x y

/-! ### Identifiers -/

section Identifiers
variable {left right : List Char} {n : Nat}

theorem parseUnsigned_identifier (h : IsIdentifier left) :
    parseUnsigned (2 ^ 64) left = some n ↔
      IsNumeric left ∧ identifierValue left = n ∧ n < 2 ^ 64 := by
  have hsign : left.head? ≠ some '+' := by
    intro hplus
    have hmem := List.mem_of_head? hplus
    rcases h.plain '+' hmem with halnum | hdash
    · exact absurd halnum (by decide)
    · exact absurd hdash (by decide)
  rw [parseUnsigned_eq_some hsign, ← and_assoc]
  rfl

/-- Numbers without leading zeros are told apart by their values. -/
theorem eq_of_identifierValue (hleft : IsIdentifier left) (hright : IsIdentifier right)
    (hl : IsNumeric left) (hr : IsNumeric right)
    (h : identifierValue left = identifierValue right) : left = right := by
  have hcanonical : ∀ {identifier : List Char}, IsIdentifier identifier →
      IsNumeric identifier → identifier = Nat.toDigits 10 (identifierValue identifier) := by
    intro identifier hid hnumeric
    have hpadded := zeroPadded_ofDigitChars hnumeric.1 hnumeric.2
    rw [zeroPadded] at hpadded
    cases hzeros : identifier.length -
        (Nat.toDigits 10 (Nat.ofDigitChars 10 identifier 0)).length with
    | zero =>
        rw [hzeros, List.replicate_zero, List.nil_append] at hpadded
        exact hpadded.symm
    | succ zeros =>
        rw [hzeros, List.replicate_succ, List.cons_append] at hpadded
        have hzero : identifier = ['0'] := hid.canonical hnumeric (by rw [← hpadded]; rfl)
        rw [hzero]
        rfl
  rw [hcanonical hleft hl, hcanonical hright hr, h]

theorem precedenceIdentifier_self (identifier : List Char) :
    precedenceIdentifier identifier identifier = .eq := by
  rw [precedenceIdentifier]
  split_ifs
  · exact Std.ReflOrd.compare_self
  · exact Std.ReflCmp.compare_self

theorem eq_of_precedenceIdentifier (hleft : IsIdentifier left) (hright : IsIdentifier right)
    (h : precedenceIdentifier left right = .eq) : left = right := by
  rw [precedenceIdentifier] at h
  split_ifs at h with hl hr hr
  · exact eq_of_identifierValue hleft hright hl hr (Nat.compare_eq_eq.mp h)
  · exact Std.LawfulEqCmp.eq_of_compare h

theorem eq_of_compareIdentifier (hleft : IsIdentifier left) (hright : IsIdentifier right)
    (h : compareIdentifier left right = .eq) : left = right := by
  rw [compareIdentifier] at h
  cases hl : parseUnsigned (2 ^ 64) left with
  | none =>
      cases hr : parseUnsigned (2 ^ 64) right with
      | none =>
          simp only [hl, hr] at h
          exact Std.LawfulEqCmp.eq_of_compare h
      | some n =>
          simp only [hl, hr] at h
          cases h
  | some m =>
      cases hr : parseUnsigned (2 ^ 64) right with
      | none =>
          simp only [hl, hr] at h
          cases h
      | some n =>
          simp only [hl, hr] at h
          obtain ⟨hnumeric, hm, -⟩ := (parseUnsigned_identifier hleft).mp hl
          obtain ⟨hnumeric', hn, -⟩ := (parseUnsigned_identifier hright).mp hr
          exact eq_of_identifierValue hleft hright hnumeric hnumeric'
            ((hm.trans (Nat.compare_eq_eq.mp h)).trans hn.symm)

/-- Identifiers compare by their precedence exactly if they are settled. -/
theorem compareIdentifier_eq_iff (hleft : IsIdentifier left) (hright : IsIdentifier right) :
    compareIdentifier left right = precedenceIdentifier left right ↔ Settled left right := by
  cases hl : parseUnsigned (2 ^ 64) left with
  | some m =>
      obtain ⟨hnumeric, hm, hsmall⟩ := (parseUnsigned_identifier hleft).mp hl
      refine iff_of_true ?_ (.inl (by rw [hl]; rfl))
      rw [precedenceIdentifier, if_pos hnumeric, compareIdentifier]
      cases hr : parseUnsigned (2 ^ 64) right with
      | some n =>
          obtain ⟨hnumeric', hn, -⟩ := (parseUnsigned_identifier hright).mp hr
          simp only [hl, if_pos hnumeric', hm, hn]
      | none =>
          simp only [hl]
          split_ifs with hnumeric'
          · have hlarge : ¬ identifierValue right < 2 ^ 64 := fun hlt => by
              rw [(parseUnsigned_identifier hright).mpr ⟨hnumeric', rfl, hlt⟩] at hr
              cases hr
            exact (Nat.compare_eq_lt.mpr (by omega)).symm
          · rfl
  | none =>
      cases hr : parseUnsigned (2 ^ 64) right with
      | some n =>
          obtain ⟨hnumeric', hn, hsmall⟩ := (parseUnsigned_identifier hright).mp hr
          refine iff_of_true ?_ (.inr (.inl (by rw [hr]; rfl)))
          rw [precedenceIdentifier, if_pos hnumeric', if_pos hnumeric', compareIdentifier]
          simp only [hl, hr]
          split_ifs with hnumeric
          · have hlarge : ¬ identifierValue left < 2 ^ 64 := fun hlt => by
              rw [(parseUnsigned_identifier hleft).mpr ⟨hnumeric, rfl, hlt⟩] at hl
              cases hl
            exact (Nat.compare_eq_gt.mpr (by omega)).symm
          · rfl
      | none =>
          simp only [compareIdentifier, Settled, hl, hr, Option.isSome_none, Bool.false_eq_true,
            false_or]

end Identifiers

/-! ### Versions -/

section Versions
variable {left right : String} {l r : ParsedSemver}

theorem componentsOf_self (core : List Nat) : componentsOf core.length core = core := by
  refine List.ext_getElem ((length_componentsOf _ _)) fun index hindex hindex' => ?_
  simp only [componentsOf, List.getElem_map, List.getElem_range]
  rw [List.getD_eq_getElem?_getD, List.getElem?_eq_getElem hindex', Option.getD_some]

theorem compareCore_of_length {cores cores' : List Nat} (h : cores.length = cores'.length) :
    compareCore cores cores' = compare cores cores' := by
  rw [compareCore_eq (Nat.le_refl cores.length) (Nat.le_of_eq h.symm), componentsOf_self, h,
    componentsOf_self]
  rfl

theorem comparePrerelease_eq_iff {before after : List Char}
    (hbefore : ∀ identifier ∈ before.splitOn '.', IsIdentifier identifier)
    (hafter : ∀ identifier ∈ after.splitOn '.', IsIdentifier identifier) :
    comparePrereleases (some before) (some after) =
        precedencePrereleases (some before) (some after) ↔
      ∀ x y, firstDifference (before.splitOn '.') (after.splitOn '.') = some (x, y) →
        Settled x y := by
  simp only [comparePrereleases, comparePrerelease, precedencePrereleases]
  cases hdifference : firstDifference (before.splitOn '.') (after.splitOn '.') with
  | none =>
      refine iff_of_true ?_ (fun x y h => by cases h)
      rw [compareLex_of_none (fun _ => Std.ReflCmp.compare_self) hdifference,
        compareLex_of_none precedenceIdentifier_self hdifference]
  | some pair =>
      obtain ⟨x, y⟩ := pair
      obtain ⟨hne, hx, hy⟩ := ne_of_firstDifference hdifference
      have hcompare : compareIdentifier x y ≠ .eq := fun heq =>
        hne (eq_of_compareIdentifier (hbefore x hx) (hafter y hy) heq)
      have hprecede : precedenceIdentifier x y ≠ .eq := fun heq =>
        hne (eq_of_precedenceIdentifier (hbefore x hx) (hafter y hy) heq)
      rw [compareLex_of_some (fun _ => Std.ReflCmp.compare_self) hdifference hcompare,
        compareLex_of_some precedenceIdentifier_self hdifference hprecede,
        compareIdentifier_eq_iff (hbefore x hx) (hafter y hy)]
      constructor
      · rintro hsettled _ _ ⟨⟩
        exact hsettled
      · intro h
        exact h x y rfl

theorem compareVersions_semantic (hl : Semantic left l) (hr : Semantic right r) :
    compareVersions left right = precedence l r ↔
      (l.core = r.core → ∀ before ∈ l.prerelease, ∀ after ∈ r.prerelease, ∀ x y,
        firstDifference (before.splitOn '.') (after.splitOn '.') = some (x, y) →
          Settled x y) := by
  have hcompare : compareVersions left right = (compare l.core r.core).then
      (comparePrereleases l.prerelease r.prerelease) := by
    simp only [compareVersions, hl.reads, hr.reads, compareSemver,
      compareCore_of_length (hl.core.trans hr.core.symm)]
  rw [hcompare, precedence]
  by_cases hcore : l.core = r.core
  · rw [hcore, Std.ReflOrd.compare_self, Ordering.eq_then, Ordering.eq_then]
    simp only [forall_const]
    cases hbefore : l.prerelease with
    | none =>
        refine iff_of_true ?_ (fun before h => by cases h)
        cases r.prerelease with
        | none => rfl
        | some after => rfl
    | some before =>
        cases hafter : r.prerelease with
        | none => exact iff_of_true rfl (fun _ _ after h => by cases h)
        | some after =>
            rw [comparePrerelease_eq_iff (hl.identifiers before hbefore)
              (hr.identifiers after hafter)]
            constructor
            · rintro h _ ⟨⟩ _ ⟨⟩
              exact h
            · intro h
              exact h before rfl after rfl
  · refine iff_of_true ?_ (fun hsame => absurd hsame hcore)
    have hne : compare l.core r.core ≠ .eq := fun heq =>
      hcore (Std.LawfulEqOrd.eq_of_compare heq)
    cases hcmp : compare l.core r.core with
    | lt => rfl
    | gt => rfl
    | eq => exact absurd hcmp hne

theorem agreeing_iff {versions : String → Prop} : Agreeing versions ↔ Decided versions := by
  constructor
  · intro h left right hleft hright l r hl hr
    exact (compareVersions_semantic hl hr).mp (h left right hleft hright l r hl hr)
  · intro h left right hleft hright l r hl hr
    exact (compareVersions_semantic hl hr).mpr (h left right hleft hright l r hl hr)

end Versions

end MindOne.Engine
