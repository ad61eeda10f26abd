import MindOne.Lib.CheckedArithmetic

/-!
# Scanning a list whose elements state their places

The elements of a list state a label that they share and their own place, and each
has a key by which it could be told to come twice. A scan from the left compares
every element with the label found first and with the keys seen before. It ends
well exactly when there is one label under which every element stands at its place;
as the places differ, no key is ever seen again.
-/

namespace PlacedScan

open CheckedArithmetic

/-- A scan with its step, the state it keeps and what one element has to satisfy. -/
structure Scanner (ε σ α label κ : Type) where
  check : σ → α × Nat → Except ε σ
  found : σ → Option label
  seen : σ → List κ
  make : Option label → List κ → σ
  key : α → Option κ
  At : label → Nat → α → Prop
  found_make : ∀ l keys, found (make l keys) = l
  seen_make : ∀ l keys, seen (make l keys) = keys
  /-- One step accepts exactly the elements at their place that fit to those before. -/
  check_eq_ok : ∀ {state after x place}, check state (x, place) = .ok after ↔
    ∃ l k, At l place x ∧ (∀ other ∈ found state, other = l) ∧ key x = some k ∧ k ∉ seen state ∧
      after = make (some l) (k :: seen state)
  has_key : ∀ {l place x}, At l place x → ∃ k, key x = some k
  place_of_key : ∀ {l l' place place' x y}, At l place x → At l' place' y → key x = key y →
    place = place'

namespace Scanner
variable {ε σ α label κ : Type} (scanner : Scanner ε σ α label κ) {state after : σ} {l : label}
  {place : Nat} {xs : List α}

/-- Every element that was accepted stands at its place under the label that is left. -/
theorem all_of_scan (h : (xs.zipIdx place).foldlM scanner.check state = .ok after)
    (hfound : ∀ other ∈ scanner.found after, other = l) :
    (∀ other ∈ scanner.found state, other = l) ∧
      ∀ (offset : Nat) x, xs[offset]? = some x → scanner.At l (place + offset) x := by
  induction xs generalizing place state with
  | nil =>
      cases h
      refine ⟨hfound, ?_⟩
      intro offset x hx
      cases hx
  | cons first rest ih =>
      simp only [List.zipIdx_cons, List.foldlM_cons, bind_eq_ok] at h
      obtain ⟨middle, hstep, hrest⟩ := h
      obtain ⟨own, k, hat, hsame, -, -, rfl⟩ := scanner.check_eq_ok.mp hstep
      obtain ⟨hmiddle, hall⟩ := ih hrest
      obtain rfl : own = l := hmiddle own (scanner.found_make _ _)
      refine ⟨hsame, ?_⟩
      intro offset x hx
      cases offset with
      | zero =>
          cases hx
          exact hat
      | succ offset =>
          have hnext := hall offset x hx
          rwa [Nat.add_right_comm] at hnext

/-- The keys seen so far belong to elements of earlier places. -/
def Earlier (place : Nat) (state : σ) : Prop :=
  ∀ k ∈ scanner.seen state, ∃ l before x, before < place ∧ scanner.At l before x ∧
    scanner.key x = some k

/-- Elements at their places are all accepted. -/
theorem scan_of_all (hearlier : scanner.Earlier place state)
    (hsame : ∀ other ∈ scanner.found state, other = l)
    (h : ∀ (offset : Nat) x, xs[offset]? = some x → scanner.At l (place + offset) x) :
    ∃ after, (xs.zipIdx place).foldlM scanner.check state = .ok after := by
  induction xs generalizing place state with
  | nil => exact ⟨state, rfl⟩
  | cons first rest ih =>
      have hat : scanner.At l place first := h 0 first rfl
      obtain ⟨k, hkey⟩ := scanner.has_key hat
      have hnew : k ∉ scanner.seen state := by
        intro hmem
        obtain ⟨other, before, x, hlt, hx, hsamekey⟩ := hearlier k hmem
        have hplace := scanner.place_of_key hx hat (hsamekey.trans hkey.symm)
        exact absurd hplace (Nat.ne_of_lt hlt)
      have hstep := scanner.check_eq_ok.mpr ⟨l, k, hat, hsame, hkey, hnew, rfl⟩
      have hkept : scanner.Earlier (place + 1)
          (scanner.make (some l) (k :: scanner.seen state)) := by
        intro other hother
        rw [scanner.seen_make] at hother
        rcases List.mem_cons.mp hother with rfl | hold
        · exact ⟨l, place, first, Nat.lt_succ_self _, hat, hkey⟩
        · obtain ⟨label', before, x, hlt, hx⟩ := hearlier other hold
          exact ⟨label', before, x, Nat.lt_succ_of_lt hlt, hx⟩
      have hlabel : ∀ other ∈ scanner.found (scanner.make (some l) (k :: scanner.seen state)),
          other = l := by
        intro other hother
        rw [scanner.found_make] at hother
        exact (Option.some.inj hother).symm
      have hrest : ∀ (offset : Nat) x, rest[offset]? = some x →
          scanner.At l (place + 1 + offset) x := by
        intro offset x hx
        rw [Nat.add_right_comm]
        exact h (offset + 1) x hx
      obtain ⟨after, hscan⟩ := ih hkept hlabel hrest
      refine ⟨after, ?_⟩
      rw [List.zipIdx_cons, List.foldlM_cons]
      exact bind_eq_ok.mpr ⟨_, hstep, hscan⟩

/-- A scan ends well exactly when all elements stand at their places under one label. -/
theorem scan_iff [Inhabited label] :
    (∃ after, xs.zipIdx.foldlM scanner.check (scanner.make none []) = .ok after) ↔
      ∃ l, ∀ (place : Nat) x, xs[place]? = some x → scanner.At l place x := by
  constructor
  · rintro ⟨after, hscan⟩
    have hleft : ∀ other ∈ scanner.found after, other = (scanner.found after).getD default := by
      intro other hother
      rw [Option.mem_def.mp hother]
      rfl
    refine ⟨(scanner.found after).getD default, ?_⟩
    intro place x hx
    have hat := (scanner.all_of_scan hscan hleft).2 place x hx
    rwa [Nat.zero_add] at hat
  · rintro ⟨l, hall⟩
    refine scanner.scan_of_all (l := l) ?_ ?_ ?_
    · intro k hk
      rw [scanner.seen_make] at hk
      cases hk
    · intro other hother
      rw [scanner.found_make] at hother
      cases hother
    · intro offset x hx
      rw [Nat.zero_add]
      exact hall offset x hx

end Scanner

end PlacedScan
