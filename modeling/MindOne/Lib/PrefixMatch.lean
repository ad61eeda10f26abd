import Mathlib.Data.BitVec
import Mathlib.Data.List.Basic

/-!
# Prefixes of words

A prefix of a word is a network with a length. A mask of ones keeps the leading bits of
a word. Where the network has no other bits, a word under the mask is the network exactly
if the leading bits agree, and a word is in at most one network of each length.
-/

namespace PrefixMatch

variable {w len : Nat} {network other address : BitVec w}

def mask (w len : Nat) : BitVec w := BitVec.allOnes w <<< (w - len)

/-- The leading bits of two words agree. -/
def Agree (len : Nat) (a b : BitVec w) : Prop := ∀ i < len, a.getMsbD i = b.getMsbD i

instance (len : Nat) (a b : BitVec w) : Decidable (Agree len a b) :=
  inferInstanceAs (Decidable (∀ i < len, _))

theorem getMsbD_mask (hlen : len ≤ w) (i : Nat) : (mask w len).getMsbD i = decide (i < len) := by
  rw [mask, BitVec.getMsbD_shiftLeft, BitVec.getMsbD_allOnes]
  exact decide_eq_decide.mpr (by omega)

theorem mask_zero : mask w 0 = 0 := by
  refine BitVec.eq_of_getMsbD_eq fun i _ => ?_
  rw [getMsbD_mask (Nat.zero_le w)]
  simp

/-- A network has no bits behind its prefix. -/
theorem getMsbD_network (hlen : len ≤ w) (h : network &&& mask w len = network) {i : Nat}
    (hi : len ≤ i) : network.getMsbD i = false := by
  rw [← h, BitVec.getMsbD_and, getMsbD_mask hlen, decide_eq_false (by omega), Bool.and_false]

theorem and_mask_eq_iff (hlen : len ≤ w) (h : network &&& mask w len = network) :
    address &&& mask w len = network ↔ Agree len address network := by
  constructor
  · rintro rfl i hi
    rw [BitVec.getMsbD_and, getMsbD_mask hlen, decide_eq_true hi, Bool.and_true]
  · intro hagree
    refine BitVec.eq_of_getMsbD_eq fun i _ => ?_
    rw [BitVec.getMsbD_and, getMsbD_mask hlen]
    by_cases hi : i < len
    · rw [decide_eq_true hi, Bool.and_true, hagree i hi]
    · rw [decide_eq_false hi, Bool.and_false, getMsbD_network hlen h (Nat.not_lt.mp hi)]

/-- A word has one network of a length. -/
theorem eq_of_agree (hlen : len ≤ w) (h : network &&& mask w len = network)
    (hother : other &&& mask w len = other) (hagree : Agree len address network)
    (hagree' : Agree len address other) : network = other :=
  ((and_mask_eq_iff hlen h).mpr hagree).symm.trans ((and_mask_eq_iff hlen hother).mpr hagree')

section Longest
variable {α : Type*} {rank : α → Nat} {p : α → Bool} {l : List α} {a : α}

/-- In a list from high to low the first match is a highest one. -/
theorem find?_highest (hsorted : l.Pairwise fun a b => rank b ≤ rank a)
    (h : l.find? p = some a) : p a = true ∧ a ∈ l ∧ ∀ b ∈ l, p b = true → rank b ≤ rank a := by
  refine ⟨List.find?_some h, List.mem_of_find?_eq_some h, fun b hb hpb => ?_⟩
  obtain ⟨-, before, after, rfl, hbefore⟩ := List.find?_eq_some_iff_append.mp h
  obtain ⟨-, hafter, -⟩ := List.pairwise_append.mp hsorted
  rcases List.mem_append.mp hb with hb | hb
  · exact absurd hpb (by simpa using hbefore b hb)
  · rcases List.mem_cons.mp hb with rfl | hb
    · exact Nat.le_refl _
    · exact (List.pairwise_cons.mp hafter).1 b hb

end Longest

end PrefixMatch
