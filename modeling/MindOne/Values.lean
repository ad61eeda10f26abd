import Mathlib.Algebra.Group.Nat.Defs
import Mathlib.Data.List.Basic
import Mathlib.Order.Basic
import MindOne.Lib.FieldFraming

/-!
# Texts, identifiers and instants

The values that both the service and the database render to text. Strings are
compared and measured by their UTF-8 bytes, identifiers are 128-bit words with
their hyphenated lower-case form, and instants count nanoseconds.
-/

namespace MindOne

/-- The UTF-8 bytes of a text. -/
def utf8 (text : String) : List UInt8 := text.toByteArray.data.toList

theorem utf8_injective : Function.Injective utf8 := by
  intro a b h
  apply String.toByteArray_inj.mp
  apply ByteArray.ext
  exact Array.toList_inj.mp h

theorem utf8_ofList (chars : List Char) :
    utf8 (String.ofList chars) = chars.flatMap String.utf8EncodeChar := by
  simp [utf8, List.utf8Encode]

/-- The key under which texts are ordered byte by byte. -/
def byteRank (text : String) : List Nat := (utf8 text).map UInt8.toNat

theorem byteRank_injective : Function.Injective byteRank := by
  intro a b h
  exact utf8_injective (List.map_injective_iff.mpr (fun _ _ => UInt8.toNat_inj.mp) h)

/-- The control characters of Unicode, `char::is_control`. -/
def isControl (c : Char) : Bool := c.toNat < 32 || (127 ≤ c.toNat && c.toNat < 160)

/-- The white space of Unicode, `char::is_whitespace`. -/
def isWhitespace (c : Char) : Bool :=
  (9 ≤ c.toNat && c.toNat ≤ 13) || c.toNat = 32 || c.toNat = 133 || c.toNat = 160 ||
    c.toNat = 5760 || (8192 ≤ c.toNat && c.toNat ≤ 8202) || c.toNat = 8232 ||
    c.toNat = 8233 || c.toNat = 8239 || c.toNat = 8287 || c.toNat = 12288

/-- `trim().is_empty()`: nothing but white space. -/
def isBlank (text : String) : Bool := text.toList.all isWhitespace

def hasControl (text : String) : Bool := text.toList.any isControl

/-- A byte that is not a decimal digit never occurs in a decimal numeral. -/
theorem not_mem_utf8_repr {b : UInt8} (hb : b.toNat < 48 ∨ 57 < b.toNat) (n : Nat) :
    b ∉ utf8 (toString n) := by
  rw [Nat.toString_eq_ofList_toDigits, utf8_ofList, List.mem_flatMap]
  rintro ⟨c, hc, hmem⟩
  have hdigit := Nat.isDigit_of_mem_toDigits (by decide) (by decide) hc
  simp only [Char.isDigit, ge_iff_le, Bool.and_eq_true, decide_eq_true_eq,
    UInt32.le_iff_toNat_le] at hdigit
  have hlo : 48 ≤ c.toNat := hdigit.1
  have hhi : c.toNat ≤ 57 := hdigit.2
  have hascii : c.toNat ≤ 127 := by omega
  have hbyte : b = UInt8.ofNat c.toNat := by
    simpa [String.utf8EncodeChar, hascii] using hmem
  have hvalue : b.toNat = c.toNat := by
    rw [hbyte, UInt8.toNat_ofNat']
    omega
  omega

theorem toString_nat_injective : Function.Injective (fun n : Nat => toString n) := by
  intro m n h
  have hdigits : Nat.toDigits 10 m = Nat.toDigits 10 n := by
    simpa [Nat.toString_eq_ofList_toDigits] using congrArg String.toList h
  rw [← Nat.ofDigitChars_ten_toDigits (n := m), hdigits, Nat.ofDigitChars_ten_toDigits]

/-- Decimal lengths ended by a colon. -/
def canonicalFormat : FieldFraming.Format UInt8 where
  separator := 58
  digits := fun n => utf8 (toString n)
  digits_injective := fun _ _ h => toString_nat_injective (utf8_injective h)
  separator_notMem := not_mem_utf8_repr (Or.inr (by decide))

/-- A number never starts with the sign of a negative one. -/
theorem repr_ne_sign (m n : Nat) : toString m ≠ "-" ++ toString n := by
  intro h
  have hlist : Nat.toDigits 10 m = '-' :: Nat.toDigits 10 n := by
    simpa [Nat.toString_eq_ofList_toDigits] using congrArg String.toList h
  have hmem : '-' ∈ Nat.toDigits 10 m := by rw [hlist]; simp
  have hdigit := Nat.isDigit_of_mem_toDigits (by decide) (by decide) hmem
  exact absurd hdigit (by decide)

theorem toString_int_injective : Function.Injective (fun n : Int => toString n) := by
  intro a b h
  simp only [Int.toString_eq_repr, Int.repr_eq_if] at h
  split at h <;> split at h
  · have := toString_nat_injective h
    omega
  · exact absurd h (repr_ne_sign _ _)
  · exact absurd h.symm (repr_ne_sign _ _)
  · have := toString_nat_injective (String.append_right_inj "-" |>.mp h)
    omega

def hexDigit (n : Nat) : Char :=
  ['0', '1', '2', '3', '4', '5', '6', '7', '8', '9', 'a', 'b', 'c', 'd', 'e', 'f'].getD n '0'

/-- The last `width` hexadecimal digits of a number, most significant first. -/
def hexDigits : Nat → Nat → List Char
  | 0, _ => []
  | width + 1, n => hexDigits width (n / 16) ++ [hexDigit (n % 16)]

theorem hexDigit_injective {m n : Nat} (hm : m < 16) (hn : n < 16)
    (h : hexDigit m = hexDigit n) : m = n := by
  revert h
  have := (by decide : ∀ i j : Fin 16, hexDigit i = hexDigit j → i = j) ⟨m, hm⟩ ⟨n, hn⟩
  simpa using this

@[simp] theorem length_hexDigits (width n : Nat) : (hexDigits width n).length = width := by
  induction width generalizing n with
  | zero => rfl
  | succ width ih => simp [hexDigits, ih]

theorem hexDigits_injective {width m n : Nat} (hm : m < 16 ^ width) (hn : n < 16 ^ width)
    (h : hexDigits width m = hexDigits width n) : m = n := by
  induction width generalizing m n with
  | zero => omega
  | succ width ih =>
      simp only [hexDigits] at h
      obtain ⟨hrest, hlast⟩ := List.append_inj' h rfl
      have hhigh := ih (by omega) (by omega) hrest
      have hlow := hexDigit_injective (Nat.mod_lt _ (by decide)) (Nat.mod_lt _ (by decide))
        (List.cons.inj hlast).1
      omega

theorem hexDigit_lt_iff {m n : Nat} (hm : m < 16) (hn : n < 16) :
    hexDigit m < hexDigit n ↔ m < n := by
  have := (by decide : ∀ i j : Fin 16, hexDigit i < hexDigit j ↔ (i : Nat) < j) ⟨m, hm⟩ ⟨n, hn⟩
  simpa using this

/-- Texts that differ after parts of one length compare by the parts first. -/
theorem append_lt_append_iff {a b c d : List Char} (h : a.length = b.length) :
    a ++ c < b ++ d ↔ a < b ∨ a = b ∧ c < d := by
  induction a generalizing b with
  | nil =>
    obtain rfl := List.eq_nil_of_length_eq_zero h.symm
    simp
  | cons x a ih =>
    cases b with
    | nil => simp at h
    | cons y b =>
      rw [List.cons_append, List.cons_append, List.cons_lt_cons_iff, List.cons_lt_cons_iff,
        ih (Nat.succ.inj h), List.cons.injEq]
      tauto

theorem hexDigits_lt_iff {width m n : Nat} (hm : m < 16 ^ width) (hn : n < 16 ^ width) :
    hexDigits width m < hexDigits width n ↔ m < n := by
  induction width generalizing m n with
  | zero =>
    obtain rfl : m = 0 := by omega
    obtain rfl : n = 0 := by omega
    simp
  | succ width ih =>
    have hhigh : m / 16 < 16 ^ width := by omega
    have hhigh' : n / 16 < 16 ^ width := by omega
    have heq : hexDigits width (m / 16) = hexDigits width (n / 16) ↔ m / 16 = n / 16 :=
      ⟨hexDigits_injective hhigh hhigh', fun h => by rw [h]⟩
    rw [hexDigits, hexDigits, append_lt_append_iff (by simp), ih hhigh hhigh', heq,
      List.cons_lt_cons_iff,
      hexDigit_lt_iff (Nat.mod_lt _ (by decide)) (Nat.mod_lt _ (by decide))]
    simp only [List.lt_irrefl, and_false, or_false]
    omega

/-- A property of all characters of a text, by evaluation. -/
theorem forall_of_all {p : Char → Prop} [DecidablePred p] {chars : List Char}
    (h : chars.all (fun c => decide (p c)) = true) : ∀ c ∈ chars, p c :=
  fun c hc => of_decide_eq_true (List.all_eq_true.mp h c hc)

/-- A character of one byte that is not a control character. -/
def Plain (c : Char) : Prop := isControl c = false ∧ c.toNat ≤ 127

instance (c : Char) : Decidable (Plain c) := inferInstanceAs (Decidable (_ ∧ _))

theorem plain_hexDigit (n : Nat) : Plain (hexDigit n) := by
  by_cases h : n < 16
  · exact (by decide : ∀ i : Fin 16, Plain (hexDigit i)) ⟨n, h⟩
  · have hdefault : hexDigit n = '0' := by simp [hexDigit, Nat.le_of_not_lt h]
    rw [hdefault]
    decide

theorem mem_hexDigits {width n : Nat} {c : Char} (h : c ∈ hexDigits width n) :
    ∃ digit, c = hexDigit digit := by
  induction width generalizing n with
  | zero => cases h
  | succ width ih =>
      rcases List.mem_append.mp h with hmem | hmem
      · exact ih hmem
      · exact ⟨_, List.mem_singleton.mp hmem⟩

theorem hasControl_of_plain {text : String} (h : ∀ c ∈ text.toList, Plain c) :
    hasControl text = false :=
  List.any_eq_false.mpr fun c hc => by simp [(h c hc).1]

/-- A text of plain characters has as many bytes as characters. -/
theorem length_utf8_of_plain {text : String} (h : ∀ c ∈ text.toList, Plain c) :
    (utf8 text).length = text.toList.length := by
  have hbytes : utf8 text = text.toList.flatMap String.utf8EncodeChar := by
    rw [← utf8_ofList, String.ofList_toList]
  rw [hbytes, List.length_flatMap]
  have hone : text.toList.map (fun c => (String.utf8EncodeChar c).length) =
      text.toList.map fun _ => 1 := by
    refine List.map_congr_left fun c hc => ?_
    simp [String.utf8EncodeChar, (h c hc).2]
  rw [hone]
  simp

/-- An identifier is a 128-bit word. -/
structure Uuid where
  asU128 : BitVec 128
  deriving DecidableEq, Repr

namespace Uuid

def fromU128 (value : Nat) : Uuid := ⟨BitVec.ofNat 128 value⟩

theorem eq_of_take_of_drop {n : Nat} {a b : List Char} (htake : a.take n = b.take n)
    (hdrop : a.drop n = b.drop n) : a = b := by
  rw [← List.take_append_drop n a, ← List.take_append_drop n b, htake, hdrop]

/-- The hyphenated lower-case form, as both `Uuid::to_string` and `uuid::text` print it. -/
def text (self : Uuid) : String :=
  let digits := hexDigits 32 self.asU128.toNat
  String.ofList (digits.take 8 ++ '-' :: ((digits.drop 8).take 4 ++ '-' ::
    ((digits.drop 12).take 4 ++ '-' :: ((digits.drop 16).take 4 ++ '-' :: digits.drop 20))))

theorem text_injective : Function.Injective text := by
  rintro ⟨a⟩ ⟨b⟩ h
  have h1 := String.ofList_injective h
  obtain ⟨t1, h2⟩ := List.append_inj h1 (by simp)
  obtain ⟨t2, h3⟩ := List.append_inj (List.cons.inj h2).2 (by simp)
  obtain ⟨t3, h4⟩ := List.append_inj (List.cons.inj h3).2 (by simp)
  obtain ⟨t4, h5⟩ := List.append_inj (List.cons.inj h4).2 (by simp)
  have d16 := eq_of_take_of_drop t4 (by simpa only [List.drop_drop] using (List.cons.inj h5).2)
  have d12 := eq_of_take_of_drop t3 (by simpa only [List.drop_drop] using d16)
  have d8 := eq_of_take_of_drop t2 (by simpa only [List.drop_drop] using d12)
  have hdigits := eq_of_take_of_drop t1 d8
  have hwidth : (2 : Nat) ^ 128 = 16 ^ 32 := by decide
  have hnat := hexDigits_injective (hwidth ▸ a.isLt) (hwidth ▸ b.isLt) hdigits
  exact congrArg Uuid.mk (BitVec.eq_of_toNat_eq hnat)

/-- The same character between parts of one length leaves their order alone. -/
theorem insert_lt_insert_iff {a b c d : List Char} (x : Char) (h : a.length = b.length) :
    a ++ x :: c < b ++ x :: d ↔ a ++ c < b ++ d := by
  rw [append_lt_append_iff h, append_lt_append_iff h, List.cons_lt_cons_iff]
  simp

/-- Printed identifiers are ordered like the words. -/
theorem text_lt_iff {a b : Uuid} : a.text < b.text ↔ a.asU128.toNat < b.asU128.toNat := by
  have hwidth : (2 : Nat) ^ 128 = 16 ^ 32 := by decide
  rw [← hexDigits_lt_iff (hwidth ▸ a.asU128.isLt) (hwidth ▸ b.asU128.isLt), String.lt_iff]
  generalize ha : hexDigits 32 a.asU128.toNat = da
  generalize hb : hexDigits 32 b.asU128.toNat = db
  have la : da.length = 32 := ha ▸ length_hexDigits 32 _
  have lb : db.length = 32 := hb ▸ length_hexDigits 32 _
  have hparts : ∀ digits : List Char, digits.take 8 ++ (digits.drop 8).take 4 ++
      (digits.drop 12).take 4 ++ (digits.drop 16).take 4 ++ digits.drop 20 = digits := by
    intro digits
    have h20 := List.take_append_drop 4 (digits.drop 16)
    have h16 := List.take_append_drop 4 (digits.drop 12)
    have h12 := List.take_append_drop 4 (digits.drop 8)
    have h8 := List.take_append_drop 8 digits
    rw [List.drop_drop] at h20 h16 h12
    rw [List.append_assoc, h20, List.append_assoc, h16, List.append_assoc, h12, h8]
  simp only [text, ha, hb, String.toList_ofList]
  rw [insert_lt_insert_iff '-' (by simp [la, lb]), ← List.append_assoc, ← List.append_assoc,
    insert_lt_insert_iff '-' (by simp [la, lb]), ← List.append_assoc, ← List.append_assoc,
    insert_lt_insert_iff '-' (by simp [la, lb]), ← List.append_assoc, ← List.append_assoc,
    insert_lt_insert_iff '-' (by simp [la, lb]), hparts, hparts]

/-- The printed form holds hexadecimal digits and hyphens only. -/
theorem mem_text {self : Uuid} {c : Char} (h : c ∈ self.text.toList) :
    c = '-' ∨ ∃ digit, c = hexDigit digit := by
  simp only [text, String.toList_ofList, List.mem_append, List.mem_cons] at h
  rcases h with h | rfl | h | rfl | h | rfl | h | rfl | h
  · exact .inr (mem_hexDigits (List.mem_of_mem_take h))
  · exact .inl rfl
  · exact .inr (mem_hexDigits (List.mem_of_mem_drop (List.mem_of_mem_take h)))
  · exact .inl rfl
  · exact .inr (mem_hexDigits (List.mem_of_mem_drop (List.mem_of_mem_take h)))
  · exact .inl rfl
  · exact .inr (mem_hexDigits (List.mem_of_mem_drop (List.mem_of_mem_take h)))
  · exact .inl rfl
  · exact .inr (mem_hexDigits (List.mem_of_mem_drop h))

theorem plain_text (self : Uuid) : ∀ c ∈ self.text.toList, Plain c := by
  intro c hc
  obtain rfl | ⟨digit, rfl⟩ := mem_text hc
  · decide
  · exact plain_hexDigit digit

theorem length_text (self : Uuid) : self.text.toList.length = 36 := by
  simp [text]

theorem text_ne_empty (self : Uuid) : self.text ≠ "" := by
  intro h
  have hlength := congrArg (fun text => text.toList.length) h
  simp [text] at hlength

end Uuid

/-- An instant between the years -9999 and 9999 at any offset from UTC, in
nanoseconds since 1970. -/
structure OffsetDateTime where
  unixTimestampNanos : Int
  inRange : -377705210399000000000 ≤ unixTimestampNanos ∧
    unixTimestampNanos < 253402394399000000000

end MindOne
