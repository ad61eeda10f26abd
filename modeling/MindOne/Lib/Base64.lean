import Mathlib.Data.List.Basic

/-!
# Base64

Three bytes are four characters of an alphabet of 64. A last group of one or two
bytes is two or three characters, and a padded form fills it up. The decoder is
the strict one: it takes no padding and no character whose unused bits are set,
so a text has at most one decoding and bytes have exactly one text.
-/

namespace Base64

/-- Sixty-four different characters. -/
structure Alphabet where
  symbols : List Char
  length_symbols : symbols.length = 64
  nodup_symbols : symbols.Nodup

namespace Alphabet
variable (alphabet : Alphabet)

def symbol (digit : Nat) : Char := alphabet.symbols.getD digit 'A'

def digit (c : Char) : Option Nat :=
  if alphabet.symbols.idxOf c < 64 then some (alphabet.symbols.idxOf c) else none

theorem symbol_eq {digit : Nat} (h : digit < 64) :
    alphabet.symbol digit = alphabet.symbols.get ⟨digit, alphabet.length_symbols ▸ h⟩ := by
  simp [symbol, alphabet.length_symbols, h]

theorem symbol_mem {digit : Nat} (h : digit < 64) : alphabet.symbol digit ∈ alphabet.symbols := by
  rw [symbol_eq alphabet h]
  exact List.getElem_mem _

@[simp] theorem digit_symbol {digit : Nat} (h : digit < 64) :
    alphabet.digit (alphabet.symbol digit) = some digit := by
  rw [symbol_eq alphabet h, Alphabet.digit, List.get_eq_getElem,
    List.Nodup.idxOf_getElem alphabet.nodup_symbols]
  simp [h]

theorem digit_eq_some {c : Char} {digit : Nat} (h : alphabet.digit c = some digit) :
    digit < 64 ∧ alphabet.symbol digit = c := by
  rw [Alphabet.digit] at h
  split at h
  · next hlt =>
    cases h
    refine ⟨hlt, ?_⟩
    rw [symbol_eq alphabet hlt]
    exact List.getElem_idxOf _
  · cases h

end Alphabet

def standard : Alphabet where
  symbols := "ABCDEFGHIJKLMNOPQRSTUVWXYZabcdefghijklmnopqrstuvwxyz0123456789+/".toList
  length_symbols := by decide
  nodup_symbols := by decide

def urlSafe : Alphabet where
  symbols := "ABCDEFGHIJKLMNOPQRSTUVWXYZabcdefghijklmnopqrstuvwxyz0123456789-_".toList
  length_symbols := by decide
  nodup_symbols := by decide

section Code
variable (alphabet : Alphabet)

/-- The characters of bytes, without padding. -/
def encode : List UInt8 → List Char
  | a :: b :: c :: rest =>
      alphabet.symbol (a.toNat / 4) ::
      alphabet.symbol (a.toNat % 4 * 16 + b.toNat / 16) ::
      alphabet.symbol (b.toNat % 16 * 4 + c.toNat / 64) ::
      alphabet.symbol (c.toNat % 64) :: encode rest
  | [a, b] => [alphabet.symbol (a.toNat / 4), alphabet.symbol (a.toNat % 4 * 16 + b.toNat / 16),
      alphabet.symbol (b.toNat % 16 * 4)]
  | [a] => [alphabet.symbol (a.toNat / 4), alphabet.symbol (a.toNat % 4 * 16)]
  | [] => []

def encodePadded (bytes : List UInt8) : List Char :=
  let chars := encode alphabet bytes
  chars ++ List.replicate ((4 - chars.length % 4) % 4) '='

/-- The bytes of characters, if they are an encoding. -/
def decode : List Char → Option (List UInt8)
  | w :: x :: y :: z :: rest => do
      let w ← alphabet.digit w
      let x ← alphabet.digit x
      let y ← alphabet.digit y
      let z ← alphabet.digit z
      let rest ← decode rest
      return UInt8.ofNat (w * 4 + x / 16) :: UInt8.ofNat (x % 16 * 16 + y / 4) ::
        UInt8.ofNat (y % 4 * 64 + z) :: rest
  | [w, x, y] => do
      let w ← alphabet.digit w
      let x ← alphabet.digit x
      let y ← alphabet.digit y
      if y % 4 = 0 then
        return [UInt8.ofNat (w * 4 + x / 16), UInt8.ofNat (x % 16 * 16 + y / 4)]
      else none
  | [w, x] => do
      let w ← alphabet.digit w
      let x ← alphabet.digit x
      if x % 16 = 0 then return [UInt8.ofNat (w * 4 + x / 16)] else none
  | [_] => none
  | [] => some []

/-- The bytes of characters with their padding. -/
def decodePadded (chars : List Char) : Option (List UInt8) :=
  (decode alphabet (chars.filter (· != '='))).filter fun bytes =>
    encodePadded alphabet bytes == chars

end Code

variable {alphabet : Alphabet}

/-- A byte is what its value makes it. -/
theorem ofNat_eq {b : UInt8} {value : Nat} (h : value = b.toNat) :
    UInt8.ofNat value = b := by
  rw [h, UInt8.ofNat_toNat]

@[simp] theorem decode_encode (bytes : List UInt8) :
    decode alphabet (encode alphabet bytes) = some bytes := by
  fun_induction encode alphabet bytes with
  | case1 a b c rest ih =>
    have ha := a.toNat_lt
    have hb := b.toNat_lt
    have hc := c.toNat_lt
    simp (disch := omega) only [decode, Alphabet.digit_symbol, ih, Option.bind_eq_bind,
      Option.bind_some, Option.pure_def]
    rw [ofNat_eq (b := a) (by omega), ofNat_eq (b := b) (by omega),
      ofNat_eq (b := c) (by omega)]
  | case2 a b =>
    have ha := a.toNat_lt
    have hb := b.toNat_lt
    simp (disch := omega) only [decode, Alphabet.digit_symbol, Option.bind_eq_bind,
      Option.bind_some, Option.pure_def]
    rw [if_pos (by omega), ofNat_eq (b := a) (by omega), ofNat_eq (b := b) (by omega)]
  | case3 a =>
    have ha := a.toNat_lt
    simp (disch := omega) only [decode, Alphabet.digit_symbol, Option.bind_eq_bind,
      Option.bind_some, Option.pure_def]
    rw [if_pos (by omega), ofNat_eq (b := a) (by omega)]
  | case4 => rfl

/-- A text that decodes is the encoding of what it decodes to. -/
theorem encode_of_decode {chars : List Char} {bytes : List UInt8}
    (h : decode alphabet chars = some bytes) : encode alphabet bytes = chars := by
  induction chars using decode.induct generalizing bytes with
  | case1 w x y z rest ih =>
    simp only [decode, Option.bind_eq_bind, Option.bind_eq_some_iff, Option.pure_def,
      Option.some.injEq] at h
    obtain ⟨dw, hw, dx, hx, dy, hy, dz, hz, bytes, hrest, rfl⟩ := h
    obtain ⟨lw, rfl⟩ := Alphabet.digit_eq_some _ hw
    obtain ⟨lx, rfl⟩ := Alphabet.digit_eq_some _ hx
    obtain ⟨ly, rfl⟩ := Alphabet.digit_eq_some _ hy
    obtain ⟨lz, rfl⟩ := Alphabet.digit_eq_some _ hz
    have ha : (dw * 4 + dx / 16) % 2 ^ 8 = dw * 4 + dx / 16 := by omega
    have hb : (dx % 16 * 16 + dy / 4) % 2 ^ 8 = dx % 16 * 16 + dy / 4 := by omega
    have hc : (dy % 4 * 64 + dz) % 2 ^ 8 = dy % 4 * 64 + dz := by omega
    have h1 : (dw * 4 + dx / 16) / 4 = dw := by omega
    have h2 : (dw * 4 + dx / 16) % 4 * 16 + (dx % 16 * 16 + dy / 4) / 16 = dx := by omega
    have h3 : (dx % 16 * 16 + dy / 4) % 16 * 4 + (dy % 4 * 64 + dz) / 64 = dy := by omega
    have h4 : (dy % 4 * 64 + dz) % 64 = dz := by omega
    simp only [encode, UInt8.toNat_ofNat', ha, hb, hc, h1, h2, h3, h4, ih hrest]
  | case2 w x y =>
    simp only [decode, Option.bind_eq_bind, Option.bind_eq_some_iff, Option.pure_def,
      Option.ite_none_right_eq_some, Option.some.injEq] at h
    obtain ⟨dw, hw, dx, hx, dy, hy, hrest, rfl⟩ := h
    obtain ⟨lw, rfl⟩ := Alphabet.digit_eq_some _ hw
    obtain ⟨lx, rfl⟩ := Alphabet.digit_eq_some _ hx
    obtain ⟨ly, rfl⟩ := Alphabet.digit_eq_some _ hy
    have ha : (dw * 4 + dx / 16) % 2 ^ 8 = dw * 4 + dx / 16 := by omega
    have hb : (dx % 16 * 16 + dy / 4) % 2 ^ 8 = dx % 16 * 16 + dy / 4 := by omega
    have h1 : (dw * 4 + dx / 16) / 4 = dw := by omega
    have h2 : (dw * 4 + dx / 16) % 4 * 16 + (dx % 16 * 16 + dy / 4) / 16 = dx := by omega
    have h3 : (dx % 16 * 16 + dy / 4) % 16 * 4 = dy := by omega
    simp only [encode, UInt8.toNat_ofNat', ha, hb, h1, h2, h3]
  | case3 w x =>
    simp only [decode, Option.bind_eq_bind, Option.bind_eq_some_iff, Option.pure_def,
      Option.ite_none_right_eq_some, Option.some.injEq] at h
    obtain ⟨dw, hw, dx, hx, hrest, rfl⟩ := h
    obtain ⟨lw, rfl⟩ := Alphabet.digit_eq_some _ hw
    obtain ⟨lx, rfl⟩ := Alphabet.digit_eq_some _ hx
    have ha : (dw * 4 + dx / 16) % 2 ^ 8 = dw * 4 + dx / 16 := by omega
    have h1 : (dw * 4 + dx / 16) / 4 = dw := by omega
    have h2 : (dw * 4 + dx / 16) % 4 * 16 = dx := by omega
    simp only [encode, UInt8.toNat_ofNat', ha, h1, h2]
  | case4 w => cases h
  | case5 =>
    cases h
    rfl

theorem length_encode (bytes : List UInt8) :
    (encode alphabet bytes).length = (bytes.length * 4 + 2) / 3 := by
  fun_induction encode alphabet bytes with
  | case1 a b c rest ih =>
    simp only [List.length_cons, ih]
    omega
  | case2 => simp
  | case3 => simp
  | case4 => simp

theorem length_encodePadded (bytes : List UInt8) :
    (encodePadded alphabet bytes).length = (bytes.length + 2) / 3 * 4 := by
  rw [encodePadded, List.length_append, List.length_replicate, length_encode]
  omega

/-- An encoding holds characters of the alphabet only. -/
theorem mem_symbols {bytes : List UInt8} {c : Char} (h : c ∈ encode alphabet bytes) :
    c ∈ alphabet.symbols := by
  fun_induction encode alphabet bytes with
  | case1 a b c rest ih =>
    have ha := a.toNat_lt
    have hb := b.toNat_lt
    have hc := c.toNat_lt
    simp only [List.mem_cons] at h
    rcases h with rfl | rfl | rfl | rfl | h
    · exact alphabet.symbol_mem (by omega)
    · exact alphabet.symbol_mem (by omega)
    · exact alphabet.symbol_mem (by omega)
    · exact alphabet.symbol_mem (by omega)
    · exact ih h
  | case2 a b =>
    have ha := a.toNat_lt
    have hb := b.toNat_lt
    simp only [List.mem_cons, List.not_mem_nil, or_false] at h
    rcases h with rfl | rfl | rfl
    · exact alphabet.symbol_mem (by omega)
    · exact alphabet.symbol_mem (by omega)
    · exact alphabet.symbol_mem (by omega)
  | case3 a =>
    have ha := a.toNat_lt
    simp only [List.mem_cons, List.not_mem_nil, or_false] at h
    rcases h with rfl | rfl
    · exact alphabet.symbol_mem (by omega)
    · exact alphabet.symbol_mem (by omega)
  | case4 => cases h

theorem mem_encodePadded {bytes : List UInt8} {c : Char} (h : c ∈ encodePadded alphabet bytes) :
    c ∈ alphabet.symbols ∨ c = '=' := by
  rcases List.mem_append.mp h with hmem | hmem
  · exact .inl (mem_symbols hmem)
  · exact .inr (List.eq_of_mem_replicate hmem)

end Base64
