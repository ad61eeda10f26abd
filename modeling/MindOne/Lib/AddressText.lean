import Mathlib.Data.BitVec

/-!
# Addresses and numbers as text

The readers follow the address parser of the standard library. An IPv4 address has four
decimal octets without leading zeros. An IPv6 address has eight groups, of which the last
two may be an IPv4 address, and one run of zero groups may be left out.
-/

namespace AddressText

inductive IpAddr where
  | v4 (address : BitVec 32)
  | v6 (address : BitVec 128)
  deriving DecidableEq

/-- A reader returns what it has read and what is left of the text. -/
abbrev Reader (α : Type) := List Char → Option (α × List Char)

def toDigit (radix : Nat) (c : Char) : Option Nat :=
  let value :=
    if '0' ≤ c ∧ c ≤ '9' then c.toNat - 48
    else if 'a' ≤ c ∧ c ≤ 'z' then c.toNat - 87
    else if 'A' ≤ c ∧ c ≤ 'Z' then c.toNat - 55
    else radix
  if value < radix then some value else none

def readDigits (radix : Nat) : List Char → List Nat × List Char
  | [] => ([], [])
  | c :: rest =>
      match toDigit radix c with
      | none => ([], c :: rest)
      | some digit =>
          let (digits, left) := readDigits radix rest
          (digit :: digits, left)

def ofDigits (radix : Nat) (digits : List Nat) : Nat :=
  digits.foldl (fun value digit => value * radix + digit) 0

def readNumber (radix maxDigits limit : Nat) (allowZeroPrefix : Bool) : Reader Nat := fun text =>
  let (digits, left) := readDigits radix text
  if digits = [] ∨ maxDigits < digits.length ∨ limit ≤ ofDigits radix digits ∨
      allowZeroPrefix = false ∧ digits.head? = some 0 ∧ 1 < digits.length then none
  else some (ofDigits radix digits, left)

def readGivenChar (c : Char) : List Char → Option (List Char)
  | [] => none
  | d :: rest => if d = c then some rest else none

/-- All but the first item stand behind a separator. -/
def readSeparator {α : Type} (separator : Char) (index : Nat) (read : Reader α) : Reader α :=
  fun text => if 0 < index then (readGivenChar separator text).bind read else read text

def readOctet : Reader Nat := readNumber 10 3 256 false

def readIpv4Addr : Reader (BitVec 32) := fun text => do
  let (a, text) ← readSeparator '.' 0 readOctet text
  let (b, text) ← readSeparator '.' 1 readOctet text
  let (c, text) ← readSeparator '.' 2 readOctet text
  let (d, text) ← readSeparator '.' 3 readOctet text
  return (BitVec.ofNat 32 (ofDigits 256 [a, b, c, d]), text)

/-- The groups, whether the last two were an IPv4 address, and the rest of the text. -/
def readGroups : Nat → Nat → List Char → List Nat × Bool × List Char
  | 0, _, text => ([], false, text)
  | remaining + 1, index, text =>
      let ipv4 := if 0 < remaining then readSeparator ':' index readIpv4Addr text else none
      match ipv4 with
      | some (address, rest) => ([address.toNat / 65536, address.toNat % 65536], true, rest)
      | none =>
          match readSeparator ':' index (readNumber 16 4 65536 true) text with
          | none => ([], false, text)
          | some (group, rest) =>
              let (groups, embedded, rest) := readGroups remaining (index + 1) rest
              (group :: groups, embedded, rest)

def ofGroups (groups : List Nat) : BitVec 128 := BitVec.ofNat 128 (ofDigits 65536 groups)

def readIpv6Addr : Reader (BitVec 128) := fun text =>
  let (head, embedded, rest) := readGroups 8 0 text
  if head.length = 8 then some (ofGroups head, rest)
  else if embedded then none
  else do
    let rest ← readGivenChar ':' rest
    let rest ← readGivenChar ':' rest
    let (tail, _, rest) := readGroups (8 - (head.length + 1)) 0 rest
    return (ofGroups (head ++ List.replicate (8 - head.length - tail.length) 0 ++ tail), rest)

def IpAddr.fromStr (text : List Char) : Option IpAddr :=
  let read : Option (IpAddr × List Char) := match readIpv4Addr text with
    | some (address, rest) => some (.v4 address, rest)
    | none => (readIpv6Addr text).map fun (address, rest) => (.v6 address, rest)
  match read with
  | some (address, []) => some address
  | _ => none

/-- Decimal digits behind an optional plus sign. -/
def parseUnsigned (limit : Nat) (text : List Char) : Option Nat :=
  let digits := match text with
    | '+' :: rest => rest
    | text => text
  match readDigits 10 digits with
  | (value :: values, []) =>
      if ofDigits 10 (value :: values) < limit then some (ofDigits 10 (value :: values)) else none
  | _ => none

theorem toDigit_ten (c : Char) :
    toDigit 10 c = if c.isDigit = true then some (c.toNat - 48) else none := by
  have hdigit : c.isDigit = true ↔ '0' ≤ c ∧ c ≤ '9' := by
    simp only [Char.isDigit, Bool.and_eq_true, decide_eq_true_eq]
    rfl
  by_cases h : '0' ≤ c ∧ c ≤ '9'
  · have hbound := Char.isDigit_iff_toNat.mp (hdigit.mpr h)
    have hnine : '9'.toNat = 57 := rfl
    rw [toDigit, if_pos h, if_pos (hdigit.mpr h), if_pos (by omega)]
  · rw [toDigit, if_neg h, if_neg (mt hdigit.mp h)]
    refine if_neg ?_
    by_cases hlower : 'a' ≤ c ∧ c ≤ 'z'
    · have hlow : 97 ≤ c.toNat := hlower.1
      rw [if_pos hlower]
      omega
    by_cases hupper : 'A' ≤ c ∧ c ≤ 'Z'
    · have hlow : 65 ≤ c.toNat := hupper.1
      rw [if_neg hlower, if_pos hupper]
      omega
    · rw [if_neg hlower, if_neg hupper]
      omega

theorem readDigits_of_digits {text : List Char} (h : ∀ c ∈ text, c.isDigit = true) :
    readDigits 10 text = (text.map fun c => c.toNat - 48, []) := by
  induction text with
  | nil => rfl
  | cons c rest ih =>
      obtain ⟨hc, hrest⟩ := List.forall_mem_cons.mp h
      simp only [readDigits, toDigit_ten, if_pos hc, ih hrest, List.map_cons]

theorem digits_of_readDigits {text : List Char} (h : (readDigits 10 text).2 = []) :
    ∀ c ∈ text, c.isDigit = true := by
  induction text with
  | nil => exact fun c hc => absurd hc List.not_mem_nil
  | cons c rest ih =>
      simp only [readDigits, toDigit_ten] at h
      by_cases hc : c.isDigit = true
      · rw [if_pos hc] at h
        exact List.forall_mem_cons.mpr ⟨hc, ih h⟩
      · rw [if_neg hc] at h
        cases h

theorem ofDigits_digits (text : List Char) :
    ofDigits 10 (text.map fun c => c.toNat - 48) = Nat.ofDigitChars 10 text 0 := by
  rw [ofDigits, List.foldl_map, Nat.ofDigitChars]
  refine List.foldl_ext _ _ _ fun value c _ => ?_
  rw [Nat.mul_comm]
  rfl

/-- Without a sign in front, the number that the digits write. -/
theorem parseUnsigned_eq_some {limit n : Nat} {text : List Char}
    (hsign : text.head? ≠ some '+') : parseUnsigned limit text = some n ↔
      text ≠ [] ∧ (∀ c ∈ text, c.isDigit = true) ∧ Nat.ofDigitChars 10 text 0 = n ∧ n < limit := by
  cases text with
  | nil => exact iff_of_false (fun h => by cases h) (fun h => h.1 rfl)
  | cons c rest =>
      have hplain : ∀ tail, c :: rest = '+' :: tail → False := by
        rintro tail hsame
        rw [hsame] at hsign
        exact hsign rfl
      simp only [parseUnsigned]
      rw [and_iff_right (List.cons_ne_nil c rest)]
      by_cases hall : ∀ d ∈ c :: rest, d.isDigit = true
      · have hvalue := ofDigits_digits (c :: rest)
        rw [List.map_cons] at hvalue
        rw [and_iff_right hall, readDigits_of_digits hall]
        simp only [List.map_cons, hvalue, Option.ite_none_right_eq_some, Option.some.injEq]
        constructor
        · rintro ⟨hlt, rfl⟩
          exact ⟨rfl, hlt⟩
        · rintro ⟨rfl, hlt⟩
          exact ⟨hlt, rfl⟩
      · refine iff_of_false ?_ (fun h => hall h.1)
        intro h
        cases hread : readDigits 10 (c :: rest) with
        | mk values left =>
            rw [hread] at h
            cases left with
            | nil => exact hall (digits_of_readDigits (by rw [hread]))
            | cons d others =>
                cases values with
                | nil => cases h
                | cons value values => cases h

def splitOnce (separator : Char) : List Char → Option (List Char × List Char)
  | [] => none
  | c :: rest =>
      if c = separator then some ([], rest)
      else (splitOnce separator rest).map fun (before, after) => (c :: before, after)

/-- The addresses that stand for IPv4 addresses. -/
def toIpv6Mapped (address : BitVec 32) : BitVec 128 := 0#80 ++ 0xffff#16 ++ address

example : IpAddr.fromStr "::ffff:203.0.113.7".toList =
    some (.v6 (toIpv6Mapped 0xcb007107#32)) := by decide +kernel

example : ["203.0.113.07", "1.2.3", "1:2:3:4:5:6:7::8:9", "::1::2", "1.2.3.4::"].map
    (fun text => IpAddr.fromStr text.toList) = [none, none, none, none, none] := by decide +kernel

end AddressText
