import Mathlib.Data.List.Basic

/-!
# Printed JSON

The compact text of strings and of objects with fixed members, as serializers
write it: a quote, a backslash and the control characters below the space are
escaped, and everything else stands for itself.
-/

namespace JsonText

/-- A character that a JSON string holds as it is. -/
def Quiet (c : Char) : Prop := 32 ≤ c.toNat ∧ c.toNat ≠ 34 ∧ c.toNat ≠ 92

instance (c : Char) : Decidable (Quiet c) := inferInstanceAs (Decidable (_ ∧ _ ∧ _))

def hexadecimal (n : Nat) : Char := "0123456789abcdef".toList.getD n '0'

def escape (c : Char) : List Char :=
  if c.toNat = 34 then "\\\"".toList
  else if c.toNat = 92 then "\\\\".toList
  else if c.toNat = 8 then "\\b".toList
  else if c.toNat = 9 then "\\t".toList
  else if c.toNat = 10 then "\\n".toList
  else if c.toNat = 12 then "\\f".toList
  else if c.toNat = 13 then "\\r".toList
  else if c.toNat < 32 then
    "\\u00".toList ++ [hexadecimal (c.toNat / 16), hexadecimal (c.toNat % 16)]
  else [c]

theorem escape_of_quiet {c : Char} (h : Quiet c) : escape c = [c] := by
  obtain ⟨hlow, hquote, hbackslash⟩ := h
  rw [escape, if_neg hquote, if_neg hbackslash, if_neg (by omega), if_neg (by omega),
    if_neg (by omega), if_neg (by omega), if_neg (by omega), if_neg (by omega)]

def quote (text : String) : String :=
  "\"" ++ String.ofList (text.toList.flatMap escape) ++ "\""

theorem quote_of_quiet {text : String} (h : ∀ c ∈ text.toList, Quiet c) :
    quote text = "\"" ++ text ++ "\"" := by
  have hchars : ∀ chars : List Char, (∀ c ∈ chars, Quiet c) → chars.flatMap escape = chars := by
    intro chars hquiet
    induction chars with
    | nil => rfl
    | cons c chars ih =>
      rw [List.flatMap_cons, escape_of_quiet (hquiet c List.mem_cons_self),
        ih fun c hc => hquiet c (List.mem_cons_of_mem _ hc)]
      rfl
  rw [quote, hchars _ h, String.ofList_toList]

/-- The members of an object; their values are printed already. -/
def members : List (String × String) → String
  | [] => ""
  | [(key, value)] => quote key ++ ":" ++ value
  | (key, value) :: rest => quote key ++ ":" ++ value ++ "," ++ members rest

def object (fields : List (String × String)) : String := "\x7b" ++ members fields ++ "\x7d"

end JsonText
