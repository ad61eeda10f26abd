import Mathlib.Algebra.Group.Int.Defs
import Mathlib.Algebra.Group.Nat.Defs

/-!
# JSON values

The values of a JSON library and the questions that validation code asks of them.
A number is an integer or any other number, by its text. An object maps each of
its keys to one value.
-/

namespace Json

inductive Value where
  | null
  | bool (value : Bool)
  | int (value : Int)
  | float (text : String)
  | string (value : String)
  | array (items : List Value)
  | object (fields : List (String × Value))

/-- The fields of an object. -/
abbrev Fields := List (String × Value)

namespace Fields

def get (fields : Fields) (key : String) : Option Value :=
  (fields.find? fun field => field.1 == key).map Prod.snd

def containsKey (fields : Fields) (key : String) : Bool := fields.any fun field => field.1 == key

/-- The value of the key is replaced, or the key is new. -/
def insert (fields : Fields) (key : String) (value : Value) : Fields :=
  if fields.containsKey key = true then
    fields.map fun field => if field.1 == key then (key, value) else field
  else fields ++ [(key, value)]

theorem get_insert_other {fields : Fields} {key other : String} {value : Value}
    (h : other ≠ key) : (fields.insert key value).get other = fields.get other := by
  have hskip (rest : Fields) : Fields.get (rest.map fun field =>
      if field.1 == key then (key, value) else field) other = Fields.get rest other := by
    induction rest with
    | nil => rfl
    | cons field rest ih =>
        unfold Fields.get at ih ⊢
        rw [List.map_cons, List.find?_cons, List.find?_cons]
        by_cases hkey : field.1 = key
        · have hfield : ¬ field.1 = other := fun heq => h (heq.symm.trans hkey)
          simp only [hkey, beq_self_eq_true, if_true] at hfield ⊢
          rw [beq_eq_false_iff_ne.mpr hfield]
          exact ih
        · rw [if_neg (by simpa using hkey)]
          cases hfield : field.1 == other with
          | true => rfl
          | false => exact ih
  unfold insert
  split
  · exact hskip fields
  · unfold Fields.get
    rw [List.find?_append]
    have hnot : ([(key, value)] : Fields).find? (fun field => field.1 == other) = none := by
      simp [beq_eq_false_iff_ne.mpr (Ne.symm h)]
    rw [hnot, Option.or_none]

theorem get_insert_self {fields : Fields} {key : String} {value : Value} :
    (fields.insert key value).get key = some value := by
  unfold insert
  split
  · rename_i hkey
    unfold containsKey at hkey
    unfold get
    induction fields with
    | nil => cases hkey
    | cons field rest ih =>
        rw [List.map_cons, List.find?_cons]
        by_cases hfield : field.1 = key
        · simp [hfield]
        · have hrest : (rest.any fun field => field.1 == key) = true := by
            simpa [hfield] using hkey
          rw [if_neg (by simpa using hfield), beq_eq_false_iff_ne.mpr hfield]
          exact ih hrest
  · rename_i hkey
    have hnone : fields.find? (fun field => field.1 == key) = none := by
      refine List.find?_eq_none.mpr fun field hmem hfield => hkey ?_
      exact List.any_eq_true.mpr ⟨field, hmem, hfield⟩
    unfold get
    rw [List.find?_append, hnone]
    simp

end Fields

namespace Value

def asObject : Value → Option Fields
  | .object fields => some fields
  | _ => none

def asArray : Value → Option (List Value)
  | .array items => some items
  | _ => none

def asStr : Value → Option String
  | .string value => some value
  | _ => none

def asU64 : Value → Option Nat
  | .int value => if 0 ≤ value ∧ value < 2 ^ 64 then some value.toNat else none
  | _ => none

theorem asU64_ofNat {n : Nat} (h : n < 2 ^ 64) : (int n).asU64 = some n := by
  have hfits : (0 : Int) ≤ n ∧ (n : Int) < 2 ^ 64 := ⟨Int.natCast_nonneg n, by exact_mod_cast h⟩
  rw [asU64, if_pos hfits, Int.toNat_natCast]

def asI64 : Value → Option Int
  | .int value => if -2 ^ 63 ≤ value ∧ value < 2 ^ 63 then some value else none
  | _ => none

def isNull : Value → Bool
  | .null => true
  | _ => false

def isString : Value → Bool
  | .string _ => true
  | _ => false

def isObject : Value → Bool
  | .object _ => true
  | _ => false

end Value

end Json
