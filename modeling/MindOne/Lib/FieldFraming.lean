import Mathlib.Data.List.Basic

/-!
# Length-prefixed fields

A field is written as its length in some digit notation, a separator and then
the value. The digits never contain the separator, so the first separator ends
the length, and a sequence of fields can be read back in only one way even
when the values contain digits and separators of their own.
-/

universe u

namespace FieldFraming

variable {β : Type u}

/-- The first occurrence of a separator splits a list in only one way. -/
theorem split_at_separator {separator : β} {a b x y : List β} (ha : separator ∉ a)
    (hb : separator ∉ b) (h : a ++ separator :: x = b ++ separator :: y) :
    a = b ∧ x = y := by
  induction a generalizing b with
  | nil =>
      cases b with
      | nil => exact ⟨rfl, (List.cons.inj h).2⟩
      | cons c b => exact absurd (List.cons.inj h).1 (List.ne_of_not_mem_cons hb)
  | cons c a ih =>
      cases b with
      | nil => exact absurd (List.cons.inj h).1.symm (List.ne_of_not_mem_cons ha)
      | cons d b =>
          obtain ⟨rfl, htail⟩ := List.cons.inj h
          obtain ⟨rfl, hrest⟩ := ih (List.not_mem_of_not_mem_cons ha)
            (List.not_mem_of_not_mem_cons hb) htail
          exact ⟨rfl, hrest⟩

/-- A notation for lengths together with the symbol that ends a length. -/
structure Format (β : Type u) where
  separator : β
  digits : Nat → List β
  digits_injective : Function.Injective digits
  separator_notMem : ∀ n, separator ∉ digits n

namespace Format
variable (format : Format β)

/-- One field: its length, the separator, and the value. -/
def field (value : List β) : List β :=
  format.digits value.length ++ format.separator :: value

/-- The concatenation of several fields. -/
def fields (values : List (List β)) : List β := values.flatMap format.field

@[simp] theorem fields_nil : format.fields [] = [] := rfl

@[simp] theorem fields_cons (value : List β) (values : List (List β)) :
    format.fields (value :: values) = format.field value ++ format.fields values := rfl

theorem fields_append (values rest : List (List β)) :
    format.fields (values ++ rest) = format.fields values ++ format.fields rest :=
  List.flatMap_append

theorem field_ne_nil (value : List β) : format.field value ≠ [] := by
  simp [field]

/-- The first field and the remainder of a framed sequence are determined. -/
theorem field_append_inj {a b x y : List β}
    (h : format.field a ++ x = format.field b ++ y) : a = b ∧ x = y := by
  simp only [field, List.append_assoc, List.cons_append] at h
  obtain ⟨hdigits, hrest⟩ := split_at_separator (format.separator_notMem a.length)
    (format.separator_notMem b.length) h
  have hlen : a.length = b.length := format.digits_injective hdigits
  exact List.append_inj hrest hlen

/-- A sequence of fields is read back in at most one way. -/
theorem fields_injective : Function.Injective format.fields := by
  intro values
  induction values with
  | nil =>
      intro rest h
      cases rest with
      | nil => rfl
      | cons value rest =>
          simp only [fields_nil, fields_cons] at h
          exact absurd (List.append_eq_nil_iff.mp h.symm).1 (format.field_ne_nil value)
  | cons value values ih =>
      intro rest h
      cases rest with
      | nil =>
          simp only [fields_nil, fields_cons] at h
          exact absurd (List.append_eq_nil_iff.mp h).1 (format.field_ne_nil value)
      | cons other rest =>
          obtain ⟨rfl, htail⟩ := format.field_append_inj h
          rw [ih htail]

end Format

end FieldFraming
