import Mathlib.Data.List.Forall2
import Mathlib.Data.List.Induction
import Mathlib.Data.List.Nodup

/-!
# Linked chains of records

Every record names the digest of its predecessor and carries a digest of its
own. A chain is linked from a start digest, its head is the digest of its last
record, and appending a record that names the head keeps it linked. When equal
digests mean equal records, the head determines the whole chain.
-/

universe u v w

namespace HashChain

/-- How a record names its predecessor and itself. -/
structure Links (Entry : Type u) (Digest : Type v) where
  previous : Entry → Digest
  digest : Entry → Digest

namespace Links
variable {Entry : Type u} {Other : Type w} {Digest : Type v}
  (links : Links Entry Digest) {start : Digest}

/-- The digest a chain ends in; an empty chain ends where it starts. -/
def head (start : Digest) : List Entry → Digest
  | [] => start
  | entry :: rest => head (links.digest entry) rest

/-- Each record names the digest of the one before it. -/
def Linked (start : Digest) : List Entry → Prop
  | [] => True
  | entry :: rest => links.previous entry = start ∧ Linked (links.digest entry) rest

@[simp] theorem linked_nil : links.Linked start [] := trivial

@[simp] theorem head_nil : links.head start [] = start := rfl

theorem head_append (entries : List Entry) (entry : Entry) :
    links.head start (entries ++ [entry]) = links.digest entry := by
  induction entries generalizing start with
  | nil => rfl
  | cons first rest ih => exact ih

/-- A record extends a chain exactly when it names the head. -/
theorem linked_append (entries : List Entry) (entry : Entry) :
    links.Linked start (entries ++ [entry]) ↔
      links.Linked start entries ∧ links.previous entry = links.head start entries := by
  induction entries generalizing start with
  | nil => simp [Linked, head]
  | cons first rest ih =>
      simp only [List.cons_append, Linked, head, ih, and_assoc]

/-- The predecessors along a chain are the start and all digests but the last. -/
theorem map_previous {entries : List Entry} (h : links.Linked start entries) :
    entries.map links.previous = (start :: entries.map links.digest).dropLast := by
  induction entries generalizing start with
  | nil => rfl
  | cons entry rest ih =>
      rw [List.map_cons, ih h.2, h.1, List.map_cons, List.dropLast_cons_cons]

/-- A chain whose digests are fresh never names one predecessor twice. -/
theorem nodup_previous {entries : List Entry} (h : links.Linked start entries)
    (hnodup : (entries.map links.digest).Nodup)
    (hstart : ∀ entry ∈ entries, links.digest entry ≠ start) :
    (entries.map links.previous).Nodup := by
  have hall : (start :: entries.map links.digest).Nodup := by
    refine List.nodup_cons.mpr ⟨?_, hnodup⟩
    rintro hmem
    obtain ⟨entry, hentry, hdigest⟩ := List.mem_map.mp hmem
    exact hstart entry hentry hdigest
  rw [links.map_previous h]
  exact hall.sublist (List.dropLast_sublist _)

/-- The chains that a digest commits to: two linked chains from the same start
with the same head agree record by record, provided equal digests give related
records, related records name the same predecessor, and no record digests to
the start. -/
theorem commit {Same : Entry → Entry → Prop} {xs ys : List Entry}
    (hsame : ∀ x ∈ xs, ∀ y ∈ ys, links.digest x = links.digest y → Same x y)
    (hprevious : ∀ x y, Same x y → links.previous x = links.previous y)
    (hx : ∀ x ∈ xs, links.digest x ≠ start) (hy : ∀ y ∈ ys, links.digest y ≠ start)
    (hxs : links.Linked start xs) (hys : links.Linked start ys)
    (hhead : links.head start xs = links.head start ys) : List.Forall₂ Same xs ys := by
  induction xs using List.reverseRecOn generalizing ys with
  | nil =>
      cases ys using List.reverseRecOn with
      | nil => exact .nil
      | append_singleton ys y =>
          rw [head_nil, head_append] at hhead
          exact absurd hhead.symm (hy y (by simp))
  | append_singleton xs x ih =>
      cases ys using List.reverseRecOn with
      | nil =>
          rw [head_nil, head_append] at hhead
          exact absurd hhead (hx x (by simp))
      | append_singleton ys y =>
          rw [head_append, head_append] at hhead
          obtain ⟨hlx, hpx⟩ := (links.linked_append xs x).mp hxs
          obtain ⟨hly, hpy⟩ := (links.linked_append ys y).mp hys
          have hxy := hsame x (by simp) y (by simp) hhead
          have hrest := ih (fun a ha b hb => hsame a (by simp [ha]) b (by simp [hb]))
            (fun a ha => hx a (by simp [ha])) (fun b hb => hy b (by simp [hb])) hlx hly
            (by rw [← hpx, ← hpy, hprevious x y hxy])
          exact List.rel_append hrest (.cons hxy .nil)

/-- A chain is linked from its start when neighbours are linked. -/
theorem linked_cons_iff_isChain {entry : Entry} {rest : List Entry} :
    links.Linked start (entry :: rest) ↔ links.previous entry = start ∧
      (entry :: rest).IsChain fun a b => links.previous b = links.digest a := by
  induction rest generalizing start entry with
  | nil => simp [Linked]
  | cons next rest ih =>
      rw [Linked, ih, List.isChain_cons_cons]

section Follow
variable [DecidableEq Digest]

/-- Records in link order: from a digest to the record that names it, and on. -/
def follow (records : List Entry) : Nat → Digest → List Entry
  | 0, _ => []
  | fuel + 1, digest =>
      match records.find? fun record => links.previous record = digest with
      | none => []
      | some record => record :: follow records fuel (links.digest record)

theorem follow_suffix {records rest : List Entry}
    (hnodup : (records.map links.previous).Nodup) (hsub : rest ⊆ records)
    (h : links.Linked start rest) : links.follow records rest.length start = rest := by
  induction rest generalizing start with
  | nil => rfl
  | cons entry rest ih =>
      have hmem : entry ∈ records := hsub List.mem_cons_self
      have hfind : records.find? (fun record => links.previous record = start) =
          some entry := by
        cases hfound : records.find? fun record => links.previous record = start with
        | none => exact absurd h.1 (by simpa using List.find?_eq_none.mp hfound entry hmem)
        | some record =>
            have hprevious : links.previous record = start := by
              simpa using List.find?_some hfound
            rw [List.inj_on_of_nodup_map hnodup (List.mem_of_find?_eq_some hfound) hmem
              (hprevious.trans h.1.symm)]
      rw [List.length_cons, follow, hfind]
      exact congrArg (entry :: ·) (ih (fun x hx => hsub (List.mem_cons_of_mem entry hx)) h.2)

/-- However its records are enumerated, an unforked chain is read back in its order. -/
theorem follow_perm {records entries : List Entry} (h : links.Linked start entries)
    (hnodup : (entries.map links.previous).Nodup) (enumerated : records.Perm entries) :
    links.follow records records.length start = entries := by
  rw [enumerated.length_eq]
  exact links.follow_suffix ((enumerated.map _).nodup_iff.mpr hnodup)
    enumerated.symm.subset h

end Follow

end Links

end HashChain
