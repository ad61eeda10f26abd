import Mathlib.Data.List.Sort
import Mathlib.Data.List.Pairwise

/-!
# Spans

Half-open stretches of positions, carried by the items of a list. A list tiles a stretch
when each item starts where the one before it ended. The order by start and then by end is
the only one in which a list can tile, so it is enough to sort and to compare neighbours.
-/

namespace Spans

/-- The positions from `start` up to `stop`, without it. -/
structure Span where
  start : Nat
  stop : Nat
  deriving DecidableEq, Repr

namespace Span

def Contains (span : Span) (position : Nat) : Prop := span.start ≤ position ∧ position < span.stop

/-- One of the two ends before the other starts. -/
def Apart (a b : Span) : Prop := a.stop ≤ b.start ∨ b.stop ≤ a.start

theorem Apart.symm {a b : Span} (h : a.Apart b) : b.Apart a := Or.symm h

theorem Apart.not_contains {a b : Span} (h : a.Apart b) {position : Nat}
    (ha : a.Contains position) : ¬ b.Contains position := by
  rintro ⟨hstart, hstop⟩
  obtain ⟨hstart', hstop'⟩ := ha
  rcases h with h | h <;> omega

/-- The order by start, and by end among those that start together. -/
def Precedes (a b : Span) : Prop := a.start < b.start ∨ (a.start = b.start ∧ a.stop ≤ b.stop)

instance (a b : Span) : Decidable (a.Precedes b) := inferInstanceAs (Decidable (_ ∨ _))

theorem Precedes.antisymm {a b : Span} (h : a.Precedes b) (h' : b.Precedes a) : a = b := by
  cases a
  cases b
  simp only [Precedes] at h h'
  simp only [mk.injEq]
  omega

end Span

section Lists
variable {α : Type*} (span : α → Span)

/-- Each item starts where the one before it ended, from one bound to the other. -/
def Tiles : Nat → List α → Nat → Prop
  | low, [], high => low = high
  | low, a :: rest, high =>
      (span a).start = low ∧ low ≤ (span a).stop ∧ Tiles (span a).stop rest high

/-- The items by start and end, those with the same span in the order in which they came. -/
def sortSpans (items : List α) : List α :=
  items.insertionSort fun a b => (span a).Precedes (span b)

theorem perm_sortSpans (items : List α) : (sortSpans span items).Perm items :=
  List.perm_insertionSort _ items

instance : Std.Total fun a b : α => (span a).Precedes (span b) where
  total a b := by
    simp only [Span.Precedes]
    omega

instance : IsTrans α fun a b => (span a).Precedes (span b) where
  trans a b c := by
    simp only [Span.Precedes]
    omega

theorem pairwise_sortSpans (items : List α) :
    (sortSpans span items).Pairwise fun a b => (span a).Precedes (span b) :=
  List.pairwise_insertionSort _ items

variable {span} {low high : Nat} {items : List α}

theorem tiles_map : Tiles id low (items.map span) high ↔ Tiles span low items high := by
  induction items generalizing low with
  | nil => rfl
  | cons a rest ih => simp only [List.map_cons, Tiles, id, ih]

namespace Tiles

theorem le (h : Tiles span low items high) : low ≤ high := by
  induction items generalizing low with
  | nil => exact h.le
  | cons a rest ih =>
      obtain ⟨_, hproper, hrest⟩ := h
      exact hproper.trans (ih hrest)

theorem bounds (h : Tiles span low items high) :
    ∀ a ∈ items, low ≤ (span a).start ∧ (span a).start ≤ (span a).stop ∧ (span a).stop ≤ high := by
  induction items generalizing low with
  | nil => simp
  | cons a rest ih =>
      obtain ⟨hstart, hproper, hrest⟩ := h
      rw [List.forall_mem_cons]
      refine ⟨⟨hstart.ge, hstart.trans_le hproper, hrest.le⟩, fun b hb => ?_⟩
      obtain ⟨hlow, hb⟩ := ih hrest b hb
      exact ⟨hproper.trans hlow, hb⟩

theorem pairwise (h : Tiles span low items high) :
    items.Pairwise fun a b => (span a).stop ≤ (span b).start := by
  induction items generalizing low with
  | nil => exact .nil
  | cons a rest ih =>
      obtain ⟨_, _, hrest⟩ := h
      exact .cons (fun b hb => (hrest.bounds b hb).1) (ih hrest)

/-- Every position belongs to an item. -/
theorem exists_contains (h : Tiles span low items high) {position : Nat} (hlow : low ≤ position)
    (hhigh : position < high) : ∃ a ∈ items, (span a).Contains position := by
  induction items generalizing low with
  | nil =>
      simp only [Tiles] at h
      omega
  | cons a rest ih =>
      obtain ⟨hstart, _, hrest⟩ := h
      by_cases hin : position < (span a).stop
      · exact ⟨a, .head _, hstart.trans_le hlow, hin⟩
      · obtain ⟨b, hb, hcontains⟩ := ih hrest (by omega)
        exact ⟨b, .tail _ hb, hcontains⟩

end Tiles

/-- A tiling from the first start, over neighbours that meet, to the last end. -/
theorem tiles_iff_neighbours (hproper : ∀ a ∈ items, (span a).start ≤ (span a).stop)
    (hnonempty : items ≠ []) : Tiles span low items high ↔
      (∃ a, items.head? = some a ∧ (span a).start = low) ∧
      items.IsChain (fun a b => (span a).stop = (span b).start) ∧
      ∃ a, items.getLast? = some a ∧ (span a).stop = high := by
  induction items generalizing low with
  | nil => exact absurd rfl hnonempty
  | cons a rest ih =>
      rw [List.forall_mem_cons] at hproper
      obtain ⟨ha, hrest⟩ := hproper
      cases rest with
      | nil =>
          simp only [Tiles, List.head?_cons, List.getLast?_singleton, Option.some.injEq,
            exists_eq_left', List.IsChain.singleton, true_and]
          omega
      | cons b rest =>
          have hnext := @ih (span a).stop hrest (List.cons_ne_nil _ _)
          simp only [List.head?_cons, Option.some.injEq, exists_eq_left'] at hnext
          rw [Tiles, hnext, List.isChain_cons_cons, List.getLast?_cons_cons]
          simp only [List.head?_cons, Option.some.injEq, exists_eq_left']
          constructor
          · rintro ⟨hstart, _, hmeet, hchain, hlast⟩
            exact ⟨hstart, ⟨hmeet.symm, hchain⟩, hlast⟩
          · rintro ⟨hstart, ⟨hmeet, hchain⟩, hlast⟩
            exact ⟨hstart, hstart.symm.trans_le ha, hmeet.symm, hchain, hlast⟩

/-- Two lists with the same spans are put into the same order. -/
theorem map_sortSpans_of_perm {β : Type*} {span' : β → Span} {others : List β}
    (h : (items.map span).Perm (others.map span')) :
    (sortSpans span items).map span = (sortSpans span' others).map span' := by
  have hperm := ((perm_sortSpans span items).map span).trans
    (h.trans ((perm_sortSpans span' others).map span').symm)
  refine hperm.eq_of_pairwise
    (fun a b _ _ (hab : a.Precedes b) (hba : b.Precedes a) => hab.antisymm hba) ?_ ?_
  · exact List.pairwise_map.mpr (pairwise_sortSpans span items)
  · exact List.pairwise_map.mpr (pairwise_sortSpans span' others)

/-- A list that is in order is the only candidate for a tiling. -/
theorem tiles_sortSpans_of_perm {order : List α} (hperm : order.Perm items)
    (hsorted : order.Pairwise fun a b => (span a).Precedes (span b))
    (h : Tiles span low order high) : Tiles span low (sortSpans span items) high := by
  have hsame : order.map span = (sortSpans span items).map span := by
    refine ((hperm.trans (perm_sortSpans span items).symm).map span).eq_of_pairwise
      (fun a b _ _ (hab : a.Precedes b) (hba : b.Precedes a) => hab.antisymm hba) ?_ ?_
    · exact List.pairwise_map.mpr hsorted
    · exact List.pairwise_map.mpr (pairwise_sortSpans span items)
  rw [← tiles_map, ← hsame, tiles_map]
  exact h

/-- Items that end before the next one starts are pairwise apart. -/
theorem pairwise_of_neighbours (hproper : ∀ a ∈ items, (span a).start ≤ (span a).stop)
    (h : items.IsChain fun a b => (span a).stop ≤ (span b).start) :
    items.Pairwise fun a b => (span a).stop ≤ (span b).start := by
  induction h with
  | nil => exact .nil
  | singleton a => exact List.pairwise_singleton _ a
  | cons_cons hnext _ ih =>
      rename_i a b rest _
      rw [List.forall_mem_cons] at hproper
      obtain ⟨_, hproper⟩ := hproper
      have hrest := ih hproper
      refine .cons ?_ hrest
      rw [List.forall_mem_cons]
      refine ⟨hnext, fun c hc => hnext.trans ?_⟩
      exact (hproper b (.head _)).trans (List.rel_of_pairwise_cons hrest hc)

/-- In a list of items that are apart a position belongs to one item at most. -/
theorem eq_of_contains (h : items.Pairwise fun a b => (span a).stop ≤ (span b).start)
    {a b : α} (ha : a ∈ items) (hb : b ∈ items) {position : Nat}
    (hina : (span a).Contains position) (hinb : (span b).Contains position) : a = b := by
  by_contra hne
  have hapart : items.Pairwise fun a b => (span a).Apart (span b) := h.imp fun hle => .inl hle
  have : Std.Symm fun a b : α => (span a).Apart (span b) := ⟨fun _ _ => Span.Apart.symm⟩
  exact (hapart.forall ha hb hne).not_contains hina hinb

end Lists

end Spans
