import MindOne.Engine.GgufLayout

/-!
# The order of metadata entries

The split of a file and the acceptance of its metadata do not depend on the order of the
entries. The alignment does: an entry that states it may be repeated, and the last one wins.
-/

namespace MindOne.Engine

open CheckedArithmetic MindOne.Stream Spans ByteReader

/-- What an entry says to the loop over the metadata. -/
inductive EntryEffect where
  | alignment (value : Nat)
  | splitIndex (value : Nat)
  | splitCount (value : Nat)
  | nothing

def GgufEntry.effect (entry : GgufEntry) : Option EntryEffect :=
  match stringText entry.key with
  | none => none
  | some key =>
      if key = "general.alignment" ∧ entry.value.kind = 4 then
        if validAlignment entry.value.number then some (.alignment entry.value.number) else none
      else if key = "split.no" then
        if entry.value.kind ≠ 2 then none else some (.splitIndex entry.value.number)
      else if key = "split.count" then
        if entry.value.kind ≠ 2 then none else some (.splitCount entry.value.number)
      else if entry.value.accepted (maxArrayDepth + 1) then some .nothing else none

def GgufMetadata.apply (metadata : GgufMetadata) : EntryEffect → Option GgufMetadata
  | .alignment value => some { metadata with alignment := value }
  | .splitIndex value =>
      if metadata.splitIndex ≠ none then none else some { metadata with splitIndex := some value }
  | .splitCount value =>
      if metadata.splitCount ≠ none then none else some { metadata with splitCount := some value }
  | .nothing => some metadata

/-- The state of the loop but for the alignment. -/
def GgufMetadata.splitPart (metadata : GgufMetadata) : Option Nat × Option Nat :=
  (metadata.splitIndex, metadata.splitCount)

section Effects

theorem add_eq_effect (metadata : GgufMetadata) (entry : GgufEntry) :
    metadata.add entry = entry.effect.bind metadata.apply := by
  rw [GgufMetadata.add, GgufEntry.effect]
  cases stringText entry.key with
  | none => rfl
  | some key =>
      simp only
      split
      · split <;> rfl
      · split
        · by_cases hkind : entry.value.kind = 2
          · simp [hkind, GgufMetadata.apply]
          · simp [hkind]
        · split
          · by_cases hkind : entry.value.kind = 2
            · simp [hkind, GgufMetadata.apply]
            · simp [hkind]
          · split <;> rfl

/-- The split part after an effect, from the split part before it. -/
theorem splitPart_apply {a b : GgufMetadata} (h : a.splitPart = b.splitPart)
    (effect : EntryEffect) :
    (a.apply effect).map GgufMetadata.splitPart = (b.apply effect).map GgufMetadata.splitPart := by
  obtain ⟨alignment, index, count⟩ := a
  obtain ⟨alignment', index', count'⟩ := b
  cases h
  cases effect with
  | alignment value => rfl
  | splitIndex value => cases index <;> rfl
  | splitCount value => cases count <;> rfl
  | nothing => rfl

/-- Two effects give the same split part in either order. -/
theorem splitPart_comm (metadata : GgufMetadata) (a b : EntryEffect) :
    ((metadata.apply a).bind (·.apply b)).map GgufMetadata.splitPart =
      ((metadata.apply b).bind (·.apply a)).map GgufMetadata.splitPart := by
  obtain ⟨alignment, index, count⟩ := metadata
  cases a <;> cases b <;> cases index <;> cases count <;>
    simp [GgufMetadata.apply, GgufMetadata.splitPart]

/-- Steps that look at the split part only, after states with the same one. -/
theorem splitPart_bind {x y : Option GgufMetadata} {f : GgufMetadata → Option GgufMetadata}
    (h : x.map GgufMetadata.splitPart = y.map GgufMetadata.splitPart)
    (hf : ∀ a b : GgufMetadata, a.splitPart = b.splitPart →
      (f a).map GgufMetadata.splitPart = (f b).map GgufMetadata.splitPart) :
    (x.bind f).map GgufMetadata.splitPart = (y.bind f).map GgufMetadata.splitPart := by
  cases x with
  | none =>
      cases y with
      | none => rfl
      | some b => cases h
  | some a =>
      cases y with
      | none => cases h
      | some b => exact hf a b (Option.some.inj h)

theorem splitPart_add {a b : GgufMetadata} (h : a.splitPart = b.splitPart) (entry : GgufEntry) :
    (a.add entry).map GgufMetadata.splitPart = (b.add entry).map GgufMetadata.splitPart := by
  rw [add_eq_effect, add_eq_effect]
  cases entry.effect with
  | none => rfl
  | some effect => exact splitPart_apply h effect

theorem splitPart_foldlM {entries : List GgufEntry} {a b : GgufMetadata}
    (h : a.splitPart = b.splitPart) :
    (entries.foldlM GgufMetadata.add a).map GgufMetadata.splitPart =
      (entries.foldlM GgufMetadata.add b).map GgufMetadata.splitPart := by
  induction entries generalizing a b with
  | nil => exact congrArg some h
  | cons entry rest ih => exact splitPart_bind (splitPart_add h entry) fun _ _ => ih

/-- The order of the entries makes no difference to the split part. -/
theorem splitPart_of_perm {entries entries' : List GgufEntry} (h : entries.Perm entries')
    (metadata : GgufMetadata) :
    (entries.foldlM GgufMetadata.add metadata).map GgufMetadata.splitPart =
      (entries'.foldlM GgufMetadata.add metadata).map GgufMetadata.splitPart := by
  induction h generalizing metadata with
  | nil => rfl
  | cons entry hperm ih =>
      rw [List.foldlM_cons, List.foldlM_cons]
      cases metadata.add entry with
      | none => rfl
      | some next => exact ih next
  | swap a b rest =>
      simp only [List.foldlM_cons]
      change ((metadata.add b).bind fun next => (next.add a).bind _).map _ =
        ((metadata.add a).bind fun next => (next.add b).bind _).map _
      rw [← Option.bind_assoc, ← Option.bind_assoc]
      refine splitPart_bind ?_ fun _ _ => splitPart_foldlM
      simp only [add_eq_effect]
      cases a.effect with
      | none => cases b.effect <;> simp
      | some ea =>
          cases b.effect with
          | none => simp
          | some eb => exact splitPart_comm metadata eb ea
  | trans _ _ ih ih' => rw [ih, ih']

end Effects

/-- A GGUF file by its metadata entries and what stands behind them. -/
structure GgufParts where
  version : Nat
  tensorCount : Nat
  entries : List GgufEntry
  tail : List UInt8

namespace GgufParts

def file (parts : GgufParts) : List UInt8 :=
  encodeHead parts.version parts.tensorCount parts.entries ++ parts.tail

/-- The numbers fit the fields that state them, and the entries are entries. -/
structure Encoded (parts : GgufParts) : Prop where
  version : parts.version < 256 ^ 4
  tensorCount : parts.tensorCount < 256 ^ 8
  entryCount : parts.entries.length < 256 ^ 8
  entries : ∀ entry ∈ parts.entries, entry.WellFormed

/-- The entries in another order; all else stays. -/
def reordered (parts : GgufParts) (entries : List GgufEntry) : GgufParts := { parts with entries }

/-- The file passes all checks when its tensor offsets are checked against an alignment. -/
def FitsUnder (parts : GgufParts) (alignment : Nat) : Prop :=
  (headOf parts.version parts.tensorCount parts.entries).isSome = true ∧
    TailFits parts.file.length (encodeHead parts.version parts.tensorCount parts.entries).length
      alignment parts.tensorCount parts.tail

end GgufParts

section Order
variable {parts : GgufParts} {entries : List GgufEntry}

theorem length_encodeHead_of_perm {version tensorCount : Nat} {entries entries' : List GgufEntry}
    (h : entries.Perm entries') : (encodeHead version tensorCount entries).length =
      (encodeHead version tensorCount entries').length := by
  simp only [encodeHead, List.length_append, h.length_eq, (h.flatMap_right _).length_eq]

theorem GgufParts.Encoded.reordered (h : parts.Encoded) (hperm : entries.Perm parts.entries) :
    (parts.reordered entries).Encoded where
  version := h.version
  tensorCount := h.tensorCount
  entryCount := hperm.length_eq ▸ h.entryCount
  entries := fun entry hmem => h.entries entry (hperm.subset hmem)

/-- The count of the tensors and the split are the same for every order. -/
theorem headOf_of_perm {version tensorCount : Nat} {entries entries' : List GgufEntry}
    (h : entries.Perm entries') {head : GgufHead}
    (hhead : headOf version tensorCount entries = some head) :
    ∃ alignment, headOf version tensorCount entries' = some { head with alignment } := by
  rw [headOf, Option.ite_none_right_eq_some] at hhead
  obtain ⟨hchecks, hhead⟩ := hhead
  obtain ⟨metadata, hfold, hhead⟩ := Option.bind_eq_some_iff.mp hhead
  obtain ⟨split, hsplit, hhead⟩ := Option.map_eq_some_iff.mp hhead
  have hsame := splitPart_of_perm h .initial
  rw [hfold] at hsame
  obtain ⟨other, hother, hpart⟩ := Option.map_eq_some_iff.mp hsame.symm
  have hsplit' : other.split.toOption = some split := by
    simp only [GgufMetadata.splitPart, Prod.mk.injEq] at hpart
    rw [GgufMetadata.split, hpart.1, hpart.2]
    exact hsplit
  cases hhead
  refine ⟨other.alignment, ?_⟩
  rw [headOf, if_pos (h.length_eq ▸ hchecks), hother, Option.bind_some, hsplit']
  rfl

theorem reordered_fitsUnder (hperm : entries.Perm parts.entries) (alignment : Nat) :
    (parts.reordered entries).FitsUnder alignment ↔ parts.FitsUnder alignment := by
  have hlength := @length_encodeHead_of_perm parts.version parts.tensorCount _ _ hperm
  have hhead : (headOf parts.version parts.tensorCount entries).isSome = true ↔
      (headOf parts.version parts.tensorCount parts.entries).isSome = true := by
    simp only [Option.isSome_iff_exists]
    constructor
    · rintro ⟨head, h⟩
      obtain ⟨alignment, h⟩ := headOf_of_perm hperm h
      exact ⟨_, h⟩
    · rintro ⟨head, h⟩
      obtain ⟨alignment, h⟩ := headOf_of_perm hperm.symm h
      exact ⟨_, h⟩
  simp only [GgufParts.FitsUnder, GgufParts.file, GgufParts.reordered, List.length_append, hlength,
    hhead]

/-- A file is accepted exactly when it fits under the alignment in force. -/
theorem verdict_file (h : parts.Encoded) {result : Nat × Option GgufSplitInfo} :
    verdict parts.file = some result ↔ parts.FitsUnder (alignmentOf parts.entries) ∧
      (headOf parts.version parts.tensorCount parts.entries).map
        (fun head => (head.tensorCount, head.split)) = some result := by
  rw [GgufParts.file, verdict_encodeHead h.version h.tensorCount h.entryCount h.entries,
    GgufParts.FitsUnder, GgufParts.file]
  constructor
  · rintro ⟨head, hhead, hfits, rfl⟩
    obtain ⟨hcount, _, halignment, _⟩ := headOf_eq_some h.entries hhead
    rw [halignment, hcount] at hfits
    rw [hhead]
    exact ⟨⟨rfl, hfits⟩, rfl⟩
  · rintro ⟨⟨_, hfits⟩, hresult⟩
    obtain ⟨head, hhead, rfl⟩ := Option.map_eq_some_iff.mp hresult
    obtain ⟨hcount, _, halignment, _⟩ := headOf_eq_some h.entries hhead
    rw [← halignment, ← hcount] at hfits
    exact ⟨head, hhead, hfits, rfl⟩

theorem isSome_verdict_file (h : parts.Encoded) : (verdict parts.file).isSome = true ↔
    parts.FitsUnder (alignmentOf parts.entries) := by
  rw [Option.isSome_iff_exists]
  constructor
  · rintro ⟨result, hresult⟩
    exact ((verdict_file h).mp hresult).1
  · intro hfits
    obtain ⟨head, hhead⟩ := Option.isSome_iff_exists.mp hfits.1
    exact ⟨(head.tensorCount, head.split), (verdict_file h).mpr ⟨hfits, by rw [hhead]; rfl⟩⟩

theorem alignmentOf_cases (entries : List GgufEntry) :
    (∃ entry ∈ entries, entry.IsAlignment ∧ alignmentOf entries = entry.value.number) ∨
      ((∀ entry ∈ entries, ¬ entry.IsAlignment) ∧ alignmentOf entries = 32) := by
  rw [alignmentOf]
  cases hlast : (entries.filter fun entry => entry.IsAlignment).getLast? with
  | none =>
      rw [List.getLast?_eq_none_iff, List.filter_eq_nil_iff] at hlast
      exact .inr ⟨fun entry hmem => by simpa using hlast entry hmem, rfl⟩
  | some entry =>
      have hmem := List.mem_of_getLast? hlast
      rw [List.mem_filter, decide_eq_true_eq] at hmem
      exact .inl ⟨entry, hmem.1, hmem.2, rfl⟩

/-- Each entry that states an alignment is the last one in some order. -/
theorem exists_order_of_mem {entry : GgufEntry} (hmem : entry ∈ entries) (h : entry.IsAlignment) :
    ∃ order, order.Perm entries ∧ alignmentOf order = entry.value.number := by
  obtain ⟨front, back, rfl⟩ := List.append_of_mem hmem
  refine ⟨front ++ back ++ [entry], ?_, ?_⟩
  · rw [List.append_assoc]
    exact (List.perm_append_singleton entry back).append_left front
  · rw [alignmentOf, List.filter_append, List.filter_cons_of_pos (by simpa using h), List.filter_nil,
      List.getLast?_concat]
    rfl

/-- Both verdicts are the same for every order of the entries. -/
def GgufParts.VerdictFixed (parts : GgufParts) : Prop :=
  ∀ entries : List GgufEntry, entries.Perm parts.entries →
    verdict (parts.reordered entries).file = verdict parts.file

/-- A file that is accepted has its offsets checked against the same alignment in every order. -/
def GgufParts.AlignmentFixed (parts : GgufParts) : Prop :=
  (verdict parts.file).isSome = true → ∀ entries : List GgufEntry, entries.Perm parts.entries →
    alignmentOf entries = alignmentOf parts.entries

/-- The verdict is fixed if all alignments that the entries state agree on the checks. -/
theorem verdictFixed_of_agree (h : parts.Encoded)
    (hagree : ∀ e ∈ parts.entries, ∀ e' ∈ parts.entries, e.IsAlignment → e'.IsAlignment →
      parts.FitsUnder e.value.number → parts.FitsUnder e'.value.number) : parts.VerdictFixed := by
  intro entries hperm
  have hsame : parts.FitsUnder (alignmentOf entries) ↔
      parts.FitsUnder (alignmentOf parts.entries) := by
    rcases alignmentOf_cases entries with ⟨e, hmem, hin, hnumber⟩ | ⟨hnone, hdefault⟩
    · rcases alignmentOf_cases parts.entries with ⟨e', hmem', hin', hnumber'⟩ | ⟨hnone, _⟩
      · rw [hnumber, hnumber']
        exact ⟨hagree e (hperm.subset hmem) e' hmem' hin hin',
          hagree e' hmem' e (hperm.subset hmem) hin' hin⟩
      · exact absurd hin (hnone e (hperm.subset hmem))
    · rcases alignmentOf_cases parts.entries with ⟨e', hmem', hin', _⟩ | ⟨_, hdefault'⟩
      · exact absurd hin' (hnone e' (hperm.symm.subset hmem'))
      · rw [hdefault, hdefault']
  apply Option.ext
  intro result
  rw [verdict_file h, verdict_file (h.reordered hperm), reordered_fitsUnder hperm]
  refine and_congr hsame ?_
  constructor
  · intro hresult
    obtain ⟨head, hhead, rfl⟩ := Option.map_eq_some_iff.mp hresult
    obtain ⟨alignment, hother⟩ := headOf_of_perm hperm hhead
    exact Option.map_eq_some_iff.mpr ⟨_, hother, rfl⟩
  · intro hresult
    obtain ⟨head, hhead, rfl⟩ := Option.map_eq_some_iff.mp hresult
    obtain ⟨alignment, hother⟩ := headOf_of_perm hperm.symm hhead
    exact Option.map_eq_some_iff.mpr ⟨_, hother, rfl⟩

/-- In the order in which an entry is the last one, its alignment is in force. -/
theorem verdict_of_last (h : parts.Encoded) {entry : GgufEntry} (hmem : entry ∈ parts.entries)
    (hin : entry.IsAlignment) : ∃ order, order.Perm parts.entries ∧
      alignmentOf order = entry.value.number ∧
      ((verdict (parts.reordered order).file).isSome = true ↔
        parts.FitsUnder entry.value.number) := by
  obtain ⟨order, hperm, hnumber⟩ := exists_order_of_mem hmem hin
  refine ⟨order, hperm, hnumber, ?_⟩
  rw [isSome_verdict_file (h.reordered hperm), reordered_fitsUnder hperm, ← hnumber]
  rfl

/-- The verdict, and the alignment behind it, are the same for every order of the metadata
entries exactly when the entries that state an alignment agree, as far as the file fits
under one of them at all. -/
theorem gguf_order_exact {parts : GgufParts} (h : parts.Encoded) :
    (parts.VerdictFixed ↔
      ∀ e ∈ parts.entries, ∀ e' ∈ parts.entries, e.IsAlignment → e'.IsAlignment →
        parts.FitsUnder e.value.number → parts.FitsUnder e'.value.number) ∧
    (parts.VerdictFixed ∧ parts.AlignmentFixed ↔
      ∀ e ∈ parts.entries, ∀ e' ∈ parts.entries, e.IsAlignment → e'.IsAlignment →
        parts.FitsUnder e.value.number → e'.value.number = e.value.number) := by
  constructor
  · constructor
    · intro hfixed e hmem e' hmem' hin hin' hfits
      obtain ⟨order, hperm, _, hverdict⟩ := verdict_of_last h hmem hin
      obtain ⟨order', hperm', _, hverdict'⟩ := verdict_of_last h hmem' hin'
      rw [← hverdict', hfixed order' hperm', ← hfixed order hperm, hverdict]
      exact hfits
    · exact verdictFixed_of_agree h
  · constructor
    · rintro ⟨hfixed, halignment⟩ e hmem e' hmem' hin hin' hfits
      obtain ⟨order, hperm, hnumber, hverdict⟩ := verdict_of_last h hmem hin
      obtain ⟨order', hperm', hnumber', _⟩ := verdict_of_last h hmem' hin'
      have haccepted : (verdict parts.file).isSome = true := by
        rw [← hfixed order hperm, hverdict]
        exact hfits
      rw [← hnumber, ← hnumber', halignment haccepted order hperm, halignment haccepted order' hperm']
    · intro hagree
      refine ⟨verdictFixed_of_agree h fun e hmem e' hmem' hin hin' hfits => ?_, ?_⟩
      · rw [hagree e hmem e' hmem' hin hin' hfits]
        exact hfits
      · intro haccepted entries hperm
        rw [isSome_verdict_file h] at haccepted
        rcases alignmentOf_cases parts.entries with ⟨e, hmem, hin, hnumber⟩ | ⟨hnone, hdefault⟩
        · rcases alignmentOf_cases entries with ⟨e', hmem', hin', hnumber'⟩ | ⟨hnone, _⟩
          · rw [hnumber] at haccepted ⊢
            rw [hnumber']
            exact hagree e hmem e' (hperm.subset hmem') hin hin' haccepted
          · exact absurd hin (hnone e (hperm.symm.subset hmem))
        · rcases alignmentOf_cases entries with ⟨e', hmem', hin', _⟩ | ⟨_, hdefault'⟩
          · exact absurd hin' (hnone e' (hperm.subset hmem'))
          · rw [hdefault, hdefault']

def sampleAlignment (alignment : Nat) : GgufEntry :=
  ⟨utf8 "general.alignment", .scalar 4 (leBytes 4 alignment)⟩

/-- Two tensors of one number each, 32 bytes apart. -/
def sampleParts (alignments : List Nat) : GgufParts where
  version := 3
  tensorCount := 2
  entries := alignments.map sampleAlignment
  tail := TensorInfo.encode ⟨utf8 "a", [1], 0, 0⟩ ++ (TensorInfo.encode ⟨utf8 "b", [1], 0, 32⟩ ++
    List.replicate 128 0)

theorem sampleParts_encoded (alignments : List Nat) (h : alignments.length < 256 ^ 8) :
    (sampleParts alignments).Encoded where
  version := by simp [sampleParts]
  tensorCount := by simp [sampleParts]
  entryCount := by simpa [sampleParts] using h
  entries := by
    intro entry hmem
    obtain ⟨alignment, _, rfl⟩ := List.mem_map.mp hmem
    have hkey : (utf8 "general.alignment").length < 256 ^ 8 := by decide +kernel
    exact ⟨hkey, .scalar (by rw [length_leBytes]; rfl)⟩

/-- A file with one entry for the alignment. -/
theorem gguf_order_exact_sample : (sampleParts [32]).VerdictFixed := by
  refine (gguf_order_exact (sampleParts_encoded [32] (by decide))).1.mpr ?_
  intro e hmem e' hmem' _ _ hfits
  simp only [sampleParts, List.map_cons, List.map_nil, List.mem_singleton] at hmem hmem'
  rw [hmem', ← hmem]
  exact hfits

/-- Two entries for the alignment: the file is accepted in one order and refused in the other. -/
theorem gguf_order_fails :
    verdict (sampleParts [64, 32]).file = some (2, none) ∧
      verdict ((sampleParts [64, 32]).reordered (sampleParts [32, 64]).entries).file = none ∧
      ¬ (sampleParts [64, 32]).VerdictFixed := by
  have haccepted : verdict (sampleParts [64, 32]).file = some (2, none) := by decide +kernel
  have hrefused : verdict ((sampleParts [64, 32]).reordered
      (sampleParts [32, 64]).entries).file = none := by decide +kernel
  refine ⟨haccepted, hrefused, fun hfixed => ?_⟩
  have hsame := hfixed (sampleParts [32, 64]).entries (.swap _ _ _)
  rw [haccepted, hrefused] at hsame
  cases hsame

end Order

end MindOne.Engine
