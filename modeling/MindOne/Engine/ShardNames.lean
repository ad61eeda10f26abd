import MindOne.Engine.Bundles

/-!
# The names of shards and of their partial files

The name of a shard ends with its number, so the partial file beside it can be told
from every shard, and both ways to compute its name agree.
-/

namespace MindOne.Engine

open CheckedArithmetic MindOne.Stream

section LastSeparator
variable {α : Type} [DecidableEq α] {c : α} {s before after : List α}

theorem rsplitOnce_eq_none : rsplitOnce [c] s = none ↔ c ∉ s := by
  induction s with
  | nil => simp only [rsplitOnce, List.not_mem_nil, not_false_eq_true]
  | cons a rest ih =>
      rw [List.mem_cons, not_or, ← ih]
      have hstarts : [c] <+: a :: rest ↔ c = a := by
        rw [List.cons_prefix_cons]
        exact ⟨fun h => h.1, fun h => ⟨h, List.nil_prefix⟩⟩
      cases hrest : rsplitOnce [c] rest with
      | some found => simp only [rsplitOnce, hrest, reduceCtorEq, and_false]
      | none => simp only [rsplitOnce, hrest, hstarts, ite_eq_right_iff, reduceCtorEq, imp_false,
          and_true]

theorem rsplitOnce_append (h : c ∉ after) :
    rsplitOnce [c] (before ++ c :: after) = some (before, after) := by
  induction before with
  | nil =>
      have hstarts : [c] <+: c :: after := List.cons_prefix_cons.mpr ⟨rfl, List.nil_prefix⟩
      simp only [List.nil_append, rsplitOnce, rsplitOnce_eq_none.mpr h, if_pos hstarts]
      rfl
  | cons a rest ih => simp only [List.cons_append, rsplitOnce, ih]

/-- There is no separator after the last one. -/
theorem not_mem_of_rsplitOnce (h : rsplitOnce [c] s = some (before, after)) : c ∉ after := by
  induction s generalizing before with
  | nil => cases h
  | cons a rest ih =>
      simp only [rsplitOnce] at h
      split at h
      · rename_i hrest
        cases h
        exact ih hrest
      · rename_i hrest
        rw [Option.ite_none_right_eq_some] at h
        obtain ⟨-, hsplit⟩ := h
        cases hsplit
        exact rsplitOnce_eq_none.mp hrest

end LastSeparator

/-- A name is a stem and an extension of four letters, and its stem ends with a digit. -/
structure SplitName (name stem suffix : List Char) : Prop where
  split : name = stem ++ '.' :: suffix
  extension : extension name = some suffix
  gguf : suffix.map Char.toLower = "gguf".toList
  digit : ∃ front last, stem = front ++ [last] ∧ last.isDigit = true

theorem extension_append {stem suffix : List Char} (hstem : stem ≠ []) (hdot : '.' ∉ suffix) :
    extension (stem ++ '.' :: suffix) = some suffix := by
  simp only [extension, rsplitOnce_append hdot, if_neg hstem]

theorem split_of_extension {name suffix : List Char} (h : extension name = some suffix) :
    ∃ stem, name = stem ++ '.' :: suffix ∧ '.' ∉ suffix := by
  unfold extension at h
  split at h
  · rename_i before after hsplit
    rw [Option.ite_none_left_eq_some] at h
    obtain ⟨-, hafter⟩ := h
    cases hafter
    refine ⟨before, ?_, not_mem_of_rsplitOnce hsplit⟩
    rw [eq_of_rsplitOnce hsplit, List.append_assoc]
    rfl
  · cases h

theorem count_of_parse {path : PathBuf} {parsed : GgufSplitFileName}
    (h : parseGgufSplitFilename path = some parsed) : parsed.count ≤ 256 := by
  simp only [parseGgufSplitFilename, Option.bind_eq_bind, Option.bind_eq_some_iff] at h
  obtain ⟨name, -, suffix, -, h⟩ := h
  rw [Option.ite_none_right_eq_some] at h
  obtain ⟨-, h⟩ := h
  simp only [Option.bind_eq_some_iff] at h
  obtain ⟨⟨withIndex, countRaw⟩, -, ⟨splitPrefix, indexRaw⟩, -, h⟩ := h
  rw [Option.ite_none_right_eq_some] at h
  obtain ⟨-, h⟩ := h
  rw [Option.ite_none_right_eq_some] at h
  obtain ⟨⟨⟨-, hle⟩, -⟩, hparsed⟩ := h
  cases hparsed
  exact hle

/-- What the parser accepts is named like a shard. -/
theorem splitName_of_parse {path : PathBuf} {parsed : GgufSplitFileName}
    (h : parseGgufSplitFilename path = some parsed) :
    ∃ name stem suffix, path.fileName = some name ∧ SplitName name.toList stem suffix := by
  simp only [parseGgufSplitFilename, Option.bind_eq_bind, Option.bind_eq_some_iff] at h
  obtain ⟨name, hname, suffix, hextension, h⟩ := h
  rw [Option.ite_none_right_eq_some] at h
  obtain ⟨hgguf, h⟩ := h
  simp only [Option.bind_eq_some_iff] at h
  obtain ⟨⟨withIndex, countRaw⟩, hcount, ⟨splitPrefix, indexRaw⟩, -, h⟩ := h
  rw [Option.ite_none_right_eq_some] at h
  obtain ⟨⟨-, -, hlength, hdigits⟩, -⟩ := h
  obtain ⟨stem, hsplit, -⟩ := split_of_extension hextension
  refine ⟨name, stem, suffix, hname, hsplit, hextension, hgguf, ?_⟩
  have hfour : suffix.length = 4 := by
    rw [← List.length_map Char.toLower, hgguf]
    rfl
  have htake : name.toList.take (name.toList.length - 5) = stem := by
    rw [hsplit, List.length_append, List.length_cons, hfour]
    exact List.take_left' (by omega)
  rw [htake] at hcount
  have hne : countRaw ≠ [] := by
    rintro rfl
    cases hlength
  refine ⟨withIndex ++ "-of-".toList ++ countRaw.dropLast, countRaw.getLast hne, ?_,
    List.all_eq_true.mp hdigits _ (List.getLast_mem hne)⟩
  rw [List.append_assoc, List.dropLast_append_getLast hne]
  exact eq_of_rsplitOnce hcount

theorem toLower_of_isDigit {c : Char} (h : c.isDigit = true) : c.toLower = c := by
  refine dif_neg fun hupper => ?_
  simp only [Char.isDigit, Bool.and_eq_true, decide_eq_true_eq] at h
  exact absurd (UInt32.le_trans hupper.1 h.2) (by decide)

section Partial
variable {name stem suffix : List Char}

theorem SplitName.length (h : SplitName name stem suffix) : suffix.length = 4 := by
  rw [← List.length_map Char.toLower, h.gguf]
  rfl

theorem SplitName.stem_eq (h : SplitName name stem suffix) :
    name.take (name.length - (suffix.length + 1)) = stem := by
  rw [h.split, List.length_append, List.length_cons]
  exact List.take_left' (by omega)

/-- Neither the stem nor what stands before it in a partial file ends like the extension. -/
theorem not_suffix_of_digit {front : List Char} {last : Char} (hdigit : last.isDigit = true)
    (hgguf : suffix.map Char.toLower = "gguf".toList) : ¬ '.' :: suffix <:+ front ++ [last] := by
  rintro ⟨before, h⟩
  have hne : suffix ≠ [] := by
    rintro rfl
    cases hgguf
  have hlast : suffix.getLast hne = last := by
    have hends := congrArg List.getLast? h
    rw [List.getLast?_append, List.getLast?_cons, List.getLast?_concat,
      List.getLast?_eq_some_getLast hne] at hends
    simpa using hends
  have hlower : (suffix.map Char.toLower).getLast? = some 'f' := by
    rw [hgguf]
    rfl
  rw [List.getLast?_map, List.getLast?_eq_some_getLast hne, hlast, Option.map_some,
    Option.some.injEq] at hlower
  rw [toLower_of_isDigit hdigit] at hlower
  subst hlower
  cases hdigit

theorem trimEndMatches_of_not_suffix {s : List Char} (h : ¬ suffix <:+ s) (fuel : Nat) :
    trimEndMatches suffix fuel s = s := by
  cases fuel with
  | zero => rfl
  | succ fuel => exact if_neg h

theorem trimEndMatches_append {s : List Char} (h : ¬ suffix <:+ s) (fuel : Nat) :
    trimEndMatches suffix (fuel + 1) (s ++ suffix) = s := by
  rw [trimEndMatches, if_pos (List.suffix_append s suffix), List.length_append,
    Nat.add_sub_cancel, List.take_left' rfl, trimEndMatches_of_not_suffix h]

/-- Both ways to name the partial file agree. -/
theorem SplitName.downloadPartialName {outputName : String}
    (h : SplitName outputName.toList stem suffix) :
    downloadPartialName outputName suffix = partialNameOf stem suffix := by
  obtain ⟨front, last, hstem, hdigit⟩ := h.digit
  have hnot : ¬ '.' :: suffix <:+ stem := hstem ▸ not_suffix_of_digit hdigit h.gguf
  have hlength : outputName.toList.length = (stem.length + suffix.length) + 1 := by
    rw [h.split, List.length_append, List.length_cons]
    omega
  rw [Engine.downloadPartialName, hlength, h.split, trimEndMatches_append hnot]

theorem toList_partialName (stem suffix : List Char) :
    (partialNameOf stem suffix).toList = ('.' :: (stem ++ ".part".toList)) ++ '.' :: suffix := by
  rw [partialNameOf, String.toList_ofList, List.cons_append, List.append_assoc, List.append_assoc]
  rfl

theorem SplitName.extension_partialName (h : SplitName name stem suffix) :
    Engine.extension (partialNameOf stem suffix).toList = some suffix := by
  obtain ⟨_, -, hdot⟩ := split_of_extension h.extension
  rw [toList_partialName, extension_append (List.cons_ne_nil _ _) hdot]

theorem SplitName.unique {stem' suffix' : List Char} (h : SplitName name stem suffix)
    (h' : SplitName name stem' suffix') : stem = stem' ∧ suffix = suffix' := by
  obtain rfl : suffix = suffix' := Option.some.inj (h.extension.symm.trans h'.extension)
  exact ⟨List.append_cancel_right (h.split.symm.trans h'.split), rfl⟩

/-- A partial file is not named like a shard. -/
theorem SplitName.not_partialName {stem' suffix' : List Char} {other : String}
    (h : SplitName name stem suffix) (h' : SplitName other.toList stem' suffix') :
    other ≠ partialNameOf stem suffix := by
  rintro rfl
  rw [toList_partialName] at h'
  obtain ⟨hstem, -⟩ := List.append_inj' h'.split (by
    rw [List.length_cons, List.length_cons, h.length, h'.length])
  obtain ⟨front, last, hlast, hdigit⟩ := h'.digit
  have hends : some 't' = some last := by
    rw [← List.getLast?_concat (l := front) (a := last), ← hlast, ← hstem,
      ← List.cons_append, List.getLast?_append]
    rfl
  cases hends
  cases hdigit

theorem SplitName.partialName_injective {name' stem' suffix' : List Char}
    (h : SplitName name stem suffix) (h' : SplitName name' stem' suffix')
    (heq : partialNameOf stem suffix = partialNameOf stem' suffix') : name = name' := by
  have hchars := congrArg String.toList heq
  rw [toList_partialName, toList_partialName] at hchars
  obtain ⟨hstem, hsuffix⟩ := List.append_inj' hchars (by
    rw [List.length_cons, List.length_cons, h.length, h'.length])
  rw [List.cons.injEq] at hstem hsuffix
  rw [h.split, h'.split, List.append_cancel_right hstem.2, hsuffix.2]

end Partial

end MindOne.Engine
