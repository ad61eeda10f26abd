import MindOne.Archives.Links

/-!
# What the entries of an archive say

Read one after the other, the entries name files, directories and links. What has been
read stands in the tree, with names that mean only themselves, and the links are noted
for later.
-/

namespace MindOne.Archives

open CheckedArithmetic MindOne.Stream

/-! ### What the entries say -/

/-- The path of an entry, unless it names the destination itself. -/
def TarEntry.place (entry : TarEntry) : Option Path :=
  match safeArchivePath entry.path with
  | .ok path => if path = [] then none else some path
  | .error _ => none

def TarEntry.regular? (entry : TarEntry) : Option (Path × List UInt8) :=
  if entry.kind = .regular then
    entry.place.bind fun path => entry.content.map fun content => (path, content)
  else none

def TarEntry.directory? (entry : TarEntry) : Option Path :=
  if entry.kind = .directory then entry.place else none

def TarEntry.link? (entry : TarEntry) : Option Link :=
  if entry.kind = .symlink then
    entry.place.bind fun path => entry.linkName.bind fun linkName =>
      (resolveArchiveLinkTarget path.dropLast linkName).toOption.map fun target => (path, target)
  else none

section Entries
variable (entries : List TarEntry)

def regularEntries : List (Path × List UInt8) := entries.filterMap TarEntry.regular?

def directoryEntries : List Path := entries.filterMap TarEntry.directory?

def linkEntries : List Link := entries.filterMap TarEntry.link?

/-- The paths that the files and the links claim. -/
def claimedPaths : List Path :=
  (regularEntries entries).map Prod.fst ++ (linkEntries entries).map Prod.fst

/-- A regular entry, or a link that leads to one by names inside the archive. -/
abbrev Leads : Path → List UInt8 → Prop :=
  Reached (fun path content => (path, content) ∈ regularEntries entries) (linkEntries entries)

end Entries

/-- A name that means only itself. -/
def PlainName (name : Name) : Prop := name ≠ [] ∧ name ≠ [dot] ∧ name ≠ [dot, dot] ∧ slash ∉ name

/-! ### Names -/

theorem slash_not_mem_of_splitOn {path segment : List UInt8} (h : segment ∈ path.splitOn slash) :
    slash ∉ segment := by
  induction path generalizing segment with
  | nil =>
      rw [List.splitOn_nil, List.mem_singleton] at h
      rw [h]
      exact List.not_mem_nil
  | cons byte rest ih =>
      rw [List.splitOn_cons_eq_if_modifyHead] at h
      split_ifs at h with hslash
      · rcases List.mem_cons.mp h with rfl | h
        · exact List.not_mem_nil
        · exact ih h
      · cases hsegments : rest.splitOn slash with
        | nil => exact absurd hsegments (List.splitOn_ne_nil _ _)
        | cons first others =>
            rw [hsegments, List.modifyHead_cons] at h
            rw [hsegments] at ih
            rcases List.mem_cons.mp h with rfl | h
            · rw [List.mem_cons, not_or]
              refine ⟨fun hsame => hslash ?_, ih List.mem_cons_self⟩
              rw [hsame, beq_self_eq_true]
            · exact ih (List.mem_cons_of_mem _ h)

theorem plainName_of_component {path : List UInt8} {name : Name}
    (h : Component.normal name ∈ components path) : PlainName name := by
  simp only [components, List.mem_append, List.mem_filterMap] at h
  rcases h with h | ⟨segment, hsegment, hname⟩
  · split_ifs at h
    · rw [List.mem_singleton] at h
      cases h
    · rw [List.mem_singleton] at h
      cases h
    · exact absurd h List.not_mem_nil
  · split_ifs at hname with hempty hparent
    · cases hname
    · cases hname
      exact ⟨fun hnil => hempty (.inl hnil), fun hdot => hempty (.inr hdot), hparent,
        slash_not_mem_of_splitOn hsegment⟩

theorem plainName_of_safeArchivePath {raw : List UInt8} {path : Path}
    (h : safeArchivePath raw = .ok path) : ∀ name ∈ path, PlainName name := by
  refine foldlM_preserves (P := fun path => ∀ name ∈ path, PlainName name) h
    (fun _ hname => absurd hname List.not_mem_nil) ?_
  intro component hcomponent normalized next hnext hplain name hname
  cases component with
  | rootDir => cases hnext
  | parentDir => cases hnext
  | curDir =>
      cases hnext
      exact hplain name hname
  | normal last =>
      cases hnext
      rcases List.mem_append.mp hname with hname | hname
      · exact hplain name hname
      · rw [List.mem_singleton.mp hname]
        exact plainName_of_component hcomponent

theorem toOption_eq_some {ε α : Type} {x : Except ε α} {a : α} :
    x.toOption = some a ↔ x = .ok a := by
  cases x with
  | error e => exact iff_of_false (fun h => by cases h) (fun h => by cases h)
  | ok b =>
      rw [Except.toOption, Option.some.injEq, Except.ok.injEq]

section Places
variable {entry : TarEntry} {path : Path}

theorem place_eq_some : entry.place = some path ↔ safeArchivePath entry.path = .ok path ∧ path ≠ [] := by
  rw [TarEntry.place]
  cases hsafe : safeArchivePath entry.path with
  | error error => exact iff_of_false (fun h => by cases h) (fun h => by cases h.1)
  | ok found =>
      simp only [Option.ite_none_left_eq_some, Option.some.injEq, Except.ok.injEq]
      constructor
      · rintro ⟨hne, rfl⟩
        exact ⟨rfl, hne⟩
      · rintro ⟨rfl, hne⟩
        exact ⟨hne, rfl⟩

theorem regular?_eq_some {content : List UInt8} : entry.regular? = some (path, content) ↔
    entry.kind = .regular ∧ entry.place = some path ∧ entry.content = some content := by
  simp only [TarEntry.regular?, Option.ite_none_right_eq_some, Option.bind_eq_some_iff,
    Option.map_eq_some_iff, Prod.mk.injEq]
  constructor
  · rintro ⟨hkind, place, hplace, found, hfound, rfl, rfl⟩
    exact ⟨hkind, hplace, hfound⟩
  · rintro ⟨hkind, hplace, hfound⟩
    exact ⟨hkind, path, hplace, content, hfound, rfl, rfl⟩

theorem directory?_eq_some : entry.directory? = some path ↔
    entry.kind = .directory ∧ entry.place = some path := by
  rw [TarEntry.directory?, Option.ite_none_right_eq_some]

theorem link?_eq_some {target : Path} : entry.link? = some (path, target) ↔
    entry.kind = .symlink ∧ entry.place = some path ∧
      ∃ linkName, entry.linkName = some linkName ∧
        resolveArchiveLinkTarget path.dropLast linkName = .ok target := by
  simp only [TarEntry.link?, Option.ite_none_right_eq_some, Option.bind_eq_some_iff,
    Option.map_eq_some_iff, Prod.mk.injEq, toOption_eq_some]
  constructor
  · rintro ⟨hkind, place, hplace, linkName, hname, found, hfound, rfl, rfl⟩
    exact ⟨hkind, hplace, linkName, hname, hfound⟩
  · rintro ⟨hkind, hplace, linkName, hname, hfound⟩
    exact ⟨hkind, path, hplace, linkName, hname, target, hfound, rfl, rfl⟩

theorem ne_nil_of_resolve {start target : Path} {linkName : List UInt8}
    (h : resolveArchiveLinkTarget start linkName = .ok target) : target ≠ [] := by
  simp only [resolveArchiveLinkTarget, bind_eq_ok, rejectIf_eq_ok] at h
  obtain ⟨resolved, -, _, hne, hresolved⟩ := h
  cases hresolved
  exact hne

end Places

/-! ### Reading the entries -/

/-- What has been read is there, and the links are noted. -/
structure ReadSo (entries : List TarEntry) (state : Reading) : Prop where
  laid : Laid (fun path content => (path, content) ∈ regularEntries entries)
    (fun dir => dir = [] ∨ dir ∈ directoryEntries entries) state.extracted.tree
  paths : ∀ path, path ∈ state.paths ↔ path ∈ claimedPaths entries
  pending : state.pending = (linkEntries entries).reverse
  distinct : (claimedPaths entries).Nodup
  size : state.extracted.totalBytes =
    ((regularEntries entries).map fun file => file.2.length).sum
  bounded : state.extracted.totalBytes ≤ maxExtractedBytes
  accepted : ∀ entry ∈ entries, safeArchivePath entry.path = .ok [] ∨
    entry.directory?.isSome = true ∨
    (∃ path content, entry.regular? = some (path, content) ∧ entry.size = some content.length) ∨
    ∃ path target, entry.link? = some (path, target)

section Reading
variable {entries : List TarEntry} {entry : TarEntry} {state next : Reading} {path : Path}

theorem filterMap_concat {α : Type} {f : TarEntry → Option α} :
    (entries ++ [entry]).filterMap f = entries.filterMap f ++ (f entry).toList := by
  rw [List.filterMap_append]
  cases hentry : f entry with
  | none => rw [List.filterMap_cons_none hentry, List.filterMap_nil, Option.toList_none]
  | some a => rw [List.filterMap_cons_some hentry, List.filterMap_nil, Option.toList_some]

theorem claimed_concat : (claimedPaths (entries ++ [entry])).Perm
    ((entry.regular?.map Prod.fst).toList ++ (entry.link?.map Prod.fst).toList ++
      claimedPaths entries) := by
  have hmap : ∀ {α : Type} (found : Option (Path × α)),
      found.toList.map Prod.fst = (found.map Prod.fst).toList := by
    intro α found
    cases found with
    | none => rfl
    | some pair => rfl
  rw [claimedPaths, claimedPaths, regularEntries, regularEntries, linkEntries, linkEntries,
    filterMap_concat, filterMap_concat, List.map_append, List.map_append, hmap, hmap]
  refine List.perm_iff_count.mpr fun path => ?_
  simp only [List.count_append]
  omega

/-- What is accepted stays accepted. -/
theorem ReadSo.accepted_concat (h : ReadSo entries state)
    (hentry : safeArchivePath entry.path = .ok [] ∨ entry.directory?.isSome = true ∨
      (∃ path content, entry.regular? = some (path, content) ∧ entry.size = some content.length) ∨
      ∃ path target, entry.link? = some (path, target)) :
    ∀ other ∈ entries ++ [entry], safeArchivePath other.path = .ok [] ∨
      other.directory?.isSome = true ∨
      (∃ path content, other.regular? = some (path, content) ∧ other.size = some content.length) ∨
      ∃ path target, other.link? = some (path, target) := by
  intro other hother
  rcases List.mem_append.mp hother with hother | hother
  · exact h.accepted other hother
  · rw [List.mem_singleton.mp hother]
    exact hentry

theorem regular?_of_kind (h : entry.kind ≠ .regular) : entry.regular? = none := if_neg h

theorem directory?_of_kind (h : entry.kind ≠ .directory) : entry.directory? = none := if_neg h

theorem link?_of_kind (h : entry.kind ≠ .symlink) : entry.link? = none := if_neg h

theorem ReadSo.directory (h : ReadSo entries state) (hkind : entry.kind = .directory)
    (hplace : entry.place = some path) (hnext : extractAt state entry path = .ok next) :
    ReadSo (entries ++ [entry]) next := by
  have hdirectory : entry.directory? = some path := directory?_eq_some.mpr ⟨hkind, hplace⟩
  have hregular : entry.regular? = none := regular?_of_kind (by rw [hkind]; decide)
  have hlink : entry.link? = none := link?_of_kind (by rw [hkind]; decide)
  have hclaimed : (claimedPaths (entries ++ [entry])).Perm (claimedPaths entries) := by
    refine claimed_concat.trans ?_
    rw [hregular, hlink]
    exact List.Perm.refl _
  simp only [extractAt, hkind, bind_eq_ok] at hnext
  obtain ⟨tree, htree, hstate⟩ := hnext
  cases hstate
  refine ⟨?_, fun path => (h.paths path).trans hclaimed.mem_iff.symm, ?_,
    hclaimed.nodup_iff.mpr h.distinct, ?_, h.bounded, ?_⟩
  · refine (h.laid.createDirAll htree).congr (fun place content => ?_) (fun dir => ?_)
    · rw [regularEntries, regularEntries, filterMap_concat, hregular, Option.toList_none,
        List.append_nil]
    · rw [directoryEntries, directoryEntries, filterMap_concat, hdirectory, Option.toList_some,
        List.mem_append, List.mem_singleton, or_assoc]
  · rw [linkEntries, filterMap_concat, hlink, Option.toList_none, List.append_nil]
    exact h.pending
  · rw [regularEntries, filterMap_concat, hregular, Option.toList_none, List.append_nil]
    exact h.size
  · refine h.accepted_concat (.inr (.inl ?_))
    rw [hdirectory]
    rfl

theorem ReadSo.link (h : ReadSo entries state) (hkind : entry.kind = .symlink)
    (hplace : entry.place = some path) (hnext : extractAt state entry path = .ok next) :
    ReadSo (entries ++ [entry]) next := by
  simp only [extractAt, hkind, bind_eq_ok, rejectIf_eq_ok, okOr_eq_ok] at hnext
  obtain ⟨_, hnew, linkName, hname, target, htarget, hstate⟩ := hnext
  cases hstate
  have hlink : entry.link? = some (path, target) :=
    link?_eq_some.mpr ⟨hkind, hplace, linkName, hname, htarget⟩
  have hregular : entry.regular? = none := regular?_of_kind (by rw [hkind]; decide)
  have hdirectory : entry.directory? = none := directory?_of_kind (by rw [hkind]; decide)
  have hclaimed : (claimedPaths (entries ++ [entry])).Perm (path :: claimedPaths entries) := by
    refine claimed_concat.trans ?_
    rw [hregular, hlink]
    exact List.Perm.refl _
  refine ⟨?_, ?_, ?_, ?_, ?_, h.bounded, h.accepted_concat (.inr (.inr (.inr ⟨_, _, hlink⟩)))⟩
  · refine h.laid.congr (fun place content => ?_) (fun dir => ?_)
    · rw [regularEntries, regularEntries, filterMap_concat, hregular, Option.toList_none,
        List.append_nil]
    · rw [directoryEntries, directoryEntries, filterMap_concat, hdirectory, Option.toList_none,
        List.append_nil]
  · intro other
    rw [hclaimed.mem_iff, List.mem_cons, List.mem_cons, h.paths]
  · rw [linkEntries, filterMap_concat, hlink, Option.toList_some, List.reverse_append, h.pending]
    rfl
  · rw [hclaimed.nodup_iff, List.nodup_cons, ← h.paths]
    exact ⟨hnew, h.distinct⟩
  · rw [regularEntries, filterMap_concat, hregular, Option.toList_none, List.append_nil]
    exact h.size

theorem ReadSo.regular (h : ReadSo entries state) (hkind : entry.kind = .regular)
    (hplace : entry.place = some path) (hnext : extractAt state entry path = .ok next) :
    ReadSo (entries ++ [entry]) next := by
  simp only [extractAt, hkind, bind_eq_ok, rejectIf_eq_ok, okOr_eq_ok, writeArchiveFile,
    not_not] at hnext
  obtain ⟨_, hnew, size, hsize, total, htotal, tree, ⟨content, hcontent, created, hcreated, _,
    hlength, hwritten⟩, hstate⟩ := hnext
  cases hwritten
  cases hstate
  obtain ⟨hsum, hle⟩ := addExtractedSize_eq_ok.mp htotal
  have hregular : entry.regular? = some (path, content) :=
    regular?_eq_some.mpr ⟨hkind, hplace, hcontent⟩
  have hlink : entry.link? = none := link?_of_kind (by rw [hkind]; decide)
  have hdirectory : entry.directory? = none := directory?_of_kind (by rw [hkind]; decide)
  have hclaimed : (claimedPaths (entries ++ [entry])).Perm (path :: claimedPaths entries) := by
    refine claimed_concat.trans ?_
    rw [hregular, hlink]
    exact List.Perm.refl _
  refine ⟨?_, ?_, ?_, ?_, ?_, hle,
    h.accepted_concat (.inr (.inr (.inl ⟨_, _, hregular, hlength ▸ hsize⟩)))⟩
  · refine (h.laid.createNew hcreated).congr (fun place found => ?_) (fun dir => ?_)
    · rw [regularEntries, regularEntries, filterMap_concat, hregular, Option.toList_some,
        List.mem_append, List.mem_singleton, Prod.mk.injEq]
    · rw [directoryEntries, directoryEntries, filterMap_concat, hdirectory, Option.toList_none,
        List.append_nil]
  · intro other
    rw [hclaimed.mem_iff, List.mem_cons, List.mem_cons, h.paths]
  · rw [linkEntries, filterMap_concat, hlink, Option.toList_none, List.append_nil]
    exact h.pending
  · rw [hclaimed.nodup_iff, List.nodup_cons, ← h.paths]
    exact ⟨hnew, h.distinct⟩
  · rw [regularEntries, filterMap_concat, hregular, Option.toList_some, List.map_append,
      List.sum_append, hsum, h.size, List.map_singleton, List.sum_singleton, hlength]
    rfl

theorem ReadSo.skipped (h : ReadSo entries state) (hempty : safeArchivePath entry.path = .ok []) :
    ReadSo (entries ++ [entry]) state := by
  have hplace : entry.place = none := by
    rw [TarEntry.place, hempty]
    rfl
  have hregular : entry.regular? = none := by
    rw [TarEntry.regular?, hplace, Option.bind_none, ite_self]
  have hdirectory : entry.directory? = none := by
    rw [TarEntry.directory?, hplace, ite_self]
  have hlink : entry.link? = none := by
    rw [TarEntry.link?, hplace, Option.bind_none, ite_self]
  have hclaimed : (claimedPaths (entries ++ [entry])).Perm (claimedPaths entries) := by
    refine claimed_concat.trans ?_
    rw [hregular, hlink]
    exact List.Perm.refl _
  refine ⟨?_, fun path => (h.paths path).trans hclaimed.mem_iff.symm, ?_,
    hclaimed.nodup_iff.mpr h.distinct, ?_, h.bounded, h.accepted_concat (.inl hempty)⟩
  · refine h.laid.congr (fun place content => ?_) (fun dir => ?_)
    · rw [regularEntries, regularEntries, filterMap_concat, hregular, Option.toList_none,
        List.append_nil]
    · rw [directoryEntries, directoryEntries, filterMap_concat, hdirectory, Option.toList_none,
        List.append_nil]
  · rw [linkEntries, filterMap_concat, hlink, Option.toList_none, List.append_nil]
    exact h.pending
  · rw [regularEntries, filterMap_concat, hregular, Option.toList_none, List.append_nil]
    exact h.size

/-- Every entry adds what it says. -/
theorem ReadSo.extract (h : ReadSo entries state) (hnext : extractEntry state entry = .ok next) :
    ReadSo (entries ++ [entry]) next := by
  simp only [extractEntry, bind_eq_ok] at hnext
  obtain ⟨path, hpath, hnext⟩ := hnext
  split_ifs at hnext with hempty
  · cases hnext
    exact h.skipped (hempty ▸ hpath)
  · have hplace := place_eq_some.mpr ⟨hpath, hempty⟩
    cases hkind : entry.kind with
    | directory => exact h.directory hkind hplace hnext
    | symlink => exact h.link hkind hplace hnext
    | regular => exact h.regular hkind hplace hnext
    | other =>
        rw [extractAt, hkind] at hnext
        cases hnext

theorem readSo_empty : ReadSo [] ⟨⟨emptyTree, 0⟩, [], []⟩ where
  laid := by
    constructor
    · intro path content
      refine iff_of_false ?_ List.not_mem_nil
      simp only [emptyTree]
      split_ifs
      · exact fun h => by cases h
      · exact fun h => by cases h
    · intro path
      simp only [emptyTree, Option.ite_none_right_eq_some, and_true]
      constructor
      · rintro rfl
        exact .inl ⟨[], .inl rfl, List.nil_prefix⟩
      · rintro (⟨dir, rfl | hdir, hstem⟩ | ⟨place, content, hfile, -⟩)
        · exact List.prefix_nil.mp hstem
        · exact absurd hdir List.not_mem_nil
        · exact absurd hfile List.not_mem_nil
    · intro path target
      simp only [emptyTree]
      split_ifs
      · exact fun h => by cases h
      · exact fun h => by cases h
  paths _ := Iff.rfl
  pending := rfl
  distinct := List.nodup_nil
  size := rfl
  bounded := Nat.zero_le _
  accepted _ hmem := absurd hmem List.not_mem_nil

/-- The entries are refused whatever the order of the links, or they are all read and only the
links are left. -/
theorem extractEntries_cases (left : Nat) {items : List (Option TarEntry)}
    (h : ReadSo entries state) :
    (∃ error, ∀ order passes, extractEntries order passes left items state = some (.error error)) ∨
    ∃ rest last, items = rest.map some ∧ ReadSo (entries ++ rest) last ∧
      ∀ order passes, extractEntries order passes left items state =
        materializeArchiveLinks order passes last.pending last.extracted := by
  induction items generalizing left entries state with
  | nil =>
      cases left with
      | zero => exact .inl ⟨_, fun _ _ => rfl⟩
      | succ left =>
          refine .inr ⟨[], state, rfl, ?_, fun _ _ => rfl⟩
          rw [List.append_nil]
          exact h
  | cons item items ih =>
      cases left with
      | zero => exact .inl ⟨_, fun _ _ => rfl⟩
      | succ left =>
          cases item with
          | none => exact .inl ⟨_, fun _ _ => rfl⟩
          | some entry =>
              cases hnext : extractEntry state entry with
              | error error =>
                  exact .inl ⟨error, fun _ _ => by simp only [extractEntries, hnext]⟩
              | ok next =>
                  by_cases hlast : left = 0 ∧ entry.kind = .regular ∧
                      safeArchivePath entry.path ≠ .ok []
                  · exact .inl ⟨.tooManyEntries, fun _ _ => by
                      simp only [extractEntries, hnext, if_pos hlast]⟩
                  rcases ih left (h.extract hnext) with ⟨error, herror⟩ |
                    ⟨rest, last, hitems, hread, hrest⟩
                  · refine .inl ⟨error, fun order passes => ?_⟩
                    simp only [extractEntries, hnext, if_neg hlast, herror]
                  · refine .inr ⟨entry :: rest, last, ?_, ?_, fun order passes => ?_⟩
                    · rw [hitems, List.map_cons]
                    · rw [List.append_cons]
                      exact hread
                    · simp only [extractEntries, hnext, if_neg hlast, hrest]

/-! ### Links of a read archive -/

theorem ReadSo.noted (h : ReadSo entries state) :
    Noted (fun path content => (path, content) ∈ regularEntries entries) (linkEntries entries) := by
  obtain ⟨hfiles, hlinks, happart⟩ := List.nodup_append.mp h.distinct
  refine ⟨?_, hlinks, ?_, ?_, ?_⟩
  · intro path content content' hcontent hcontent'
    exact congrArg Prod.snd (List.inj_on_of_nodup_map hfiles hcontent hcontent' rfl)
  · intro link hlink content hfile
    exact happart _ (List.mem_map_of_mem hfile) _ (List.mem_map_of_mem hlink) rfl
  · rintro ⟨path, target⟩ hlink
    obtain ⟨entry, -, hentry⟩ := List.mem_filterMap.mp hlink
    exact (place_eq_some.mp (link?_eq_some.mp hentry).2.1).2
  · rintro ⟨path, target⟩ hlink
    obtain ⟨entry, -, hentry⟩ := List.mem_filterMap.mp hlink
    obtain ⟨-, -, linkName, -, htarget⟩ := link?_eq_some.mp hentry
    exact ne_nil_of_resolve htarget

theorem ReadSo.waiting (h : ReadSo entries state) :
    Pending (linkEntries entries) ∅ state.pending where
  listed link := by
    rw [h.pending, List.mem_reverse]
    exact (and_iff_left (Finset.notMem_empty _)).symm
  distinct := by
    rw [h.pending, List.map_reverse, List.nodup_reverse]
    exact (List.nodup_append.mp h.distinct).2.1

theorem ReadSo.progress (h : ReadSo entries state) :
    Progress (fun path content => (path, content) ∈ regularEntries entries)
      (fun dir => dir = [] ∨ dir ∈ directoryEntries entries) (linkEntries entries)
      state.extracted.totalBytes ∅ state.extracted where
  laid := h.laid.congr (fun path content => by
    refine (or_iff_left ?_).symm
    exact fun hdone => Finset.notMem_empty _ hdone.1) (fun _ => Iff.rfl)
  linked path hpath := absurd hpath (Finset.notMem_empty _)
  reached path hpath := absurd hpath (Finset.notMem_empty _)
  size := by rw [Finset.sum_empty, Nat.add_zero]
  bounded := h.bounded

end Reading

end MindOne.Archives
