import MindOne.Archives.Reading

/-!
# What an archive becomes

If the extraction succeeds, the tree has exactly the regular entries as files, and one
copy for each symbolic link of the file it leads to; every link leads to a file inside
the archive. The order in which the links are visited decides nothing. Directories may be
listed more than once, and entries that name the destination itself are passed over.
-/

namespace MindOne.Archives

open CheckedArithmetic MindOne.Stream

/-- What a successful extraction has made. -/
structure Unpacked (entries : List TarEntry) (tree : Tree) : Prop where
  /-- Everything is below the destination, and no link is made. -/
  confined : ∀ path node, tree path = some node → (∀ name ∈ path, PlainName name) ∧
    (node = .directory ∨ ∃ content, node = .file content)
  files : ∀ path content, tree path = some (.file content) ↔ Leads entries path content
  directories : ∀ path, tree path = some .directory ↔ path = [] ∨
    (∃ dir ∈ directoryEntries entries, path <+: dir) ∨
    ∃ place content, Leads entries place content ∧ path <+: place ∧ path ≠ place
  distinct : (claimedPaths entries).Nodup
  apart : ∀ path ∈ claimedPaths entries, path ∉ directoryEntries entries
  /-- Every other entry is a directory, a file or a link that leads to a file. -/
  accepted : ∀ entry ∈ entries, safeArchivePath entry.path = .ok [] ∨
    entry.directory?.isSome = true ∨
    (∃ path content, entry.regular? = some (path, content) ∧ entry.size = some content.length) ∨
    ∃ path target content, entry.link? = some (path, target) ∧ Leads entries target content
  bounded : ((claimedPaths entries).map (treeSize tree)).sum ≤ maxExtractedBytes

section Extraction
variable {entries : List TarEntry} {state : Reading} {tree : Tree} {path : Path}
  {content : List UInt8}

/-! ### Names -/

theorem plainName_of_place {entry : TarEntry} (h : entry.place = some path) :
    ∀ name ∈ path, PlainName name :=
  plainName_of_safeArchivePath (place_eq_some.mp h).1

theorem claimed_of_leads (h : Leads entries path content) : path ∈ claimedPaths entries := by
  rw [claimedPaths, List.mem_append]
  cases h with
  | file hfile => exact .inl (List.mem_map_of_mem hfile)
  | link hlink _ => exact .inr (List.mem_map_of_mem hlink)

theorem plainName_of_claimed (h : path ∈ claimedPaths entries) :
    ∀ name ∈ path, PlainName name := by
  rcases List.mem_append.mp h with h | h
  · obtain ⟨⟨place, content⟩, hfile, rfl⟩ := List.mem_map.mp h
    obtain ⟨entry, -, hentry⟩ := List.mem_filterMap.mp hfile
    exact plainName_of_place (regular?_eq_some.mp hentry).2.1
  · obtain ⟨⟨place, target⟩, hlink, rfl⟩ := List.mem_map.mp h
    obtain ⟨entry, -, hentry⟩ := List.mem_filterMap.mp hlink
    exact plainName_of_place (link?_eq_some.mp hentry).2.1

theorem plainName_of_directory (h : path ∈ directoryEntries entries) :
    ∀ name ∈ path, PlainName name := by
  obtain ⟨entry, -, hentry⟩ := List.mem_filterMap.mp h
  exact plainName_of_place (directory?_eq_some.mp hentry).2

/-! ### The tree of a read archive -/

/-- The tree in which every link is a copy. -/
abbrev Finished (entries : List TarEntry) (start : Nat) (tree : Tree) : Prop :=
  Whole (fun path content => (path, content) ∈ regularEntries entries)
    (fun dir => dir = [] ∨ dir ∈ directoryEntries entries) (linkEntries entries) start tree

theorem leads_of_claimed {start : Nat} (h : Finished entries start tree)
    (hpath : path ∈ claimedPaths entries) : ∃ content, Leads entries path content := by
  rcases List.mem_append.mp hpath with hpath | hpath
  · obtain ⟨⟨place, content⟩, hfile, rfl⟩ := List.mem_map.mp hpath
    exact ⟨content, .file hfile⟩
  · obtain ⟨link, hlink, rfl⟩ := List.mem_map.mp hpath
    exact h.complete link hlink

theorem ReadSo.unpacked (h : ReadSo entries state)
    (hwhole : Finished entries state.extracted.totalBytes tree) : Unpacked entries tree := by
  have hdirectories : ∀ path, tree path = some .directory ↔ path = [] ∨
      (∃ dir ∈ directoryEntries entries, path <+: dir) ∨
      ∃ place content, Leads entries place content ∧ path <+: place ∧ path ≠ place := by
    intro path
    rw [hwhole.laid.directory, ← or_assoc]
    refine or_congr ?_ Iff.rfl
    constructor
    · rintro ⟨dir, rfl | hdir, hstem⟩
      · exact .inl (List.prefix_nil.mp hstem)
      · exact .inr ⟨dir, hdir, hstem⟩
    · rintro (rfl | ⟨dir, hdir, hstem⟩)
      · exact ⟨[], .inl rfl, List.nil_prefix⟩
      · exact ⟨dir, .inr hdir, hstem⟩
  refine ⟨?_, hwhole.laid.file, hdirectories, h.distinct, ?_, ?_, ?_⟩
  · intro path node hnode
    cases node with
    | symlink target => exact absurd hnode (hwhole.laid.symlink path target)
    | file content =>
        refine ⟨?_, .inr ⟨content, rfl⟩⟩
        exact plainName_of_claimed (claimed_of_leads ((hwhole.laid.file path content).mp hnode))
    | directory =>
        refine ⟨?_, .inl rfl⟩
        intro name hname
        rcases (hdirectories path).mp hnode with rfl | ⟨dir, hdir, hstem⟩ |
          ⟨place, content, hleads, hstem, -⟩
        · exact absurd hname List.not_mem_nil
        · exact plainName_of_directory hdir name (hstem.subset hname)
        · exact plainName_of_claimed (claimed_of_leads hleads) name (hstem.subset hname)
  · intro path hclaimed hdirectory
    obtain ⟨content, hleads⟩ := leads_of_claimed hwhole hclaimed
    have hnode := (hdirectories path).mpr (.inr (.inl ⟨path, hdirectory, List.prefix_rfl⟩))
    rw [(hwhole.laid.file path content).mpr hleads] at hnode
    cases hnode
  · intro entry hentry
    rcases h.accepted entry hentry with hempty | hdirectory | hregular | ⟨path, target, hlink⟩
    · exact .inl hempty
    · exact .inr (.inl hdirectory)
    · exact .inr (.inr (.inl hregular))
    · have hmem : (path, target) ∈ linkEntries entries :=
        List.mem_filterMap.mpr ⟨entry, hentry, hlink⟩
      obtain ⟨content, hleads⟩ := hwhole.complete _ hmem
      exact .inr (.inr (.inr ⟨path, target, content, hlink, hleads.of_link h.noted hmem⟩))
  · have hfiles : ((regularEntries entries).map Prod.fst).map (treeSize tree) =
        (regularEntries entries).map fun file => file.2.length := by
      rw [List.map_map]
      refine List.map_congr_left fun file hfile => ?_
      exact hwhole.treeSize_eq (.file hfile)
    have hlinks := List.sum_toFinset (treeSize tree) (List.nodup_append.mp h.distinct).2.1
    have hbounded := hwhole.bounded
    rw [hlinks, h.size] at hbounded
    rw [claimedPaths, List.map_append, List.sum_append, hfiles]
    exact hbounded

/-! ### Any order of the links -/

/-- The extraction comes to an end, what it makes is what the entries say, and another order
makes the same. -/
theorem extractTarReader_exact (items : List (Option TarEntry)) :
    (∀ order passes, items.length ≤ passes →
      ∃ result, extractTarReader order passes items = some result) ∧
    (∀ order passes tree, extractTarReader order passes items = some (.ok tree) →
      ∃ entries, items = entries.map some ∧ Unpacked entries tree) ∧
    (∀ order passes tree, extractTarReader order passes items = some (.ok tree) →
      ∀ order' passes', items.length ≤ passes' →
        extractTarReader order' passes' items = some (.ok tree)) := by
  have hcases := @extractEntries_cases [] ⟨⟨emptyTree, 0⟩, [], []⟩ maxArchiveEntries items
    readSo_empty
  rcases hcases with ⟨error, herror⟩ | ⟨entries, last, hitems, hread, hlinks⟩
  · refine ⟨fun order passes _ => ⟨_, herror order passes⟩, ?_, ?_⟩
    · intro order passes tree htree
      cases (herror order passes).symm.trans htree
    · intro order passes tree htree
      cases (herror order passes).symm.trans htree
  rw [List.nil_append] at hread
  have hwaiting : last.pending.length ≤ items.length := by
    rw [hread.pending, List.length_reverse, hitems, List.length_map]
    exact List.length_filterMap_le _ _
  have hwhole : ∀ order passes tree, extractTarReader order passes items = some (.ok tree) →
      Finished entries last.extracted.totalBytes tree := by
    intro order passes tree htree
    obtain ⟨final, hfinal, hprogress⟩ := hread.progress.all hread.noted hread.waiting
      ((hlinks order passes).symm.trans htree)
    exact hfinal ▸ hprogress.whole
  refine ⟨?_, ?_, ?_⟩
  · intro order passes hpasses
    have hsome := @materializeArchiveLinks_isSome _ _ _ _ _ _ order passes _ hread.noted
      hread.progress hread.waiting (hwaiting.trans hpasses)
    rw [← hlinks] at hsome
    exact Option.isSome_iff_exists.mp hsome
  · intro order passes tree htree
    exact ⟨entries, hitems, hread.unpacked (hwhole order passes tree htree)⟩
  · intro order passes tree htree order' passes' hpasses'
    exact (hlinks order' passes').trans ((hwhole order passes tree htree).materialize hread.noted
      hread.progress hread.waiting (hwaiting.trans hpasses'))

end Extraction

def storedOrder : IterationOrder := ⟨fun _ links => links, fun _ links => List.Perm.refl links⟩

def directoryEntry (path : List UInt8) : TarEntry := ⟨path, .directory, none, some 0, some []⟩

/-- `d` and `d/`. -/
def repeatedDirectory : List TarEntry := [directoryEntry [100], directoryEntry [100, slash]]

/-- A directory may be listed twice. -/
theorem extractTarReader_repeats :
    (∃ tree, extractTarReader storedOrder 0 (repeatedDirectory.map some) = some (.ok tree)) ∧
      repeatedDirectory.map TarEntry.place = [some [[100]], some [[100]]] := by
  refine ⟨?_, by decide +kernel⟩
  have hdone : (extractTarReader storedOrder 0 (repeatedDirectory.map some)).any
      (fun result => result.isOk) = true := by
    decide +kernel
  obtain ⟨result, hresult, hok⟩ := Option.any_eq_true _ _ |>.mp hdone
  cases result with
  | error error => cases hok
  | ok tree => exact ⟨tree, hresult⟩

end MindOne.Archives
