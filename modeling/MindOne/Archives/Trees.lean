import MindOne.Archives.Tar

/-!
# Trees of files and directories

A tree is described by its files and by the directories that were asked for; every
directory above a file or above such a directory is there too. Where a file and a
directory would stand at one path there is no such tree, so an operation that would
bring this about fails, and every other one succeeds.
-/

namespace MindOne.Archives

open CheckedArithmetic MindOne.Stream

/-- The tree has these files, the directories above them, and those that were asked for. -/
structure Laid (files : Path → List UInt8 → Prop) (dirs : Path → Prop) (tree : Tree) : Prop where
  file : ∀ path content, tree path = some (.file content) ↔ files path content
  directory : ∀ path, tree path = some .directory ↔
    (∃ dir, dirs dir ∧ path <+: dir) ∨ ∃ place content, files place content ∧ path <+: place ∧
      path ≠ place
  symlink : ∀ path target, tree path ≠ some (.symlink target)

theorem prefix_dropLast_iff {path place : Path} (h : path ≠ []) :
    place <+: path.dropLast ↔ place <+: path ∧ place ≠ path := by
  obtain ⟨front, last, rfl⟩ : ∃ front last, path = front ++ [last] :=
    ⟨_, _, (List.dropLast_append_getLast h).symm⟩
  rw [List.dropLast_concat, List.prefix_concat_iff]
  constructor
  · intro hplace
    refine ⟨.inr hplace, ?_⟩
    rintro rfl
    have hlength := hplace.length_le
    rw [List.length_append, List.length_singleton] at hlength
    omega
  · rintro ⟨rfl | hplace, hne⟩
    · exact absurd rfl hne
    · exact hplace

namespace Laid

variable {files : Path → List UInt8 → Prop} {dirs : Path → Prop} {tree tree' : Tree}
  {path : Path} {content : List UInt8}

theorem unique (h : Laid files dirs tree) (h' : Laid files dirs tree') : tree = tree' := by
  funext path
  refine Option.ext fun node => ?_
  cases node with
  | file content => rw [h.file, h'.file]
  | directory => rw [h.directory, h'.directory]
  | symlink target => exact iff_of_false (h.symlink path target) (h'.symlink path target)

theorem congr {files' : Path → List UInt8 → Prop} {dirs' : Path → Prop}
    (h : Laid files dirs tree) (hfiles : ∀ path content, files path content ↔ files' path content)
    (hdirs : ∀ path, dirs path ↔ dirs' path) : Laid files' dirs' tree := by
  have hsame : files = files' := funext fun path => funext fun content =>
    propext (hfiles path content)
  have hsame' : dirs = dirs' := funext fun path => propext (hdirs path)
  exact hsame ▸ hsame' ▸ h

/-- A path that leads through a file is obstructed. -/
theorem obstructed_iff (h : Laid files dirs tree) :
    Obstructed tree path ↔ ∃ place content, files place content ∧ place <+: path := by
  simp only [Obstructed, List.mem_inits, Option.mem_def]
  constructor
  · rintro ⟨place, hplace, node, hnode, hdirectory⟩
    cases node with
    | file content => exact ⟨place, content, (h.file place content).mp hnode, hplace⟩
    | directory => cases hdirectory
    | symlink target => exact absurd hnode (h.symlink place target)
  · rintro ⟨place, content, hfile, hplace⟩
    exact ⟨place, hplace, _, (h.file place content).mpr hfile, rfl⟩

/-! ### Directories -/

theorem createDirAll (h : Laid files dirs tree)
    (hcreate : Archives.createDirAll tree path = .ok tree') :
    Laid files (fun dir => dirs dir ∨ dir = path) tree' := by
  simp only [Archives.createDirAll, bind_eq_ok, rejectIf_eq_ok, h.obstructed_iff] at hcreate
  obtain ⟨_, hfree, htree⟩ := hcreate
  cases htree
  constructor
  · intro place content
    by_cases hplace : place <+: path
    · rw [if_pos hplace]
      exact iff_of_false (fun hsame => by cases hsame)
        (fun hfile => hfree ⟨place, content, hfile, hplace⟩)
    · rw [if_neg hplace]
      exact h.file place content
  · intro place
    by_cases hplace : place <+: path
    · rw [if_pos hplace]
      exact iff_of_true rfl (.inl ⟨path, .inr rfl, hplace⟩)
    · rw [if_neg hplace, h.directory]
      refine or_congr ⟨?_, ?_⟩ Iff.rfl
      · rintro ⟨dir, hdir, hbelow⟩
        exact ⟨dir, .inl hdir, hbelow⟩
      · rintro ⟨dir, hdir | rfl, hbelow⟩
        · exact ⟨dir, hdir, hbelow⟩
        · exact absurd hbelow hplace
  · intro place target
    by_cases hplace : place <+: path
    · rw [if_pos hplace]
      exact fun hsame => by cases hsame
    · rw [if_neg hplace]
      exact h.symlink place target

theorem createDirAll_ok (h : Laid files dirs tree)
    (hfree : ∀ place content, files place content → ¬ place <+: path) :
    ∃ tree', Archives.createDirAll tree path = .ok tree' := by
  have hclear : ¬ Obstructed tree path := by
    rw [h.obstructed_iff]
    rintro ⟨place, content, hfile, hplace⟩
    exact hfree place content hfile hplace
  exact ⟨_, bind_eq_ok.mpr ⟨(), rejectIf_eq_ok.mpr hclear, rfl⟩⟩

/-! ### Files -/

theorem createNew (h : Laid files dirs tree)
    (hcreate : Archives.createNew tree path content = .ok tree') :
    Laid (fun place found => files place found ∨ place = path ∧ found = content) dirs tree' := by
  simp only [Archives.createNew, bind_eq_ok, rejectIf_eq_ok, Bool.not_eq_true,
    Option.isSome_eq_false_iff, Option.isNone_iff_eq_none] at hcreate
  obtain ⟨parents, hparents, _, hnone, htree⟩ := hcreate
  cases htree
  have hlaid := h.createDirAll hparents
  have hroot : path ≠ [] := by
    rintro rfl
    have hdirectory := (hlaid.directory []).mpr (.inl ⟨[], .inr rfl, List.nil_prefix⟩)
    rw [hnone] at hdirectory
    cases hdirectory
  constructor
  · intro place found
    by_cases hplace : place = path
    · subst hplace
      rw [if_pos rfl, Option.some.injEq, Node.file.injEq]
      constructor
      · rintro rfl
        exact .inr ⟨rfl, rfl⟩
      · rintro (hfile | ⟨-, rfl⟩)
        · rw [(hlaid.file place found).mpr hfile] at hnone
          cases hnone
        · rfl
    · rw [if_neg hplace, hlaid.file]
      exact (or_iff_left fun hnew => hplace hnew.1).symm
  · intro place
    by_cases hplace : place = path
    · subst hplace
      rw [if_pos rfl]
      refine iff_of_false (fun hsame => by cases hsame) ?_
      intro hbelow
      have hdirectory : parents place = some .directory := by
        rw [hlaid.directory]
        rcases hbelow with ⟨dir, hdir, hbelow⟩ | ⟨file, found, hfile | ⟨rfl, -⟩, hbelow, hne⟩
        · exact .inl ⟨dir, .inl hdir, hbelow⟩
        · exact .inr ⟨file, found, hfile, hbelow, hne⟩
        · exact absurd rfl hne
      rw [hnone] at hdirectory
      cases hdirectory
    · rw [if_neg hplace, hlaid.directory]
      constructor
      · rintro (⟨dir, hdir | rfl, hbelow⟩ | ⟨file, found, hfile, hbelow⟩)
        · exact .inl ⟨dir, hdir, hbelow⟩
        · exact .inr ⟨path, content, .inr ⟨rfl, rfl⟩, (prefix_dropLast_iff hroot).mp hbelow⟩
        · exact .inr ⟨file, found, .inl hfile, hbelow⟩
      · rintro (⟨dir, hdir, hbelow⟩ | ⟨file, found, hfile | ⟨rfl, rfl⟩, hbelow⟩)
        · exact .inl ⟨dir, .inl hdir, hbelow⟩
        · exact .inr ⟨file, found, hfile, hbelow⟩
        · exact .inl ⟨_, .inr rfl, (prefix_dropLast_iff hroot).mpr hbelow⟩
  · intro place target
    by_cases hplace : place = path
    · rw [if_pos hplace]
      exact fun hsame => by cases hsame
    · rw [if_neg hplace]
      exact hlaid.symlink place target

/-- A file fits in wherever there is a larger tree that has it. -/
theorem createNew_ok {files' : Path → List UInt8 → Prop} {dirs' : Path → Prop} {whole : Tree}
    (h : Laid files dirs tree) (hwhole : Laid files' dirs' whole)
    (hfiles : ∀ place found, files place found → files' place found)
    (hdirs : ∀ dir, dirs dir → dirs' dir) (hroot : path ≠ []) (hpath : files' path content)
    (hnew : ∀ found, ¬ files path found) :
    ∃ tree', Archives.createNew tree path content = .ok tree' := by
  have hfile := (hwhole.file path content).mpr hpath
  have habove : ∀ place found, files place found → ¬ place <+: path.dropLast := by
    intro place found hplace hbelow
    have hdirectory := (hwhole.directory place).mpr
      (.inr ⟨path, content, hpath, (prefix_dropLast_iff hroot).mp hbelow⟩)
    rw [(hwhole.file place found).mpr (hfiles place found hplace)] at hdirectory
    cases hdirectory
  obtain ⟨parents, hparents⟩ := h.createDirAll_ok habove
  have hlaid := h.createDirAll hparents
  have hnone : parents path = none := by
    cases hnode : parents path with
    | none => rfl
    | some node =>
        cases node with
        | file found => exact absurd ((hlaid.file path found).mp hnode) (hnew found)
        | symlink target => exact absurd hnode (hlaid.symlink path target)
        | directory =>
            have hdirectory : whole path = some .directory := by
              rw [hwhole.directory]
              rcases (hlaid.directory path).mp hnode with ⟨dir, hdir | rfl, hbelow⟩ |
                ⟨place, found, hplace, hbelow⟩
              · exact .inl ⟨dir, hdirs dir hdir, hbelow⟩
              · exact absurd rfl ((prefix_dropLast_iff hroot).mp hbelow).2
              · exact .inr ⟨place, found, hfiles place found hplace, hbelow⟩
            rw [hfile] at hdirectory
            cases hdirectory
  refine ⟨_, bind_eq_ok.mpr ⟨parents, hparents, bind_eq_ok.mpr ⟨(), ?_, rfl⟩⟩⟩
  rw [rejectIf_eq_ok, hnone]
  exact Bool.false_ne_true

end Laid

end MindOne.Archives
