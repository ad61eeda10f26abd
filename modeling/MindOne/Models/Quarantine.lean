import MindOne.Models.Deletion
import MindOne.Models.VerifiedModels

/-!
# The quarantine of a deletion

Where the files of a model are while its record is taken out of the registry, that
moving them back restores them, and what is left when their removal stops half-way.
-/

namespace MindOne.Models

open CheckedArithmetic MindOne.Engine MindOne.Stream

/-! ### Renames and removals -/

section Nodes
variable {node : Nodes} {source target directory path : PathBuf} {name : String}
  {names : List String}

theorem renameFile_back (hne : target ≠ source) (left : Nodes) :
    renameFile target source left source = left target := by
  rw [renameFile, Function.update_of_ne hne.symm, Function.update_self]

theorem renameFile_target (hne : target ≠ source) :
    renameFile source target node target = node source := by
  rw [renameFile, Function.update_of_ne hne, Function.update_self]

theorem renameDirectory_inside (rest : List String) :
    renameDirectory source target node ⟨target.components ++ rest⟩ =
      node ⟨source.components ++ rest⟩ := by
  rw [renameDirectory, if_pos (List.prefix_append _ _), List.drop_left' rfl]

theorem renameDirectory_join : renameDirectory source target node (target.join name) =
    node (source.join name) :=
  renameDirectory_inside [name]

/-- Two names in one directory, of which neither is below the other. -/
structure Siblings (a b : PathBuf) : Prop where
  place : ∃ parent left right, a = PathBuf.join parent left ∧ b = PathBuf.join parent right ∧
    left ≠ right

theorem Siblings.symm {a b : PathBuf} (h : Siblings a b) : Siblings b a := by
  obtain ⟨parent, left, right, ha, hb, hne⟩ := h.place
  exact ⟨parent, right, left, hb, ha, hne.symm⟩

theorem Siblings.not_below {a b : PathBuf} (h : Siblings a b) (rest : List String) :
    ¬ b.components <+: a.components ++ rest := by
  obtain ⟨parent, left, right, rfl, rfl, hne⟩ := h.place
  simp only [PathBuf.join, List.append_assoc, List.prefix_append_right_inj, List.singleton_append,
    List.cons_prefix_cons, not_and]
  exact fun hsame => absurd hsame.symm hne

theorem renameDirectory_source (h : Siblings source target) (rest : List String) :
    renameDirectory source target node ⟨source.components ++ rest⟩ = none := by
  rw [renameDirectory, if_neg (h.not_below rest), if_pos (List.prefix_append _ _)]

theorem renameDirectory_elsewhere (htarget : ¬ target.components <+: path.components)
    (hsource : ¬ source.components <+: path.components) :
    renameDirectory source target node path = node path := by
  rw [renameDirectory, if_neg htarget, if_neg hsource]

/-- Without the entries of these names in a directory. -/
def without (directory : PathBuf) (names : List String) (node : Nodes) : Nodes := fun path =>
  if path ∈ names.map directory.join then none else node path

theorem without_nil : without directory [] node = node := by
  funext path
  exact if_neg List.not_mem_nil

theorem without_of_mem (h : name ∈ names) : without directory names node (directory.join name) =
    none :=
  if_pos (List.mem_map_of_mem h)

theorem without_cons : without directory names (Function.update node (directory.join name) none) =
    without directory (name :: names) node := by
  funext path
  by_cases hname : path = directory.join name
  · rw [hname, without_of_mem List.mem_cons_self, without, Function.update_self, ite_self]
  · simp only [without, Function.update_of_ne hname, List.map_cons, List.mem_cons, hname, false_or]

/-- The removal gets to the end unless it is stopped at one of the entries. -/
theorem removeEntries_eq (fault : Option DeletionStep) (directory : PathBuf) (position : Nat)
    (names : List String) (node : Nodes) :
    removeEntries fault directory position names node =
      match fault with
      | some (.removeEntry stop) =>
          if position ≤ stop ∧ stop < position + names.length then
            (false, without directory (names.take (stop - position)) node)
          else (true, without directory names node)
      | _ => (true, without directory names node) := by
  induction names generalizing position node with
  | nil =>
      rw [removeEntries, without_nil]
      split
      · rw [if_neg (by simp only [List.length_nil]; omega)]
      · rfl
  | cons name rest ih =>
      rw [removeEntries]
      by_cases hstop : fault = some (.removeEntry position)
      · subst hstop
        rw [if_pos rfl]
        simp only [List.length_cons]
        rw [if_pos (by omega), Nat.sub_self, List.take_zero, without_nil]
      · rw [if_neg hstop, ih]
        split
        · rename_i stop
          have hne : stop ≠ position := by
            rintro rfl
            exact hstop rfl
          simp only [List.length_cons]
          by_cases hinside : position + 1 ≤ stop ∧ stop < position + 1 + rest.length
          · have htake : stop - position = stop - (position + 1) + 1 := by omega
            rw [if_pos hinside, if_pos (by omega), htake, List.take_succ_cons, without_cons]
          · rw [if_neg hinside, if_neg (by omega), without_cons]
        · rw [without_cons]

end Nodes

/-- Nothing is below what is neither a directory nor a link. -/
theorem DirectoryTree.none_below (tree : DirectoryTree) {path : PathBuf}
    (h : ¬ (tree.node path = some .directory ∨ tree.node path = some .symlink))
    {rest : List String} (hne : rest ≠ []) : tree.node ⟨path.components ++ rest⟩ = none := by
  induction rest using List.reverseRecOn with
  | nil => exact absurd rfl hne
  | append_singleton front name ih =>
      rw [← Option.not_isSome_iff_eq_none]
      intro hsome
      have hjoin : (⟨path.components ++ (front ++ [name])⟩ : PathBuf) =
          PathBuf.join ⟨path.components ++ front⟩ name := by
        rw [PathBuf.join, List.append_assoc]
      rw [hjoin] at hsome
      have hholder := tree.holder _ name hsome
      by_cases hfront : front = []
      · rw [hfront, List.append_nil] at hholder
        exact h hholder
      · rw [ih hfront] at hholder
        rcases hholder with hholder | hholder <;> cases hholder

/-! ### What the checks establish -/

section Plans
variable {tools : ModelTools} {tree : DirectoryTree} {models : PathBuf} {file : RegistryFile}
  {nameOrId : String} {current : ModelRecord} {plan : DeletionPlan}

/-- A single file that is there, beside a free place. -/
structure FilePlan (tree : DirectoryTree) (current : ModelRecord) (quarantine : PathBuf) :
    Prop where
  single : current.artifacts = []
  present : ∃ content modified, tree.node current.path = some (.regular content modified)
  free : quarantine ≠ current.path

/-- A directory with the files of the bundle and nothing else, beside a free place. -/
structure BundlePlan (tree : DirectoryTree) (current : ModelRecord)
    (directory quarantine : PathBuf) (entries : List String) : Prop where
  several : current.artifacts ≠ []
  siblings : Siblings directory quarantine
  paths : ∀ path ∈ artifactPaths current, ∃ name ∈ entries, path = directory.join name
  files : ∀ name ∈ entries, directory.join name ∈ artifactPaths current ∧
    ∃ content modified, tree.node (directory.join name) = some (.regular content modified)
  complete : ∀ name, (tree.node (directory.join name)).isSome = true → name ∈ entries

def SoundPlan (tree : DirectoryTree) : DeletionPlan → Prop
  | .file current quarantine => FilePlan tree current quarantine
  | .bundle current directory quarantine entries =>
      BundlePlan tree current directory quarantine entries

theorem regular_of_isFile {node : FileNode} (h : ¬ node.isFile = false) :
    ∃ content modified, node = .regular content modified := by
  cases node with
  | regular content modified => exact ⟨content, modified, rfl⟩
  | directory => exact absurd rfl h
  | symlink => exact absurd rfl h

theorem ensureManagedPath_ok {tree : FileTree} {path modelsRoot : PathBuf}
    (h : ensureManagedPath tree path modelsRoot = .ok ()) :
    tree.canonicalize path = some path ∧
      ∃ content modified, tree.node path = some (.regular content modified) := by
  simp only [ensureManagedPath, bind_eq_ok, okOr_eq_ok, rejectIf_eq_ok, not_or, not_not] at h
  obtain ⟨root, -, resolved, hresolved, node, hnode, hfile, hpath, -⟩ := h
  obtain ⟨content, modified, rfl⟩ := regular_of_isFile hfile
  exact ⟨hpath ▸ hresolved, content, modified, hnode⟩

theorem join_of_parent {path directory : PathBuf} {name : String}
    (hparent : path.parent = some directory) (hname : path.fileName = some name) :
    path = directory.join name := by
  simp only [PathBuf.parent, Option.ite_none_left_eq_some, Option.some.injEq] at hparent
  obtain ⟨hne, rfl⟩ := hparent
  obtain ⟨components⟩ := path
  simp only [PathBuf.fileName] at hname
  rw [PathBuf.join, PathBuf.mk.injEq]
  exact (List.dropLast_append_getLast? name hname).symm

theorem findRecord_ok {tree : FileTree} (h : findRecord tools tree models file nameOrId =
    .ok current) :
    ∃ data, readData file = .ok data ∧ lookup data.models nameOrId = some current ∧
      validateArtifactLayout tools current = .ok () := by
  simp only [findRecord, bind_eq_ok, okOr_eq_ok] at h
  obtain ⟨root, -, data, hdata, record, hlookup, _, hvalid, hrecord⟩ := h
  cases hrecord
  simp only [validateRegistryRecord, bind_eq_ok] at hvalid
  obtain ⟨_, -, _, -, _, -, _, hlayout, -⟩ := hvalid
  exact ⟨data, hdata, hlookup, hlayout⟩

theorem planFile_sound (hsingle : current.artifacts = [])
    (h : planFile tree models current = .ok plan) :
    plan.current = current ∧ SoundPlan tree plan := by
  simp only [planFile, bind_eq_ok, okOr_eq_ok, rejectIf_eq_ok] at h
  obtain ⟨_, hmanaged, node, -, _, -, parent, -, _, hfree, hplan⟩ := h
  cases hplan
  obtain ⟨hcanonical, hpresent⟩ := ensureManagedPath_ok hmanaged
  refine ⟨rfl, hsingle, hpresent, ?_⟩
  intro hsame
  rw [hsame] at hfree
  exact hfree (by rw [hcanonical]; rfl)

/-- The artifacts of a laid-out bundle stand under their names in its directory. -/
theorem BundleLayout.join_name {directory : PathBuf} {splitPrefix : List Char}
    (h : BundleLayout tools current directory splitPrefix) {artifact : ModelArtifactRecord}
    (hmem : artifact ∈ current.artifacts) :
    ∃ name, artifact.path.fileName = some name ∧ artifact.path = directory.join name := by
  obtain ⟨position, hposition⟩ := List.mem_iff_getElem?.mp hmem
  have hat := h.shards position artifact hposition
  obtain ⟨-, -, -, suffix, -, hname⟩ := splitFileName_of_parse hat.name
  exact ⟨_, hname, join_of_parent hat.parent hname⟩

theorem planBundle_sound (hbundle : current.artifacts ≠ [])
    (hlayout : validateArtifactLayout tools current = .ok ())
    (h : planBundle tree models current = .ok plan) :
    plan.current = current ∧ SoundPlan tree plan := by
  have hhead := path_mem_artifactPaths hlayout
  obtain ⟨directory, splitPrefix, hlaid⟩ := (validateArtifactLayout_eq_ok hbundle).mp hlayout
  simp only [planBundle, bind_eq_ok, okOr_eq_ok, rejectIf_eq_ok, forM_eq_ok, not_or, not_not] at h
  obtain ⟨_, hmanaged, parent, hparent, root, hroot, canonical, hcanonical, node, -, _,
    ⟨-, -, habove⟩, _, -, _, hentries, _, hsame, _, hfree, hplan⟩ := h
  cases hplan
  obtain rfl : directory = parent := Option.some.inj (hlaid.parent.symm.trans hparent)
  have hself : tree.canonicalize directory = some directory :=
    tree.canonical_parent current.path directory
      (ensureManagedPath_ok (hmanaged current.path hhead)).1 hlaid.parent
  obtain rfl : directory = canonical := Option.some.inj (hself.symm.trans hcanonical)
  have hnames : ∀ name, name ∈ tree.entries directory ↔
      ∃ artifact ∈ current.artifacts, artifact.path.fileName = some name := by
    intro name
    rw [← List.mem_toFinset, hsame, List.mem_toFinset, List.mem_filterMap]
  refine ⟨rfl, hbundle, ?_, ?_, ?_, tree.entries_complete directory⟩
  · have hne : directory.components ≠ [] := by
      intro hnil
      rw [PathBuf.parent, if_pos hnil] at habove
      cases habove
    obtain ⟨own, hown⟩ : ∃ own, directory.fileName = some own :=
      ⟨_, List.getLast?_eq_some_getLast hne⟩
    have hplace := join_of_parent habove hown
    refine ⟨root, own, _, hplace, rfl, ?_⟩
    rintro rfl
    rw [← hplace, hself] at hfree
    exact hfree rfl
  · intro path hmem
    rw [artifactPaths, if_neg hbundle, List.mem_map] at hmem
    obtain ⟨artifact, hartifact, rfl⟩ := hmem
    obtain ⟨name, hname, hjoin⟩ := hlaid.join_name hartifact
    exact ⟨name, (hnames name).mpr ⟨artifact, hartifact, hname⟩, hjoin⟩
  · intro name hmem
    obtain ⟨artifact, hartifact, hname⟩ := (hnames name).mp hmem
    obtain ⟨own, hown, hjoin⟩ := hlaid.join_name hartifact
    obtain rfl : name = own := Option.some.inj (hname.symm.trans hown)
    refine ⟨hjoin ▸ mem_artifactPaths hartifact, ?_⟩
    have hchecked := hentries name hmem
    simp only [checkEntry, bind_eq_ok, okOr_eq_ok, rejectIf_eq_ok] at hchecked
    obtain ⟨node, hnode, _, hfile, -⟩ := hchecked
    obtain ⟨content, modified, rfl⟩ := regular_of_isFile hfile
    exact ⟨content, modified, hnode⟩

/-- A deletion that passes its checks has found the record and its files. -/
theorem planDeletion_sound (h : planDeletion tools tree models file nameOrId = .ok plan) :
    ∃ data, readData file = .ok data ∧ lookup data.models nameOrId = some plan.current ∧
      SoundPlan tree plan := by
  simp only [planDeletion, bind_eq_ok] at h
  obtain ⟨current, hfind, hplan⟩ := h
  obtain ⟨data, hdata, hlookup, hlayout⟩ := findRecord_ok hfind
  by_cases hbundle : current.artifacts ≠ []
  · rw [if_pos hbundle] at hplan
    obtain ⟨rfl, hsound⟩ := planBundle_sound hbundle hlayout hplan
    exact ⟨data, hdata, hlookup, hsound⟩
  · rw [if_neg hbundle] at hplan
    obtain ⟨rfl, hsound⟩ := planFile_sound (not_not.mp hbundle) hplan
    exact ⟨data, hdata, hlookup, hsound⟩

end Plans

/-! ### What becomes of the files -/

/-- A removal that stops after something is gone. -/
def DeletionPlan.LosesFiles (plan : DeletionPlan) (fault : Option DeletionStep) : Prop :=
  match plan, fault with
  | .bundle _ _ _ entries, some (.removeEntry position) =>
      0 < position ∧ position < entries.length
  | .bundle _ _ _ _, some .removeDirectory => True
  | _, _ => False

section Moves
variable {tree : DirectoryTree} {plan : DeletionPlan} {fault : Option DeletionStep}
  {moved left : Nodes} {current : ModelRecord} {directory quarantine : PathBuf}
  {entries : List String}

/-- The directory of a bundle holds files only. -/
theorem BundlePlan.no_holder (h : BundlePlan tree current directory quarantine entries)
    (name : String) : ¬ (tree.node (directory.join name) = some .directory ∨
      tree.node (directory.join name) = some .symlink) := by
  intro hholder
  have hsome : (tree.node (directory.join name)).isSome = true := by
    rcases hholder with hholder | hholder <;> rw [hholder] <;> rfl
  obtain ⟨-, content, modified, hnode⟩ := h.files name (h.complete name hsome)
  rw [hnode] at hholder
  rcases hholder with hholder | hholder <;> cases hholder

/-- What is moved back is where it was. -/
theorem moveBack_moved (hsound : SoundPlan tree plan) (h : plan.moveAway tree.node = some moved)
    {path : PathBuf} (hmem : path ∈ artifactPaths plan.current) :
    plan.moveBack moved path = tree.node path := by
  cases plan with
  | file current quarantine =>
      cases h
      have hfile : FilePlan tree current quarantine := hsound
      rw [DeletionPlan.current, artifactPaths, if_pos hfile.single, List.mem_singleton] at hmem
      rw [hmem, DeletionPlan.moveBack, renameFile_back hfile.free, renameFile_target hfile.free]
  | bundle current directory quarantine entries =>
      have hbundle : BundlePlan tree current directory quarantine entries := hsound
      rw [DeletionPlan.moveAway, Option.ite_none_left_eq_some] at h
      obtain ⟨-, hmoved⟩ := h
      cases hmoved
      obtain ⟨name, -, rfl⟩ := hbundle.paths path hmem
      rw [DeletionPlan.moveBack, renameDirectory_join, renameDirectory_join]

/-- After the whole directory is gone nothing is left that was not there before. -/
theorem BundlePlan.gone (h : BundlePlan tree current directory quarantine entries)
    (path : PathBuf) :
    Function.update (without quarantine entries (renameDirectory directory quarantine tree.node))
        quarantine none path = none ∨
      Function.update (without quarantine entries (renameDirectory directory quarantine tree.node))
        quarantine none path = tree.node path := by
  by_cases hself : path = quarantine
  · rw [hself, Function.update_self]
    exact .inl rfl
  · rw [Function.update_of_ne hself, without]
    split
    · exact .inl rfl
    · rename_i hkept
      by_cases hbelow : quarantine.components <+: path.components
      · obtain ⟨rest, hrest⟩ := hbelow
        have hpath : path = ⟨quarantine.components ++ rest⟩ := by rw [hrest]
        rw [hpath, renameDirectory_inside]
        refine .inl ?_
        cases rest with
        | nil =>
            rw [List.append_nil] at hpath
            exact absurd hpath hself
        | cons name rest =>
            have hfile := h.no_holder name
            by_cases hrest : rest = []
            · rw [hrest] at hpath ⊢
              change tree.node (directory.join name) = none
              rw [← Option.not_isSome_iff_eq_none]
              intro hsome
              exact hkept (hpath ▸ List.mem_map_of_mem (h.complete name hsome))
            · have hnone := tree.none_below hfile hrest
              rwa [PathBuf.join, List.append_assoc] at hnone
      · by_cases hsource : directory.components <+: path.components
        · rw [renameDirectory, if_neg hbelow, if_pos hsource]
          exact .inl rfl
        · exact .inr (renameDirectory_elsewhere hbelow hsource)

/-- A bundle has a file. -/
theorem BundlePlan.exists_entry (h : BundlePlan tree current directory quarantine entries) :
    ∃ name rest, entries = name :: rest := by
  cases hartifacts : current.artifacts with
  | nil => exact absurd hartifacts h.several
  | cons artifact others =>
      have hmem : artifact ∈ current.artifacts := by
        rw [hartifacts]
        exact List.mem_cons_self
      obtain ⟨name, hname, -⟩ := h.paths artifact.path (mem_artifactPaths hmem)
      cases entries with
      | nil => cases hname
      | cons first rest => exact ⟨first, rest, rfl⟩

/-- What was removed does not come back. -/
theorem BundlePlan.lost (h : BundlePlan tree current directory quarantine entries)
    {names : List String} {name : String} (hmem : name ∈ entries) (hname : name ∈ names)
    (node : Nodes) :
    ∃ path ∈ artifactPaths current,
      renameDirectory quarantine directory (without quarantine names node) path ≠
        tree.node path := by
  obtain ⟨hpath, content, modified, hnode⟩ := h.files name hmem
  refine ⟨directory.join name, hpath, ?_⟩
  rw [renameDirectory_join, without_of_mem hname, hnode]
  intro hsame
  cases hsame

/-- The three ways in which the removal of a directory can end. -/
theorem removeDirAll_cases (fault : Option DeletionStep) (directory : PathBuf)
    (entries : List String) (node : Nodes) :
    (removeDirAll fault directory entries node =
        (true, Function.update (without directory entries node) directory none) ∧
      fault ≠ some .removeDirectory ∧
      ∀ position, fault = some (.removeEntry position) → entries.length ≤ position) ∨
    (∃ names, removeDirAll fault directory entries node = (false, without directory names node) ∧
      ((names = entries ∧ fault = some .removeDirectory) ∨
        ∃ position, fault = some (.removeEntry position) ∧ position < entries.length ∧
          names = entries.take position)) ∨
    (removeDirAll fault directory entries node = (false, node) ∧ fault = some .listEntries) := by
  by_cases hlist : fault = some .listEntries
  · exact .inr (.inr ⟨if_pos hlist, hlist⟩)
  · rw [removeDirAll, if_neg hlist, removeEntries_eq]
    cases fault with
    | none =>
        refine .inl ⟨rfl, (Option.some_ne_none _).symm, ?_⟩
        intro position hposition
        cases hposition
    | some step =>
        cases step with
        | removeEntry stop =>
            simp only [Nat.zero_le, true_and, Nat.zero_add, Nat.sub_zero]
            by_cases hstop : stop < entries.length
            · rw [if_pos hstop]
              exact .inr (.inl ⟨_, rfl, .inr ⟨stop, rfl, hstop, rfl⟩⟩)
            · rw [if_neg hstop]
              refine .inl ⟨rfl, ?_, ?_⟩
              · intro hremove
                cases hremove
              · intro position hposition
                cases hposition
                exact Nat.le_of_not_lt hstop
        | removeDirectory => exact .inr (.inl ⟨entries, rfl, .inl ⟨rfl, rfl⟩⟩)
        | listEntries => exact absurd rfl hlist
        | inspect | moveAway | registry | removeFile | syncParent =>
            refine .inl ⟨rfl, ?_, ?_⟩
            · intro hremove
              cases hremove
            · intro position hposition
              cases hposition

/-- A removal that gets to the end leaves none of the files. -/
theorem remove_done (hsound : SoundPlan tree plan) (haway : plan.moveAway tree.node = some moved)
    (h : plan.remove fault moved = (true, left)) :
    ¬ plan.LosesFiles fault ∧ (∀ path ∈ artifactPaths plan.current, left path = none) ∧
      ∀ path, left path = none ∨ left path = tree.node path := by
  cases plan with
  | file current quarantine =>
      cases haway
      have hfile : FilePlan tree current quarantine := hsound
      rw [DeletionPlan.remove] at h
      split at h
      · cases h
      · cases h
        have hgone : Function.update (renameFile current.path quarantine tree.node) quarantine none
            current.path = none := by
          rw [Function.update_of_ne hfile.free.symm, renameFile, Function.update_self]
        refine ⟨id, ?_, ?_⟩
        · intro path hmem
          rw [DeletionPlan.current, artifactPaths, if_pos hfile.single,
            List.mem_singleton] at hmem
          rw [hmem, hgone]
        · intro path
          by_cases hpath : path = quarantine
          · rw [hpath, Function.update_self]
            exact .inl rfl
          · by_cases hown : path = current.path
            · rw [hown]
              exact .inl hgone
            · rw [Function.update_of_ne hpath, renameFile, Function.update_of_ne hown,
                Function.update_of_ne hpath]
              exact .inr rfl
  | bundle current directory quarantine entries =>
      have hbundle : BundlePlan tree current directory quarantine entries := hsound
      rw [DeletionPlan.moveAway, Option.ite_none_left_eq_some] at haway
      obtain ⟨-, hmoved⟩ := haway
      cases hmoved
      rw [DeletionPlan.remove] at h
      rcases removeDirAll_cases fault quarantine entries
        (renameDirectory directory quarantine tree.node) with
        ⟨hrun, hdirectory, hposition⟩ | ⟨names, hrun, -⟩ | ⟨hrun, -⟩
      · rw [hrun] at h
        cases h
        refine ⟨?_, ?_, hbundle.gone⟩
        · intro hloses
          cases fault with
          | none => exact hloses
          | some step =>
              cases step with
              | removeEntry position =>
                  exact absurd hloses.2 (Nat.not_lt.mpr (hposition position rfl))
              | removeDirectory => exact hdirectory rfl
              | _ => exact hloses
        · intro path hmem
          obtain ⟨name, hname, rfl⟩ := hbundle.paths path hmem
          rcases hbundle.gone (directory.join name) with hnone | hsame
          · exact hnone
          · have hmoved : renameDirectory directory quarantine tree.node (directory.join name) =
                none := renameDirectory_source hbundle.siblings [name]
            by_cases hself : directory.join name = quarantine
            · rw [hself, Function.update_self]
            · rw [Function.update_of_ne hself, without, hmoved, ite_self]
      · rw [hrun] at h
        cases h
      · rw [hrun] at h
        cases h

/-- A removal that stops has lost files, or it has removed nothing. -/
theorem remove_stopped (hsound : SoundPlan tree plan)
    (haway : plan.moveAway tree.node = some moved)
    (h : plan.remove fault moved = (false, left)) :
    fault ≠ some .syncParent ∧
      ((¬ plan.LosesFiles fault ∧ left = moved) ∨
        (plan.LosesFiles fault ∧
          ∃ path ∈ artifactPaths plan.current, plan.moveBack left path ≠ tree.node path)) := by
  cases plan with
  | file current quarantine =>
      rw [DeletionPlan.remove] at h
      split at h
      · rename_i hfault
        cases h
        refine ⟨?_, .inl ⟨id, rfl⟩⟩
        intro hsync
        rw [hfault] at hsync
        cases hsync
      · cases h
  | bundle current directory quarantine entries =>
      have hbundle : BundlePlan tree current directory quarantine entries := hsound
      obtain ⟨first, rest, hentries⟩ := hbundle.exists_entry
      have hfirst : first ∈ entries := hentries ▸ List.mem_cons_self
      rw [DeletionPlan.remove] at h
      rcases removeDirAll_cases fault quarantine entries moved with
        ⟨hrun, -⟩ | ⟨names, hrun, ⟨rfl, rfl⟩ | ⟨position, rfl, hposition, rfl⟩⟩ | ⟨hrun, rfl⟩
      · rw [hrun] at h
        cases h
      · rw [hrun] at h
        cases h
        exact ⟨by decide, .inr ⟨trivial, hbundle.lost hfirst hfirst moved⟩⟩
      · rw [hrun] at h
        cases h
        constructor
        · intro hsync
          cases hsync
        · cases position with
          | zero =>
              refine .inl ⟨fun hloses => Nat.lt_irrefl 0 hloses.1, ?_⟩
              rw [List.take_zero, without_nil]
          | succ position =>
              refine .inr ⟨⟨Nat.succ_pos _, hposition⟩, hbundle.lost hfirst ?_ moved⟩
              rw [hentries, List.take_succ_cons]
              exact List.mem_cons_self
      · rw [hrun] at h
        cases h
        exact ⟨by decide, .inl ⟨id, rfl⟩⟩

end Moves

end MindOne.Models
