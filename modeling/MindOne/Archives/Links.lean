import MindOne.Archives.Trees
import Mathlib.Algebra.BigOperators.Group.Finset.Basic
import Mathlib.Algebra.Order.BigOperators.Group.Finset

/-!
# Links that become copies

A link is reached if it leads to a file, or to a link that is reached. A pass over the
pending links copies every link whose target is there by then. Whatever the order, the
copies are the same: as long as a link is left, one of them has its target there, and a
copy never stands in the way of another one unless it does so in the end.
-/

namespace MindOne.Archives

open CheckedArithmetic MindOne.Stream

/-- The content that a path leads to. -/
inductive Reached (files : Path → List UInt8 → Prop) (links : List Link) :
    Path → List UInt8 → Prop
  | file {path : Path} {content : List UInt8} (h : files path content) :
      Reached files links path content
  | link {path target : Path} {content : List UInt8} (hlink : (path, target) ∈ links)
      (htarget : Reached files links target content) : Reached files links path content

/-- Links have names of their own. -/
structure Noted (files : Path → List UInt8 → Prop) (links : List Link) : Prop where
  functional : ∀ path content content', files path content → files path content' →
    content = content'
  distinct : (links.map Prod.fst).Nodup
  fresh : ∀ link ∈ links, ∀ content, ¬ files link.1 content
  named : ∀ link ∈ links, link.1 ≠ []
  aimed : ∀ link ∈ links, link.2 ≠ []

/-- The files, and the links that are copies by now. -/
def Present (files : Path → List UInt8 → Prop) (links : List Link) (done : Finset Path)
    (path : Path) (content : List UInt8) : Prop :=
  files path content ∨ path ∈ done ∧ Reached files links path content

def treeSize (tree : Tree) (path : Path) : Nat :=
  match tree path with
  | some (.file content) => content.length
  | _ => 0

/-- Some links are copies, and their sizes are counted. -/
structure Progress (files : Path → List UInt8 → Prop) (dirs : Path → Prop) (links : List Link)
    (start : Nat) (done : Finset Path) (state : Extracted) : Prop where
  laid : Laid (Present files links done) dirs state.tree
  linked : ∀ path ∈ done, ∃ target, (path, target) ∈ links
  reached : ∀ path ∈ done, ∃ content, Reached files links path content
  size : state.totalBytes = start + ∑ path ∈ done, treeSize state.tree path
  bounded : state.totalBytes ≤ maxExtractedBytes

/-- The tree in which every link is a copy. -/
structure Whole (files : Path → List UInt8 → Prop) (dirs : Path → Prop) (links : List Link)
    (start : Nat) (whole : Tree) : Prop where
  laid : Laid (Reached files links) dirs whole
  complete : ∀ link ∈ links, ∃ content, Reached files links link.1 content
  bounded : start + ∑ path ∈ (links.map Prod.fst).toFinset, treeSize whole path ≤
    maxExtractedBytes

/-- These are the links that are no copies yet. -/
structure Pending (links : List Link) (done : Finset Path) (pending : List Link) : Prop where
  listed : ∀ link, link ∈ pending ↔ link ∈ links ∧ link.1 ∉ done
  distinct : (pending.map Prod.fst).Nodup

section Links
variable {files : Path → List UInt8 → Prop} {dirs : Path → Prop} {links : List Link}
  {start : Nat} {done : Finset Path} {state next : Extracted} {path target : Path}
  {content : List UInt8}

/-! ### What is reached -/

theorem Noted.target_eq (h : Noted files links) {target' : Path} (hlink : (path, target) ∈ links)
    (hlink' : (path, target') ∈ links) : target = target' :=
  congrArg Prod.snd (List.inj_on_of_nodup_map h.distinct hlink hlink' rfl)

theorem Reached.unique (h : Noted files links) (hreached : Reached files links path content)
    {content' : List UInt8} (hreached' : Reached files links path content') :
    content = content' := by
  induction hreached with
  | @file path content hfile =>
      cases hreached' with
      | file hfile' => exact h.functional _ _ _ hfile hfile'
      | link hlink' _ => exact absurd hfile (h.fresh _ hlink' content)
  | @link path target content hlink _ ih =>
      cases hreached' with
      | file hfile' => exact absurd hfile' (h.fresh _ hlink content')
      | link hlink' htarget' =>
          rw [h.target_eq hlink' hlink] at htarget'
          exact ih htarget'

theorem Reached.of_link (h : Noted files links) (hlink : (path, target) ∈ links)
    (hreached : Reached files links path content) : Reached files links target content := by
  cases hreached with
  | file hfile => exact absurd hfile (h.fresh _ hlink content)
  | link hlink' htarget =>
      rw [h.target_eq hlink hlink']
      exact htarget

theorem Present.reached (h : Present files links done path content) :
    Reached files links path content := by
  rcases h with hfile | ⟨-, hreached⟩
  · exact .file hfile
  · exact hreached

theorem Present.mono {done' : Finset Path} (h : Present files links done path content)
    (hsub : done ⊆ done') : Present files links done' path content :=
  h.imp_right fun hdone => ⟨hsub hdone.1, hdone.2⟩

/-- Behind a path that is reached, all is there, or some link has its target there. -/
theorem Reached.ready (h : Reached files links path content) :
    Present files links done path content ∨
      ∃ link ∈ links, link.1 ∉ done ∧ ∃ found, Present files links done link.2 found := by
  induction h with
  | file hfile => exact .inl (.inl hfile)
  | @link path target content hlink htarget ih =>
      rcases ih with hpresent | hready
      · by_cases hdone : path ∈ done
        · exact .inl (.inr ⟨hdone, .link hlink htarget⟩)
        · exact .inr ⟨_, hlink, hdone, content, hpresent⟩
      · exact .inr hready

/-! ### One link -/

theorem materializeLink_eq_some {link : Link} :
    materializeLink state link = .ok (some next) ↔
      ∃ content, symlinkMetadata state.tree link.2 = .ok (some (.file content)) ∧
        addExtractedSize state.totalBytes content.length = .ok next.totalBytes ∧
        createNew state.tree link.1 content = .ok next.tree := by
  simp only [materializeLink, bind_eq_ok]
  constructor
  · rintro ⟨node, hnode, h⟩
    cases node with
    | none => cases h
    | some node =>
        cases node with
        | directory => cases h
        | symlink target => cases h
        | file content =>
            simp only [bind_eq_ok] at h
            obtain ⟨total, htotal, tree, htree, hnext⟩ := h
            cases hnext
            exact ⟨content, hnode, htotal, htree⟩
  · rintro ⟨content, hnode, htotal, htree⟩
    refine ⟨_, hnode, ?_⟩
    simp only [bind_eq_ok]
    exact ⟨_, htotal, _, htree, rfl⟩

theorem symlinkMetadata_eq_ok {tree : Tree} {node : Option Node} :
    symlinkMetadata tree path = .ok node ↔
      ¬ Obstructed tree path.dropLast ∧ tree path = node := by
  simp only [symlinkMetadata, bind_eq_ok, rejectIf_eq_ok]
  constructor
  · rintro ⟨_, hclear, hnode⟩
    exact ⟨hclear, Except.ok.inj hnode⟩
  · rintro ⟨hclear, rfl⟩
    exact ⟨(), hclear, rfl⟩

theorem addExtractedSize_eq_ok {total size sum : Nat} :
    addExtractedSize total size = .ok sum ↔ sum = total + size ∧ sum ≤ maxExtractedBytes := by
  have hlimit : maxExtractedBytes < 2 ^ 64 := by decide
  simp only [addExtractedSize, bind_eq_ok, rejectIf_eq_ok, not_le, not_lt]
  constructor
  · rintro ⟨_, -, _, hle, hsum⟩
    cases hsum
    exact ⟨rfl, hle⟩
  · rintro ⟨rfl, hle⟩
    exact ⟨(), by omega, (), hle, rfl⟩

theorem treeSize_of_laid (h : Laid (Present files links done) dirs state.tree)
    (hpresent : Present files links done path content) :
    treeSize state.tree path = content.length := by
  rw [treeSize, (h.file path content).mpr hpresent]

/-- A link that is copied counts as done. -/
theorem Progress.link (h : Progress files dirs links start done state) (hnoted : Noted files links)
    {link : Link} (hlink : link ∈ links) (hnew : link.1 ∉ done)
    (hnext : materializeLink state link = .ok (some next)) :
    Progress files dirs links start (insert link.1 done) next := by
  obtain ⟨content, hnode, htotal, htree⟩ := materializeLink_eq_some.mp hnext
  have htarget : Reached files links link.2 content :=
    ((h.laid.file _ _).mp (symlinkMetadata_eq_ok.mp hnode).2).reached
  have hreached : Reached files links link.1 content := .link hlink htarget
  obtain ⟨hsum, hle⟩ := addExtractedSize_eq_ok.mp htotal
  have hlaid : Laid (Present files links (insert link.1 done)) dirs next.tree := by
    refine (h.laid.createNew htree).congr (fun path found => ?_) (fun _ => Iff.rfl)
    constructor
    · rintro (hpresent | ⟨rfl, rfl⟩)
      · exact hpresent.mono (Finset.subset_insert _ _)
      · exact .inr ⟨Finset.mem_insert_self _ _, hreached⟩
    · rintro (hfile | ⟨hdone, hfound⟩)
      · exact .inl (.inl hfile)
      · rcases Finset.mem_insert.mp hdone with rfl | hdone
        · exact .inr ⟨rfl, hfound.unique hnoted hreached⟩
        · exact .inl (.inr ⟨hdone, hfound⟩)
  refine ⟨hlaid, ?_, ?_, ?_, hle⟩
  · intro path hpath
    rcases Finset.mem_insert.mp hpath with rfl | hpath
    · exact ⟨_, hlink⟩
    · exact h.linked path hpath
  · intro path hpath
    rcases Finset.mem_insert.mp hpath with rfl | hpath
    · exact ⟨_, hreached⟩
    · exact h.reached path hpath
  · have hsame : ∑ path ∈ done, treeSize next.tree path =
        ∑ path ∈ done, treeSize state.tree path := by
      refine Finset.sum_congr rfl fun path hpath => ?_
      obtain ⟨found, hfound⟩ := h.reached path hpath
      have hpresent : Present files links done path found := .inr ⟨hpath, hfound⟩
      rw [treeSize_of_laid h.laid hpresent,
        treeSize_of_laid hlaid (hpresent.mono (Finset.subset_insert _ _))]
    have hcopy : treeSize next.tree link.1 = content.length :=
      treeSize_of_laid hlaid (.inr ⟨Finset.mem_insert_self _ _, hreached⟩)
    rw [Finset.sum_insert hnew, hsame, hcopy, hsum, h.size]
    omega

/-! ### One pass -/

theorem Progress.pass (hnoted : Noted files links) {visited : List Link} {completed : List Path}
    (h : Progress files dirs links start done state) (hvisited : ∀ link ∈ visited, link ∈ links)
    (hdistinct : (visited.map Prod.fst).Nodup) (hnew : ∀ link ∈ visited, link.1 ∉ done)
    (hpass : materializePass visited state = .ok (next, completed)) :
    Progress files dirs links start (done ∪ completed.toFinset) next ∧
      ∀ path ∈ completed, path ∈ visited.map Prod.fst := by
  induction visited generalizing done state completed with
  | nil =>
      cases hpass
      rw [List.toFinset_nil, Finset.union_empty]
      exact ⟨h, fun path hpath => absurd hpath List.not_mem_nil⟩
  | cons link rest ih =>
      rw [List.map_cons, List.nodup_cons] at hdistinct
      have hrest : ∀ link ∈ rest, link ∈ links := fun link hmem =>
        hvisited link (List.mem_cons_of_mem _ hmem)
      simp only [materializePass, bind_eq_ok] at hpass
      obtain ⟨copied, hcopied, hpass⟩ := hpass
      cases copied with
      | none =>
          obtain ⟨hprogress, hkeys⟩ := ih h hrest hdistinct.2
            (fun link hmem => hnew link (List.mem_cons_of_mem _ hmem)) hpass
          exact ⟨hprogress, fun path hpath => List.mem_cons_of_mem _ (hkeys path hpath)⟩
      | some copied =>
          simp only [bind_eq_ok] at hpass
          obtain ⟨⟨last, later⟩, hlater, hpass⟩ := hpass
          cases hpass
          have hlink := h.link hnoted (hvisited link List.mem_cons_self)
            (hnew link List.mem_cons_self) hcopied
          obtain ⟨hprogress, hkeys⟩ := ih hlink hrest hdistinct.2 (by
            intro other hmem hdone
            rcases Finset.mem_insert.mp hdone with hsame | hdone
            · exact hdistinct.1 (hsame ▸ List.mem_map_of_mem hmem)
            · exact hnew other (List.mem_cons_of_mem _ hmem) hdone) hlater
          refine ⟨?_, ?_⟩
          · rw [List.toFinset_cons, Finset.union_insert, ← Finset.insert_union]
            exact hprogress
          · intro path hpath
            rcases List.mem_cons.mp hpath with rfl | hpath
            · exact List.mem_cons_self
            · exact List.mem_cons_of_mem _ (hkeys path hpath)

/-! ### All passes -/

theorem Pending.perm {pending visited : List Link} (h : Pending links done pending)
    (hperm : visited.Perm pending) : Pending links done visited where
  listed link := hperm.mem_iff.trans (h.listed link)
  distinct := ((hperm.map Prod.fst).nodup_iff).mpr h.distinct

theorem Pending.remaining {pending : List Link} (h : Pending links done pending)
    (completed : List Path) : Pending links (done ∪ completed.toFinset)
      (pending.filter fun link => link.1 ∉ completed) where
  listed link := by
    rw [List.mem_filter, h.listed, Finset.mem_union, List.mem_toFinset, not_or, and_assoc,
      decide_eq_true_eq]
  distinct := h.distinct.sublist ((List.filter_sublist).map Prod.fst)

theorem Pending.new {pending : List Link} (h : Pending links done pending) {link : Link}
    (hmem : link ∈ pending) : link.1 ∉ done := ((h.listed link).mp hmem).2

theorem Pending.sublist {pending : List Link} (h : Pending links done pending) :
    ∀ link ∈ pending, link ∈ links := fun link hmem => ((h.listed link).mp hmem).1

theorem materializeArchiveLinks_nil {order : IterationOrder} {passes : Nat} :
    materializeArchiveLinks order passes [] state = some (.ok state.tree) := by
  cases passes with
  | zero => rfl
  | succ passes => rfl

theorem Progress.of_nil {order : IterationOrder} {passes : Nat} {tree : Tree}
    (h : Progress files dirs links start done state) (hpending : Pending links done [])
    (hdone : materializeArchiveLinks order passes [] state = some (.ok tree)) :
    ∃ last, last.tree = tree ∧
      Progress files dirs links start (links.map Prod.fst).toFinset last := by
  have hall : done = (links.map Prod.fst).toFinset := by
    ext path
    rw [List.mem_toFinset]
    constructor
    · intro hpath
      obtain ⟨target, hlink⟩ := h.linked path hpath
      exact List.mem_map_of_mem hlink
    · intro hpath
      obtain ⟨link, hlink, hname⟩ := List.mem_map.mp hpath
      by_contra hnot
      exact List.not_mem_nil ((hpending.listed link).mpr ⟨hlink, hname ▸ hnot⟩)
  rw [materializeArchiveLinks_nil, Option.some.injEq, Except.ok.injEq] at hdone
  exact ⟨state, hdone, hall ▸ h⟩

/-- When the links are done, each of them is a copy. -/
theorem Progress.all {order : IterationOrder} {passes : Nat} {pending : List Link} {tree : Tree}
    (hnoted : Noted files links) (h : Progress files dirs links start done state)
    (hpending : Pending links done pending)
    (hdone : materializeArchiveLinks order passes pending state = some (.ok tree)) :
    ∃ last, last.tree = tree ∧
      Progress files dirs links start (links.map Prod.fst).toFinset last := by
  induction passes generalizing done state pending with
  | zero =>
      cases pending with
      | cons link rest => cases hdone
      | nil => exact h.of_nil hpending hdone
  | succ passes ih =>
      cases pending with
      | nil => exact h.of_nil hpending hdone
      | cons link rest =>
          simp only [materializeArchiveLinks] at hdone
          have hvisited := hpending.perm (order.perm passes (link :: rest))
          cases hpass : materializePass (order.visit passes (link :: rest)) state with
          | error error =>
              rw [hpass] at hdone
              cases hdone
          | ok result =>
              obtain ⟨next, completed⟩ := result
              rw [hpass] at hdone
              simp only at hdone
              split_ifs at hdone
              · cases hdone
              obtain ⟨hprogress, -⟩ := h.pass hnoted hvisited.sublist hvisited.distinct
                (fun link hmem => hvisited.new hmem) hpass
              exact ih hprogress (hpending.remaining completed) hdone

/-- A pass that copies something leaves fewer links. -/
theorem length_remaining_lt {pending visited : List Link} {completed : List Path}
    (hperm : visited.Perm pending) (hkeys : ∀ path ∈ completed, path ∈ visited.map Prod.fst)
    (hsome : completed ≠ []) :
    (pending.filter fun link => link.1 ∉ completed).length < pending.length := by
  obtain ⟨path, hpath⟩ := List.exists_mem_of_ne_nil _ hsome
  obtain ⟨copied, hcopied, hname⟩ := List.mem_map.mp (hkeys path hpath)
  refine List.length_filter_lt_length_iff_exists.mpr ⟨copied, hperm.mem_iff.mp hcopied, ?_⟩
  rw [decide_eq_true_eq, not_not, hname]
  exact hpath

/-- A pass that copies nothing ends the passes, so there are at most as many as links. -/
theorem materializeArchiveLinks_isSome {order : IterationOrder} {passes : Nat}
    {pending : List Link} (hnoted : Noted files links)
    (h : Progress files dirs links start done state) (hpending : Pending links done pending)
    (hpasses : pending.length ≤ passes) :
    (materializeArchiveLinks order passes pending state).isSome = true := by
  induction passes generalizing done state pending with
  | zero =>
      obtain rfl : pending = [] := List.length_eq_zero_iff.mp (by omega)
      rw [materializeArchiveLinks_nil]
      rfl
  | succ passes ih =>
      cases pending with
      | nil =>
          rw [materializeArchiveLinks_nil]
          rfl
      | cons link rest =>
          have hvisited := hpending.perm (order.perm passes (link :: rest))
          simp only [materializeArchiveLinks]
          cases hpass : materializePass (order.visit passes (link :: rest)) state with
          | error error => rfl
          | ok result =>
              obtain ⟨next, completed⟩ := result
              obtain ⟨hprogress, hkeys⟩ := h.pass hnoted hvisited.sublist hvisited.distinct
                (fun link hmem => hvisited.new hmem) hpass
              simp only
              split_ifs with hnone
              · rfl
              refine ih hprogress (hpending.remaining completed) ?_
              have hshorter := length_remaining_lt (order.perm passes _) hkeys hnone
              omega

theorem Progress.whole (h : Progress files dirs links start (links.map Prod.fst).toFinset state) :
    Whole files dirs links start state.tree where
  laid := h.laid.congr (fun path content => by
    constructor
    · exact Present.reached
    · intro hreached
      cases hreached with
      | file hfile => exact .inl hfile
      | link hlink htarget =>
          exact .inr ⟨List.mem_toFinset.mpr (List.mem_map_of_mem hlink), .link hlink htarget⟩)
    (fun _ => Iff.rfl)
  complete link hlink := h.reached _ (List.mem_toFinset.mpr (List.mem_map_of_mem hlink))
  bounded := by
    rw [← h.size]
    exact h.bounded

/-! ### Every order succeeds if the tree exists -/

section Completeness
variable {whole : Tree}

theorem Whole.treeSize_eq (h : Whole files dirs links start whole)
    (hreached : Reached files links path content) : treeSize whole path = content.length := by
  rw [treeSize, (h.laid.file path content).mpr hreached]

/-- The copies and one more are not larger than all of them. -/
theorem Whole.fits (hwhole : Whole files dirs links start whole)
    (h : Progress files dirs links start done state) {link : Link} (hlink : link ∈ links)
    (hnew : link.1 ∉ done) (hreached : Reached files links link.1 content) :
    state.totalBytes + content.length ≤ maxExtractedBytes := by
  have hsame : ∑ path ∈ done, treeSize state.tree path = ∑ path ∈ done, treeSize whole path := by
    refine Finset.sum_congr rfl fun path hpath => ?_
    obtain ⟨found, hfound⟩ := h.reached path hpath
    rw [treeSize_of_laid h.laid (.inr ⟨hpath, hfound⟩), hwhole.treeSize_eq hfound]
  have hsub : insert link.1 done ⊆ (links.map Prod.fst).toFinset := by
    intro path hpath
    rw [List.mem_toFinset]
    rcases Finset.mem_insert.mp hpath with rfl | hpath
    · exact List.mem_map_of_mem hlink
    · obtain ⟨target, htarget⟩ := h.linked path hpath
      exact List.mem_map_of_mem htarget
  have hle := Finset.sum_le_sum_of_subset (f := treeSize whole) hsub
  have hbounded := hwhole.bounded
  rw [Finset.sum_insert hnew, hwhole.treeSize_eq hreached] at hle
  rw [h.size, hsame]
  omega

/-- A link is copied or waits for its target, and nothing stands in its way. -/
theorem Whole.link_ok (hwhole : Whole files dirs links start whole) (hnoted : Noted files links)
    (h : Progress files dirs links start done state) {link : Link} (hlink : link ∈ links)
    (hnew : link.1 ∉ done) :
    ∃ copied, materializeLink state link = .ok copied ∧
      ∀ found, Present files links done link.2 found → copied ≠ none := by
  obtain ⟨content, hcontent⟩ := hwhole.complete link hlink
  have htarget : Reached files links link.2 content := hcontent.of_link hnoted hlink
  have hfile := (hwhole.laid.file _ _).mpr htarget
  have hclear : ¬ Obstructed state.tree link.2.dropLast := by
    rw [h.laid.obstructed_iff]
    rintro ⟨place, found, hpresent, hbelow⟩
    have hdirectory := (hwhole.laid.directory place).mpr (.inr ⟨link.2, content, htarget,
      (prefix_dropLast_iff (hnoted.aimed link hlink)).mp hbelow⟩)
    rw [(hwhole.laid.file place found).mpr hpresent.reached] at hdirectory
    cases hdirectory
  have hmetadata : symlinkMetadata state.tree link.2 = .ok (state.tree link.2) :=
    symlinkMetadata_eq_ok.mpr ⟨hclear, rfl⟩
  cases hnode : state.tree link.2 with
  | none =>
      rw [hnode] at hmetadata
      refine ⟨none, bind_eq_ok.mpr ⟨none, hmetadata, rfl⟩, ?_⟩
      intro found hpresent
      rw [(h.laid.file _ _).mpr hpresent] at hnode
      cases hnode
  | some node =>
      cases node with
      | symlink raw => exact absurd hnode (h.laid.symlink _ raw)
      | directory =>
          have hdirectory : whole link.2 = some .directory := by
            rw [hwhole.laid.directory]
            rcases (h.laid.directory _).mp hnode with hdir | ⟨place, found, hpresent, hbelow⟩
            · exact .inl hdir
            · exact .inr ⟨place, found, hpresent.reached, hbelow⟩
          rw [hfile] at hdirectory
          cases hdirectory
      | file found =>
          have hfound : found = content :=
            (((h.laid.file _ _).mp hnode).reached).unique hnoted htarget
          subst hfound
          rw [hnode] at hmetadata
          obtain ⟨tree, htree⟩ := h.laid.createNew_ok hwhole.laid
            (fun place found hpresent => hpresent.reached) (fun _ hdir => hdir)
            (hnoted.named link hlink) hcontent (by
              rintro found (hplain | ⟨hdone, -⟩)
              · exact hnoted.fresh link hlink found hplain
              · exact hnew hdone)
          have htotal := addExtractedSize_eq_ok.mpr
            ⟨rfl, hwhole.fits h hlink hnew hcontent⟩
          refine ⟨some ⟨tree, _⟩, materializeLink_eq_some.mpr ⟨found, hmetadata, htotal, htree⟩, ?_⟩
          exact fun _ _ hnone => by cases hnone

/-- A pass comes to its end, and it copies something if some target is there at its start. -/
theorem Whole.pass_ok (hwhole : Whole files dirs links start whole) (hnoted : Noted files links)
    {visited : List Link} (h : Progress files dirs links start done state)
    (hvisited : ∀ link ∈ visited, link ∈ links) (hdistinct : (visited.map Prod.fst).Nodup)
    (hnew : ∀ link ∈ visited, link.1 ∉ done) :
    ∃ next completed, materializePass visited state = .ok (next, completed) ∧
      ((∃ link ∈ visited, ∃ found, Present files links done link.2 found) → completed ≠ []) := by
  induction visited generalizing done state with
  | nil =>
      refine ⟨state, [], rfl, ?_⟩
      rintro ⟨link, hmem, -⟩
      exact absurd hmem List.not_mem_nil
  | cons link rest ih =>
      rw [List.map_cons, List.nodup_cons] at hdistinct
      have hlink := hvisited link List.mem_cons_self
      have hfresh := hnew link List.mem_cons_self
      have hrest : ∀ link ∈ rest, link ∈ links := fun link hmem =>
        hvisited link (List.mem_cons_of_mem _ hmem)
      obtain ⟨copied, hcopied, hready⟩ := hwhole.link_ok hnoted h hlink hfresh
      cases copied with
      | none =>
          obtain ⟨next, completed, hpass, hsome⟩ := ih h hrest hdistinct.2
            (fun link hmem => hnew link (List.mem_cons_of_mem _ hmem))
          refine ⟨next, completed, bind_eq_ok.mpr ⟨none, hcopied, hpass⟩, ?_⟩
          rintro ⟨other, hmem, found, hpresent⟩
          rcases List.mem_cons.mp hmem with rfl | hmem
          · exact absurd rfl (hready found hpresent)
          · exact hsome ⟨other, hmem, found, hpresent⟩
      | some copied =>
          obtain ⟨next, completed, hpass, -⟩ := ih (h.link hnoted hlink hfresh hcopied) hrest
            hdistinct.2 (by
              intro other hmem hdone
              rcases Finset.mem_insert.mp hdone with hsame | hdone
              · exact hdistinct.1 (hsame ▸ List.mem_map_of_mem hmem)
              · exact hnew other (List.mem_cons_of_mem _ hmem) hdone)
          refine ⟨next, link.1 :: completed, ?_, fun _ => List.cons_ne_nil _ _⟩
          exact bind_eq_ok.mpr ⟨some copied, hcopied,
            bind_eq_ok.mpr ⟨(next, completed), hpass, rfl⟩⟩

theorem Whole.of_nil (hwhole : Whole files dirs links start whole) {order : IterationOrder}
    {passes : Nat} (h : Progress files dirs links start done state)
    (hpending : Pending links done []) :
    materializeArchiveLinks order passes [] state = some (.ok whole) := by
  obtain ⟨last, hlast, hprogress⟩ :=
    h.of_nil hpending (@materializeArchiveLinks_nil state order passes)
  rw [materializeArchiveLinks_nil, ← hlast, hprogress.whole.laid.unique hwhole.laid]

/-- Every order leads to the tree. -/
theorem Whole.materialize (hwhole : Whole files dirs links start whole)
    (hnoted : Noted files links) {order : IterationOrder} {passes : Nat} {pending : List Link}
    (h : Progress files dirs links start done state) (hpending : Pending links done pending)
    (hpasses : pending.length ≤ passes) :
    materializeArchiveLinks order passes pending state = some (.ok whole) := by
  induction passes generalizing done state pending with
  | zero =>
      obtain rfl : pending = [] := List.length_eq_zero_iff.mp (by omega)
      exact hwhole.of_nil h hpending
  | succ passes ih =>
      cases pending with
      | nil => exact hwhole.of_nil h hpending
      | cons link rest =>
          have hperm := order.perm passes (link :: rest)
          have hvisited := hpending.perm hperm
          have hready : ∃ other ∈ order.visit passes (link :: rest), ∃ found,
              Present files links done other.2 found := by
            have hlink := hpending.sublist link List.mem_cons_self
            obtain ⟨content, hcontent⟩ := hwhole.complete link hlink
            rcases @Reached.ready files links done _ _ hcontent with (hfile | ⟨hdone, -⟩) |
              ⟨other, hother, hnew, found, hpresent⟩
            · exact absurd hfile (hnoted.fresh link hlink content)
            · exact absurd hdone (hpending.new List.mem_cons_self)
            · exact ⟨other, (hvisited.listed other).mpr ⟨hother, hnew⟩, found, hpresent⟩
          obtain ⟨next, completed, hpass, hsome⟩ := hwhole.pass_ok hnoted h hvisited.sublist
            hvisited.distinct (fun link hmem => hvisited.new hmem)
          obtain ⟨hprogress, hkeys⟩ := h.pass hnoted hvisited.sublist hvisited.distinct
            (fun link hmem => hvisited.new hmem) hpass
          have hshorter := length_remaining_lt hperm hkeys (hsome hready)
          simp only [materializeArchiveLinks, hpass, if_neg (hsome hready)]
          exact ih hprogress (hpending.remaining completed) (by omega)

end Completeness

end Links

end MindOne.Archives
