import Mathlib.Data.Finset.Dedup
import MindOne.Models.Verification

/-!
# The deletion of a model

A deletion moves the files of a model away, takes its record out of the registry and
then removes the files. When one of these operations fails, the ones before it are
undone. The registry is replaced by a new file, which is in its place before its
directory is synchronised and the lock is given back.
-/

namespace MindOne.Models

open CheckedArithmetic MindOne.Engine MindOne.Stream

/-- The operations of a locked section that changes the registry. -/
inductive SectionStep where
  | createDirectory | openLock | lock | readData
  | createTemp | writeTemp | syncTemp | persist
  | syncDirectory | unlock
  deriving DecidableEq, Repr

/-- The operations of a deletion that can fail, but those that undo others. -/
inductive DeletionStep where
  /-- A read before anything is changed. -/
  | inspect
  | moveAway
  | registry (step : SectionStep)
  | removeFile
  | listEntries
  | removeEntry (position : Nat)
  | removeDirectory
  | syncParent
  deriving DecidableEq, Repr

def DeletionStep.sectionStep : DeletionStep → Option SectionStep
  | .registry step => some step
  | _ => none

/-- The new registry file is already in its place. -/
def SectionStep.visible : SectionStep → Bool
  | .syncDirectory | .unlock => true
  | _ => false

def SectionStep.beforeOperation : SectionStep → Bool
  | .createDirectory | .openLock | .lock | .readData => true
  | _ => false

/-- A file system with the names in its directories. Only directories, and links to them,
hold anything, and the parent of a canonical path is canonical. -/
structure DirectoryTree extends FileTree where
  entries : PathBuf → List String
  entries_complete : ∀ directory name, (node (directory.join name)).isSome = true →
    name ∈ entries directory
  holder : ∀ path name, (node (path.join name)).isSome = true →
    node path = some .directory ∨ node path = some .symlink
  canonical_parent : ∀ path parent, canonicalize path = some path → path.parent = some parent →
    canonicalize parent = some parent

abbrev Nodes := PathBuf → Option FileNode

/-- What a deletion changes. -/
structure Store where
  registry : RegistryFile
  node : Nodes

/-- `with_lock` with write access, of whose operations one may fail. -/
def withLock {α : Type} (fault : Option SectionStep)
    (operation : RegistryData → Except ModelRegistryError (RegistryData × α))
    (file : RegistryFile) : Except ModelRegistryError α × RegistryFile :=
  if fault.any SectionStep.beforeOperation = true then (.error .io, file)
  else
    match readData file >>= operation with
    | .error e => (.error (if fault = some .unlock then .io else e), file)
    | .ok (data, a) =>
        match fault with
        | none => (.ok a, some data)
        | some step => (.error .io, if step.visible = true then some data else file)

/-- What the checks of a deletion have established. -/
inductive DeletionPlan where
  | file (current : ModelRecord) (quarantine : PathBuf)
  | bundle (current : ModelRecord) (directory quarantine : PathBuf) (entries : List String)

namespace DeletionPlan

def current : DeletionPlan → ModelRecord
  | file current _ | bundle current _ _ _ => current

end DeletionPlan

section Checks
variable (tools : ModelTools) (tree : DirectoryTree) (models : PathBuf)

def planFile (current : ModelRecord) : Except ModelRegistryError DeletionPlan := do
  ensureManagedPath tree.toFileTree current.path models
  let node ← okOr .io (tree.node current.path)
  rejectIf (node.isFile = false) (.outsideManagedDirectory current.path)
  let parent ← okOr (.outsideManagedDirectory current.path) current.path.parent
  let quarantine := parent.join (".mindone-delete-" ++ current.id.text ++ ".tmp")
  rejectIf ((tree.canonicalize quarantine).isSome = true)
    (.corrupt ("发现未完成的模型删除：" ++ quarantine.display))
  return .file current quarantine

def checkEntry (bundle : PathBuf) (expected : List String) (name : String) :
    Except ModelRegistryError Unit := do
  let path := bundle.join name
  let unsafeEntry := ModelRegistryError.corrupt
    ("模型包目录包含未登记或不安全的条目：" ++ path.display)
  let node ← okOr .io (tree.node path)
  rejectIf (node.isFile = false) unsafeEntry
  let resolved ← okOr .io (tree.canonicalize path)
  rejectIf (resolved ≠ path ∨ name ∉ expected) unsafeEntry

def planBundle (current : ModelRecord) : Except ModelRegistryError DeletionPlan := do
  (artifactPaths current).forM fun path => ensureManagedPath tree.toFileTree path models
  let directory ← okOr (.outsideManagedDirectory current.path) current.path.parent
  let canonicalRoot ← okOr .io (tree.canonicalize models)
  let canonicalBundle ← okOr .io (tree.canonicalize directory)
  let node ← okOr .io (tree.node directory)
  rejectIf (node ≠ .directory ∨ canonicalBundle = canonicalRoot ∨
      canonicalBundle.parent ≠ some canonicalRoot)
    (.outsideManagedDirectory canonicalBundle)
  let expected := current.artifacts.filterMap fun artifact => artifact.path.fileName
  rejectIf (expected.toFinset.card ≠ current.artifacts.length)
    (.corrupt ("模型包 " ++ current.name ++ " 的文件名重复或缺失"))
  let entries := tree.entries canonicalBundle
  entries.forM (checkEntry tree canonicalBundle expected)
  rejectIf (entries.toFinset ≠ expected.toFinset)
    (.corrupt ("模型包 " ++ current.name ++ " 的分片集合不完整"))
  let quarantine := canonicalRoot.join (".mindone-delete-" ++ current.id.text ++ ".bundle.tmp")
  rejectIf ((tree.canonicalize quarantine).isSome = true)
    (.corrupt ("发现未完成的模型包删除：" ++ quarantine.display))
  return .bundle current canonicalBundle quarantine entries

def planDeletion (file : RegistryFile) (nameOrId : String) :
    Except ModelRegistryError DeletionPlan := do
  let current ← findRecord tools tree.toFileTree models file nameOrId
  if current.artifacts ≠ [] then planBundle tree models current
  else planFile tree models current

end Checks

/-! ### The changes -/

/-- `fs::rename` of a file; what is at its new place goes. -/
def renameFile (source target : PathBuf) (node : Nodes) : Nodes :=
  Function.update (Function.update node target (node source)) source none

/-- `fs::rename` of a directory with what it holds. -/
def renameDirectory (source target : PathBuf) (node : Nodes) : Nodes := fun path =>
  if target.components <+: path.components then
    node ⟨source.components ++ path.components.drop target.components.length⟩
  else if source.components <+: path.components then none
  else node path

/-- The entries that `remove_dir_all` removes one by one, and whether it gets to the end. -/
def removeEntries (fault : Option DeletionStep) (directory : PathBuf) :
    Nat → List String → Nodes → Bool × Nodes
  | _, [], node => (true, node)
  | position, name :: rest, node =>
      if fault = some (.removeEntry position) then (false, node)
      else
        removeEntries fault directory (position + 1) rest
          (Function.update node (directory.join name) none)

def removeDirAll (fault : Option DeletionStep) (directory : PathBuf) (entries : List String)
    (node : Nodes) : Bool × Nodes :=
  if fault = some .listEntries then (false, node)
  else
    match removeEntries fault directory 0 entries node with
    | (false, node) => (false, node)
    | (true, node) =>
        if fault = some .removeDirectory then (false, node)
        else (true, Function.update node directory none)

namespace DeletionPlan

/-- A directory does not take the place of anything else. -/
def moveAway (plan : DeletionPlan) (node : Nodes) : Option Nodes :=
  match plan with
  | file current quarantine => some (renameFile current.path quarantine node)
  | bundle _ directory quarantine _ =>
      if (node quarantine).isSome = true then none
      else some (renameDirectory directory quarantine node)

def moveBack (plan : DeletionPlan) (node : Nodes) : Nodes :=
  match plan with
  | file current quarantine => renameFile quarantine current.path node
  | bundle _ directory quarantine _ => renameDirectory quarantine directory node

/-- The removal of what was moved away, and whether it succeeds. -/
def remove (plan : DeletionPlan) (fault : Option DeletionStep) (node : Nodes) : Bool × Nodes :=
  match plan with
  | file _ quarantine =>
      if fault = some .removeFile then (false, node)
      else (true, Function.update node quarantine none)
  | bundle _ _ quarantine entries => removeDirAll fault quarantine entries node

end DeletionPlan

/-- The files have been moved away and the record is out of the registry. -/
def finishDeletion (plan : DeletionPlan) (fault : Option DeletionStep) (removed : ModelRecord)
    (store : Store) : Except ModelRegistryError ModelRecord × Store :=
  match plan.remove fault store.node with
  | (true, node) =>
      (if fault = some .syncParent then .error .io else .ok removed, ⟨store.registry, node⟩)
  | (false, node) =>
      let restored := withLock none (fun data => .ok (restoreRecord plan.current data, ()))
        store.registry
      (restored.1.bind fun _ => .error .io, ⟨restored.2, plan.moveBack node⟩)

def performDeletion (plan : DeletionPlan) (fault : Option DeletionStep) (nameOrId : String)
    (store : Store) : Except ModelRegistryError ModelRecord × Store :=
  if fault = some .moveAway then (.error .io, store)
  else
    match plan.moveAway store.node with
    | none => (.error .io, store)
    | some moved =>
        match withLock (fault.bind DeletionStep.sectionStep) (removeRecord plan.current nameOrId)
          store.registry with
        | (.error e, registry) => (.error e, ⟨registry, plan.moveBack moved⟩)
        | (.ok removed, registry) => finishDeletion plan fault removed ⟨registry, moved⟩

/-- `ModelRegistry::delete`, of whose operations one may fail. -/
def deleteModel (tools : ModelTools) (tree : DirectoryTree) (models : PathBuf)
    (file : RegistryFile) (fault : Option DeletionStep) (nameOrId : String) (isInUse : Bool) :
    Except ModelRegistryError ModelRecord × Store :=
  let store : Store := ⟨file, tree.node⟩
  if isInUse = true then (.error (.inUse nameOrId), store)
  else if fault = some .inspect then (.error .io, store)
  else
    match planDeletion tools tree models file nameOrId with
    | .error e => (.error e, store)
    | .ok plan => performDeletion plan fault nameOrId store

end MindOne.Models
