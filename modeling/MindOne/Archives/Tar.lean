import MindOne.Lib.CheckedArithmetic
import MindOne.Stream.Events

/-!
# The extraction of a tar archive

Regular files and directories are written as they come. Symbolic links are only noted,
with their targets resolved by name inside the archive, and when all entries have been
read each of them is made a copy of the file it leads to. That takes several passes, as
a link may lead to a link, and within a pass the noted links are visited in whatever
order the map has them.
-/

namespace MindOne.Archives

open CheckedArithmetic MindOne.Stream

abbrev Name := List UInt8

/-- A path below the destination. -/
abbrev Path := List Name

inductive Component where
  | rootDir | curDir | parentDir
  | normal (name : Name)
  deriving DecidableEq

def slash : UInt8 := 47

def dot : UInt8 := 46

/-- `Path::components`: empty segments and inner dots are left out. -/
def components (path : List UInt8) : List Component :=
  let segments := path.splitOn slash
  let start : List Component :=
    if path.head? = some slash then [.rootDir]
    else if segments.head? = some [dot] then [.curDir]
    else []
  start ++ segments.filterMap fun segment =>
    if segment = [] ∨ segment = [dot] then none
    else if segment = [dot, dot] then some .parentDir
    else some (.normal segment)

inductive Node where
  | file (content : List UInt8)
  | directory
  | symlink (target : List UInt8)
  deriving DecidableEq

/-- What stands below the destination. -/
abbrev Tree := Path → Option Node

inductive ArchiveError where
  | entry | io | sizeUnreadable
  | escapingPath (path : List UInt8)
  | duplicateFile (path : Path)
  | missingTarget (path : Path)
  | escapingLink (target : List UInt8)
  | absoluteLink (target : List UInt8)
  | rootLink
  | unsupportedEntry (path : Path)
  | tooManyEntries
  | targetNotFile (link target : Path)
  | danglingOrCyclic
  | sizeOverflow
  | sizeLimit
  | sizeMismatch (path : Path) (expected copied : Nat)
  deriving DecidableEq

inductive EntryKind where
  | directory | symlink | regular | other
  deriving DecidableEq

/-- An entry as the archive reader hands it out; a size or a content that cannot be read
is absent. -/
structure TarEntry where
  path : List UInt8
  kind : EntryKind
  linkName : Option (List UInt8)
  size : Option Nat
  content : Option (List UInt8)
  deriving DecidableEq

def maxArchiveEntries : Nat := 100000

def maxExtractedBytes : Nat := 8 * 1024 * 1024 * 1024

/-! ### Paths -/

section Paths

/-- Only names count, and nothing may lead upwards. -/
def keepComponent (path : List UInt8) (normalized : Path) : Component → Except ArchiveError Path
  | .normal name => .ok (normalized ++ [name])
  | .curDir => .ok normalized
  | .parentDir | .rootDir => .error (.escapingPath path)

def safeArchivePath (path : List UInt8) : Except ArchiveError Path :=
  (components path).foldlM (keepComponent path) []

/-- One component of a link target, from the directory that is reached so far. -/
def followComponent (target : List UInt8) (resolved : Path) :
    Component → Except ArchiveError Path
  | .normal name => .ok (resolved ++ [name])
  | .curDir => .ok resolved
  | .parentDir => if resolved = [] then .error (.escapingLink target) else .ok resolved.dropLast
  | .rootDir => .error (.absoluteLink target)

/-- The parent of a link is normalised already. -/
def resolveArchiveLinkTarget (linkParent : Path) (target : List UInt8) :
    Except ArchiveError Path := do
  let resolved ← (components target).foldlM (followComponent target) linkParent
  rejectIf (resolved = []) .rootLink
  return resolved

end Paths

/-! ### Files -/

section Files

def Node.isDirectory : Node → Bool
  | .directory => true
  | _ => false

/-- Something on the way to a path is no directory. -/
def Obstructed (tree : Tree) (path : Path) : Prop :=
  ∃ above ∈ path.inits, ∃ node ∈ tree above, node.isDirectory = false

instance (tree : Tree) (path : Path) : Decidable (Obstructed tree path) :=
  inferInstanceAs (Decidable (∃ above ∈ path.inits, ∃ node ∈ tree above, node.isDirectory = false))

/-- `fs::create_dir_all` -/
def createDirAll (tree : Tree) (path : Path) : Except ArchiveError Tree := do
  rejectIf (Obstructed tree path) .io
  return fun place => if place <+: path then some .directory else tree place

/-- A new file, and the directories above it. -/
def createNew (tree : Tree) (path : Path) (content : List UInt8) : Except ArchiveError Tree := do
  let tree ← createDirAll tree path.dropLast
  rejectIf ((tree path).isSome = true) .io
  return fun place => if place = path then some (.file content) else tree place

def addExtractedSize (total size : Nat) : Except ArchiveError Nat := do
  rejectIf (2 ^ 64 ≤ total + size) .sizeOverflow
  rejectIf (maxExtractedBytes < total + size) .sizeLimit
  return total + size

def writeArchiveFile (tree : Tree) (entry : TarEntry) (output : Path) (expected : Nat) :
    Except ArchiveError Tree := do
  let content ← okOr .io entry.content
  let tree ← createNew tree output content
  rejectIf (content.length ≠ expected) (.sizeMismatch output expected content.length)
  return tree

/-- `fs::symlink_metadata`: nothing there, no way there, or what is there. -/
def symlinkMetadata (tree : Tree) (path : Path) : Except ArchiveError (Option Node) := do
  rejectIf (Obstructed tree path.dropLast) .io
  return tree path

end Files

/-! ### Links -/

section Links

/-- A link with its resolved target. -/
abbrev Link := Path × Path

/-- The map of pending links may be visited in any order, and in another one in each pass. -/
structure IterationOrder where
  visit : Nat → List Link → List Link
  perm : ∀ pass links, (visit pass links).Perm links

/-- The files that are there, and their size. -/
structure Extracted where
  tree : Tree
  totalBytes : Nat

/-- A link is copied if its target is there by now. -/
def materializeLink (state : Extracted) (link : Link) :
    Except ArchiveError (Option Extracted) := do
  match ← symlinkMetadata state.tree link.2 with
  | none => return none
  | some .directory | some (.symlink _) => .error (.targetNotFile link.1 link.2)
  | some (.file content) =>
      let total ← addExtractedSize state.totalBytes content.length
      let tree ← createNew state.tree link.1 content
      return some ⟨tree, total⟩

/-- One pass over the pending links; it returns the links that were copied. -/
def materializePass : List Link → Extracted → Except ArchiveError (Extracted × List Path)
  | [], state => .ok (state, [])
  | link :: rest, state => do
      match ← materializeLink state link with
      | none => materializePass rest state
      | some next =>
          let (last, completed) ← materializePass rest next
          return (last, link.1 :: completed)

/-- `materialize_archive_links`, for at most so many passes. -/
def materializeArchiveLinks (order : IterationOrder) :
    Nat → List Link → Extracted → Option (Except ArchiveError Tree)
  | _, [], state => some (.ok state.tree)
  | 0, _ :: _, _ => none
  | passes + 1, link :: rest, state =>
      match materializePass (order.visit passes (link :: rest)) state with
      | .error error => some (.error error)
      | .ok (next, completed) =>
          if completed = [] then some (.error .danglingOrCyclic)
          else materializeArchiveLinks order passes
            ((link :: rest).filter fun link => link.1 ∉ completed) next

end Links

/-! ### Entries -/

section Entries

structure Reading where
  extracted : Extracted
  paths : List Path
  pending : List Link

/-- An entry with a path that is not empty. -/
def extractAt (state : Reading) (entry : TarEntry) (path : Path) :
    Except ArchiveError Reading :=
  match entry.kind with
  | .directory => do
      let tree ← createDirAll state.extracted.tree path
      return { state with extracted := { state.extracted with tree := tree } }
  | .symlink => do
      rejectIf (path ∈ state.paths) (.duplicateFile path)
      let linkName ← okOr (.missingTarget path) entry.linkName
      let target ← resolveArchiveLinkTarget path.dropLast linkName
      return { state with paths := path :: state.paths, pending := (path, target) :: state.pending }
  | .other => .error (.unsupportedEntry path)
  | .regular => do
      rejectIf (path ∈ state.paths) (.duplicateFile path)
      let size ← okOr .sizeUnreadable entry.size
      let total ← addExtractedSize state.extracted.totalBytes size
      let tree ← writeArchiveFile state.extracted.tree entry path size
      return { state with extracted := ⟨tree, total⟩, paths := path :: state.paths }

def extractEntry (state : Reading) (entry : TarEntry) : Except ArchiveError Reading := do
  let path ← safeArchivePath entry.path
  if path = [] then return state else extractAt state entry path

/-- The loop over the entries, of which an unreadable one is absent. -/
def extractEntries (order : IterationOrder) (passes : Nat) :
    Nat → List (Option TarEntry) → Reading → Option (Except ArchiveError Tree)
  | 0, _, _ => some (.error .tooManyEntries)
  | _ + 1, [], state => materializeArchiveLinks order passes state.pending state.extracted
  | _ + 1, none :: _, _ => some (.error .entry)
  | left + 1, some entry :: rest, state =>
      match extractEntry state entry with
      | .error error => some (.error error)
      | .ok next =>
          if left = 0 ∧ entry.kind = .regular ∧ safeArchivePath entry.path ≠ .ok [] then
            some (.error .tooManyEntries)
          else extractEntries order passes left rest next

def emptyTree : Tree := fun place => if place = [] then some .directory else none

/-- `extract_tar_reader` into an empty destination; the result is absent if the links are not
done after so many passes. -/
def extractTarReader (order : IterationOrder) (passes : Nat) (items : List (Option TarEntry)) :
    Option (Except ArchiveError Tree) :=
  extractEntries order passes maxArchiveEntries items ⟨⟨emptyTree, 0⟩, [], []⟩

end Entries

end MindOne.Archives
