import MindOne.Lib.AddressText
import MindOne.Models.FoundModels

/-!
# The download of a model file

The file grows in a partial file beside its target. What an earlier run has left there
is continued with a range request, and thrown away when the server answers with the
whole file. The complete file is validated, linked to its target, validated again at
its new place, and then the partial file is removed.
-/

namespace MindOne.Downloads

open CheckedArithmetic AddressText MindOne.Engine MindOne.Models MindOne.Stream

inductive ModelPlatform where
  | huggingFace | modelScope
  deriving DecidableEq, Repr

/-- An address with its path; one without segments cannot be a base. -/
structure Url where
  scheme : String
  host : Option String
  segments : Option (List String)
  deriving DecidableEq, Repr

structure ModelDownloadRequest where
  platform : ModelPlatform
  repository : String
  branch : String
  remoteFile : String
  outputName : String
  /-- The canonical directory of the models. -/
  modelsDirectory : PathBuf
  expectedSha256 : Option String
  overrideBaseUrl : Option Url

inductive DownloadError where
  | unsafePath | insecureUrl | missingChecksum | http | io
  | alreadyExists (path : PathBuf)
  | httpStatus (status : Nat)
  | downloadTooLarge (limitBytes : Nat)
  | validation (error : ModelFileError)
  deriving DecidableEq

/-- An answer of the server. Values of headers that are no text are absent, and a chunk that
is absent is the error with which the body breaks off. -/
structure Response where
  url : Url
  status : Nat
  headers : List (String × Option String)
  contentLength : Option Nat
  chunks : List (Option (List UInt8))

/-! ### Requests -/

section Requests

def containsForbiddenPathCharacter (value : String) (slashIsForbidden : Bool) : Bool :=
  value.toList.any fun c =>
    c = '\\' || c = '\x00' || c = '\n' || c = '\r' || (slashIsForbidden && c = '/')

def slashSegments (value : String) : List String :=
  (value.toList.splitOn '/').map String.ofList

/-- Plain relative paths of at most 32 segments. -/
def validateSlashSegments (value : String) (requirePair : Bool) : Except DownloadError Unit := do
  rejectIf (value = "" ∨ containsForbiddenPathCharacter value false = true) .unsafePath
  rejectIf (value.toList.head? = some '/' ∨ (slashSegments value).head? = some "." ∨
    ".." ∈ slashSegments value) .unsafePath
  rejectIf ((requirePair = true ∧ (slashSegments value).length < 2) ∨
    32 < (slashSegments value).length) .unsafePath

def validateSingleSegment (value : String) : Except DownloadError Unit :=
  rejectIf (value = "" ∨ 255 < value.utf8ByteSize ∨ value = "." ∨ value = ".." ∨
    containsForbiddenPathCharacter value true = true) .unsafePath

def validateRequestPaths (request : ModelDownloadRequest) : Except DownloadError Unit := do
  validateSlashSegments request.repository true
  validateSlashSegments request.remoteFile false
  validateSingleSegment request.branch
  validateSingleSegment request.outputName
  let suffix := (extension request.outputName.toList).map fun suffix => suffix.map Char.toLower
  rejectIf (suffix ≠ some "gguf".toList ∧ suffix ≠ some "safetensors".toList) .unsafePath

def ModelPlatform.baseUrl : ModelPlatform → Url
  | .huggingFace => ⟨"https", some "huggingface.co", some [""]⟩
  | .modelScope => ⟨"https", some "modelscope.cn", some ["models", ""]⟩

def popIfEmpty (segments : List String) : List String :=
  if segments.getLast? = some "" then segments.dropLast else segments

/-- `PathSegmentsMut::push`: dots are no segments. -/
def pushSegments (segments pushed : List String) : List String :=
  segments ++ pushed.filter fun segment => segment ≠ "." ∧ segment ≠ ".."

def buildDownloadUrl (request : ModelDownloadRequest) : Except DownloadError Url := do
  let base := request.overrideBaseUrl.getD request.platform.baseUrl
  let segments ← okOr .unsafePath base.segments
  let pushed := slashSegments request.repository ++ ["resolve", request.branch] ++
    slashSegments request.remoteFile
  return { base with segments := some (pushSegments (popIfEmpty segments) pushed) }

def Url.isLoopback (url : Url) : Bool :=
  url.host.any fun host => host ∈ ["127.0.0.1", "::1", "localhost"]

def enforceTransport (url : Url) : Except DownloadError Unit :=
  rejectIf (¬ (url.scheme = "https" ∨ (url.scheme = "http" ∧ url.isLoopback = true))) .insecureUrl

end Requests

/-! ### Answers -/

section Answers

/-- `trim_start_matches("W/")`. -/
def trimWeak : List Char → List Char
  | 'W' :: '/' :: rest => trimWeak rest
  | value => value

def trimMatches (p : Char → Bool) (value : List Char) : List Char :=
  ((value.dropWhile p).reverse.dropWhile p).reverse

/-- A text in lower case, without surrounding space and the marks of an entity tag. -/
def unmarked (value : String) : List Char :=
  (trimMatches (· = '"') (trimWeak (trimMatches isWhitespace value.toList))).map Char.toLower

def normalizeSha256 (value : String) : Option String :=
  if (unmarked value).length = 64 ∧
      (unmarked value).all (fun c => c.isDigit || ('a' ≤ c && c ≤ 'f')) = true then
    some (String.ofList (unmarked value))
  else none

def Response.header (response : Response) (name : String) : Option String :=
  (response.headers.lookup name).join

def checksumFromHeaders (response : Response) : Option String :=
  (["x-checksum-sha256", "x-linked-etag"].findSome? fun name =>
    (response.header name).bind normalizeSha256).or
      ((response.header "etag").bind normalizeSha256)

/-- What stands behind the last slash. -/
def behindSlash (value : List Char) : List Char :=
  ((rsplitOnce ['/'] value).map Prod.snd).getD value

def responseTotal (response : Response) (start : Nat) : Option Nat :=
  match (response.header "content-range").bind fun value =>
    parseUnsigned (2 ^ 64) (behindSlash value.toList) with
  | some total => some total
  | none => response.contentLength.bind fun length =>
      if start + length < 2 ^ 64 then some (start + length) else none

end Answers

/-! ### The files -/

/-- The partial file and the target. -/
structure Workspace where
  leftover : Option FileNode
  target : Option FileNode
  deriving DecidableEq

def safePartialLength : Option FileNode → Except DownloadError Nat
  | none => .ok 0
  | some (.regular content _) =>
      if maxModelBytes < content.length then .error (.downloadTooLarge maxModelBytes)
      else .ok content.length
  | some .directory | some .symlink => .error .unsafePath

/-- The content with which the partial file is opened. -/
def openPartialFile (resumed : Bool) : Option FileNode → Except DownloadError (List UInt8)
  | none => .ok []
  | some (.regular content _) => .ok (if resumed = true then content else [])
  | some .directory | some .symlink => .error .io

/-- What is known before the request is sent. -/
structure Prepared where
  target : PathBuf
  leftover : PathBuf
  url : Url
  existing : Nat
  deriving DecidableEq

def prepare (request : ModelDownloadRequest) (workspace : Workspace) :
    Except DownloadError Prepared := do
  validateRequestPaths request
  let target := request.modelsDirectory.join request.outputName
  rejectIf (workspace.target.isSome = true) (.alreadyExists target)
  let suffix ← okOr .unsafePath (extension request.outputName.toList)
  let leftover := request.modelsDirectory.join (downloadPartialName request.outputName suffix)
  rejectIf (leftover.parent ≠ some request.modelsDirectory) .unsafePath
  let url ← buildDownloadUrl request
  enforceTransport url
  let existing ← safePartialLength workspace.leftover
  return ⟨target, leftover, url, existing⟩

/-- The digest that is trusted, and whether the partial file is continued. -/
def acceptResponse (request : ModelDownloadRequest) (existing : Nat) (response : Response) :
    Except DownloadError (String × Bool) := do
  enforceTransport response.url
  rejectIf (response.status ≠ 200 ∧ response.status ≠ 206) (.httpStatus response.status)
  let trusted ← okOr .missingChecksum
    ((request.expectedSha256.bind normalizeSha256).or (checksumFromHeaders response))
  let resumed := decide (0 < existing) && decide (response.status = 206)
  let total := responseTotal response (if resumed = true then existing else 0)
  rejectIf (total.any (fun value => maxModelBytes < value) = true)
    (.downloadTooLarge maxModelBytes)
  return (trusted, resumed)

/-- The chunks are written as they come; what was written is left in any case. -/
def receive : List (Option (List UInt8)) → Nat → List UInt8 →
    Except DownloadError Unit × List UInt8
  | [], _, content => (.ok (), content)
  | none :: _, _, content => (.error .http, content)
  | some chunk :: rest, downloaded, content =>
      if 2 ^ 64 ≤ downloaded + chunk.length then (.error .unsafePath, content ++ chunk)
      else if maxModelBytes < downloaded + chunk.length then
        (.error (.downloadTooLarge maxModelBytes), content ++ chunk)
      else receive rest (downloaded + chunk.length) (content ++ chunk)

/-- What a call returns, what it leaves, and what it had written to the partial file. -/
structure Outcome where
  result : Except DownloadError ValidationReport
  workspace : Workspace
  written : List UInt8

section Downloads
variable (tools : ModelTools) (now : Int)

/-- `validate_model` for the entry of a canonical directory. -/
def validateEntry (path : PathBuf) (node : Option FileNode) (trusted : String) :
    Except ModelFileError ValidationReport :=
  validateModel tools (plainTree (node.toList.map fun found => (path, found))) now path
    (some trusted)

/-- The complete partial file is validated and linked to its target, which is validated too. -/
def publish (prepared : Prepared) (trusted : String) (workspace : Workspace) :
    Except DownloadError ValidationReport × Workspace :=
  match validateEntry tools now prepared.leftover workspace.leftover trusted with
  | .error error => (.error (.validation error), { workspace with leftover := none })
  | .ok _ =>
      match workspace.target with
      | some _ => (.error (.alreadyExists prepared.target), workspace)
      | none =>
          match validateEntry tools now prepared.target workspace.leftover trusted with
          | .error error => (.error (.validation error), ⟨none, none⟩)
          | .ok report => (.ok report, ⟨none, workspace.leftover⟩)

/-- The body of an accepted answer is written and published. -/
def store (prepared : Prepared) (trusted : String) (resumed : Bool) (response : Response)
    (workspace : Workspace) : Outcome :=
  match openPartialFile resumed workspace.leftover with
  | .error error => ⟨.error error, workspace, []⟩
  | .ok content =>
      match receive response.chunks (if resumed = true then prepared.existing else 0) content with
      | (.error error, written) =>
          ⟨.error error, { workspace with leftover := some (.regular written now) }, written⟩
      | (.ok _, written) =>
          let published := publish tools now prepared trusted
            { workspace with leftover := some (.regular written now) }
          ⟨published.1, published.2, written⟩

/-- The request for what the partial file lacks. -/
def rangeStart (existing : Nat) : Option Nat := if 0 < existing then some existing else none

/-- `download_model`; the server sees the address and where the range starts, and may not
answer at all. -/
def downloadModel (request : ModelDownloadRequest)
    (send : Url → Option Nat → Option Response) (workspace : Workspace) : Outcome :=
  match prepare request workspace with
  | .error error => ⟨.error error, workspace, []⟩
  | .ok prepared =>
      match send prepared.url (rangeStart prepared.existing) with
      | none => ⟨.error .http, workspace, []⟩
      | some response =>
          match acceptResponse request prepared.existing response with
          | .error error => ⟨.error error, workspace, []⟩
          | .ok (trusted, resumed) => store tools now prepared trusted resumed response workspace

end Downloads

end MindOne.Downloads
