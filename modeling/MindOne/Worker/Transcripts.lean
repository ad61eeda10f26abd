import MindOne.Worker.Cuts
import MindOne.Worker.Responses

/-!
# What a worker sends of a stream

The events that a worker sends are the events of the stream, one by one and with the
authorized model, and then the marker of the end. The invariant compares the reader
with a reading of the lines that only collects their data.
-/

namespace MindOne.Worker

open CheckedArithmetic Json LineReader MindOne.Stream

/-- The data that lines dispatch, and the data since the last blank line. -/
structure Dispatch where
  events : List (List UInt8)
  data : List UInt8

def Dispatch.line (dispatch : Dispatch) : SseLine → Dispatch
  | .blank =>
      if dispatch.data = [] then dispatch else ⟨dispatch.events ++ [dispatch.data], []⟩
  | .data payload => { dispatch with data := EventReader.joined dispatch.data payload }
  | .comment | .unsupported => dispatch

def dispatched (lines : List (List UInt8)) : Dispatch :=
  lines.foldl (fun dispatch line => dispatch.line (SseLine.of line)) ⟨[], []⟩

theorem dispatched_snoc (lines : List (List UInt8)) (line : List UInt8) :
    dispatched (lines ++ [line]) = (dispatched lines).line (SseLine.of line) := by
  rw [dispatched, List.foldl_append]
  rfl

/-- The event with the authorized model. -/
def withModel (authorizedModel : String) (event : Value) : Value :=
  .object ((fieldsOf event).insert "model" (.string authorizedModel))

/-- The events that are sent, if the consumer asked for a stream. -/
def forwarded (codec : EngineCodec) (forwarding : Option StandardStreamForwarding)
    (events : List Value) : List PendingStreamEvent :=
  match forwarding with
  | none => []
  | some queue => events.mapIdx fun sequence event =>
      ⟨sequence, .data, codec.toText (withModel queue.authorizedModel event)⟩

/-- The line brings nothing. -/
def SseLine.Silent (line : SseLine) : Prop := line = .blank ∨ line = .comment

/-- What the reader has made of some lines. -/
structure Transcribed (codec : EngineCodec) (forwarding : Option StandardStreamForwarding)
    (kind : LocalOpenAiStreamKind) (expectedChoices : Nat) (lines : List (List UInt8))
    (raws : List (List UInt8)) (events : List Value) (reader : EventReader) : Prop where
  dispatch : dispatched lines =
    ⟨raws ++ if reader.sawDone = true then [doneMarker] else [], reader.eventData⟩
  parsed : raws.map codec.fromSlice = events.map some
  unmarked : doneMarker ∉ raws
  heard : OpenAiStreamAccumulator.Heard kind expectedChoices events reader.accumulator
  sent : reader.sent = forwarded codec forwarding events
  written : ∀ event ∈ reader.sent, event.eventData.isSome = true
  sequence : forwarding.isSome = true → reader.eventSequence = events.length
  ended : reader.sawDone = true → reader.eventData = [] ∧
    ∃ before after, lines = before ++ after ∧ (dispatched before).events = raws ++ [doneMarker] ∧
      ∀ line ∈ after, (SseLine.of line).Silent

section Steps
variable {codec : EngineCodec} {forwarding : Option StandardStreamForwarding}
  {clock : Nat → Elapsed} {kind : LocalOpenAiStreamKind} {expectedChoices : Nat}
  {lines raws : List (List UInt8)} {events : List Value} {reader after : EventReader}
  {line : List UInt8}

theorem transcribed_new : Transcribed codec forwarding kind expectedChoices [] [] []
    (.new kind expectedChoices) where
  dispatch := rfl
  parsed := rfl
  unmarked := List.not_mem_nil
  heard := OpenAiStreamAccumulator.heard_new kind expectedChoices
  sent := by cases forwarding <;> rfl
  written := fun _ h => (List.not_mem_nil h).elim
  sequence := fun _ => rfl
  ended := fun h => by cases h

theorem orStop_eq_ok {α : Type} {x : CliResult α} {a : α} :
    reader.orStop x = .ok a ↔ x = .ok a := by
  cases x with
  | error e => simp [EventReader.orStop, EventReader.stop]
  | ok b => simp [EventReader.orStop]

/-- A line that brings nothing and changes nothing. -/
theorem Transcribed.silent (h : Transcribed codec forwarding kind expectedChoices lines raws events
    reader) (hsilent : (SseLine.of line).Silent)
    (hnothing : (dispatched lines).line (SseLine.of line) = dispatched lines) :
    Transcribed codec forwarding kind expectedChoices (lines ++ [line]) raws events reader where
  dispatch := by rw [dispatched_snoc, hnothing, h.dispatch]
  parsed := h.parsed
  unmarked := h.unmarked
  heard := h.heard
  sent := h.sent
  written := h.written
  sequence := h.sequence
  ended := by
    intro hdone
    obtain ⟨hdata, before, rest, hlines, hbefore, hrest⟩ := h.ended hdone
    refine ⟨hdata, before, rest ++ [line], by rw [hlines, List.append_assoc], hbefore, ?_⟩
    intro other hother
    rcases List.mem_append.mp hother with hmem | hmem
    · exact hrest other hmem
    · rw [List.mem_singleton.mp hmem]
      exact hsilent

/-- A line of data. -/
theorem Transcribed.data {payload : List UInt8}
    (h : Transcribed codec forwarding kind expectedChoices lines raws events reader)
    (hline : SseLine.of line = .data payload) (hafter : reader.addData payload = .ok after) :
    Transcribed codec forwarding kind expectedChoices (lines ++ [line]) raws events after := by
  rw [EventReader.addData] at hafter
  split at hafter
  · cases hafter
  · rename_i hrunning
    split at hafter
    · cases hafter
    · cases hafter
      refine ⟨?_, h.parsed, h.unmarked, h.heard, h.sent, h.written, h.sequence, fun hdone =>
        absurd hdone hrunning⟩
      rw [dispatched_snoc, hline, h.dispatch]
      rfl

/-- What forwarding an event does. -/
theorem forward_ok {event : Value}
    (h : EventReader.forward codec forwarding reader event = .ok after) :
    after.accumulator = reader.accumulator ∧ after.sawDone = reader.sawDone ∧
      match forwarding with
      | none => after.sent = reader.sent ∧ after.eventSequence = reader.eventSequence
      | some queue => after.eventSequence = reader.eventSequence + 1 ∧
          ∃ text, codec.toText (withModel queue.authorizedModel event) = some text ∧
            after.sent = reader.sent ++ [⟨reader.eventSequence, .data, some text⟩] := by
  cases forwarding with
  | none =>
      cases h
      exact ⟨rfl, rfl, rfl, rfl⟩
  | some queue =>
      simp only [EventReader.forward, bind_eq_ok, orStop_eq_ok, okOr_eq_ok, EventReader.send] at h
      obtain ⟨normalized, hnormalized, serialized, hserialized, sending, hsending, -, -, hafter⟩ := h
      split at hsending
      · cases hsending
        cases hafter
        simp only [normalizeStreamEventModel, bind_eq_ok, okOr_eq_ok, rejectIf_eq_ok,
          exists_const] at hnormalized
        obtain ⟨object, hobject, -, hnormal⟩ := hnormalized
        cases hnormal
        refine ⟨rfl, rfl, rfl, serialized, ?_, rfl⟩
        rw [withModel, fieldsOf, hobject, Option.getD_some]
        exact hserialized
      · cases hsending

/-- The events that have been sent, with one more. -/
theorem Transcribed.forward {event : Value} {accumulator : OpenAiStreamAccumulator}
    (h : Transcribed codec forwarding kind expectedChoices lines raws events reader)
    (hafter : EventReader.forward codec forwarding { reader with accumulator } event = .ok after) :
    after.sent = forwarded codec forwarding (events ++ [event]) ∧
      (∀ sent ∈ after.sent, sent.eventData.isSome = true) ∧
      (forwarding.isSome = true → after.eventSequence = (events ++ [event]).length) := by
  obtain ⟨-, -, hsent⟩ := forward_ok hafter
  cases forwarding with
  | none =>
      dsimp only at hsent
      rw [hsent.1]
      exact ⟨h.sent, h.written, fun hsome => by cases hsome⟩
  | some queue =>
      obtain ⟨hsequence, text, htext, hsent⟩ := hsent
      have hlength : reader.eventSequence = events.length := h.sequence rfl
      rw [hsent, h.sent, hsequence, hlength]
      refine ⟨?_, fun sent hmem => ?_, fun _ => by simp⟩
      · rw [forwarded, forwarded, List.mapIdx_append]
        simp [htext]
      · rcases List.mem_append.mp hmem with hold | hnew
        · exact h.written sent (by rw [h.sent]; exact hold)
        · rw [List.mem_singleton.mp hnew]
          rfl

/-- A blank line. -/
theorem Transcribed.blank
    (h : Transcribed codec forwarding kind expectedChoices lines raws events reader)
    (hline : SseLine.of line = .blank)
    (hafter : reader.dispatch codec forwarding clock = .ok after) :
    ∃ raws events,
      Transcribed codec forwarding kind expectedChoices (lines ++ [line]) raws events after := by
  have hdata : (dispatched lines).data = reader.eventData := by rw [h.dispatch]
  rw [EventReader.dispatch] at hafter
  split at hafter
  · rename_i hempty
    cases hafter
    refine ⟨raws, events, h.silent (.inl hline) ?_⟩
    rw [hline, Dispatch.line, if_pos (hdata.trans hempty)]
  · rename_i hsome
    split at hafter
    · cases hafter
    · rename_i hrunning
      have hraws : (dispatched lines).events = raws := by
        rw [h.dispatch]
        simp [hrunning]
      have hnext : dispatched (lines ++ [line]) = ⟨raws ++ [reader.eventData], []⟩ := by
        rw [dispatched_snoc, hline, Dispatch.line, if_neg (by rwa [hdata]), hraws, hdata]
      split at hafter
      · rename_i hmarker
        cases hafter
        refine ⟨raws, events, ?_, h.parsed, h.unmarked, h.heard, h.sent, h.written, h.sequence, ?_⟩
        · rw [hnext, hmarker]
          rfl
        · intro _
          exact ⟨rfl, lines ++ [line], [], (List.append_nil _).symm, by rw [hnext, hmarker],
            fun _ hmem => (List.not_mem_nil hmem).elim⟩
      · rename_i hmarker
        simp only [bind_eq_ok, orStop_eq_ok, okOr_eq_ok] at hafter
        obtain ⟨event, hevent, observed, hobserved, sending, hsending, hafter⟩ := hafter
        cases hafter
        obtain ⟨haccumulator, hsawDone, -⟩ := forward_ok hsending
        obtain ⟨hsent, hwritten, hsequence⟩ := h.forward hsending
        refine ⟨raws ++ [reader.eventData], events ++ [event], ?_, ?_, ?_, ?_, hsent, hwritten,
          hsequence, fun hdone => absurd (hsawDone.symm.trans hdone) hrunning⟩
        · rw [hnext]
          simp [hsawDone, hrunning]
        · rw [List.map_append, List.map_append, h.parsed]
          simp [hevent]
        · intro hmem
          rcases List.mem_append.mp hmem with hold | hnew
          · exact h.unmarked hold
          · exact hmarker (List.mem_singleton.mp hnew).symm
        · dsimp only
          rw [haccumulator]
          exact h.heard.observe hobserved

theorem Transcribed.step
    (h : Transcribed codec forwarding kind expectedChoices lines raws events reader)
    (hafter : reader.onLine codec forwarding clock line = .ok after) :
    ∃ raws events,
      Transcribed codec forwarding kind expectedChoices (lines ++ [line]) raws events after := by
  rw [EventReader.onLine] at hafter
  cases hline : SseLine.of line with
  | blank =>
      rw [hline] at hafter
      exact h.blank hline hafter
  | comment =>
      rw [hline] at hafter
      cases hafter
      exact ⟨raws, events, h.silent (.inr hline) (by rw [hline]; rfl)⟩
  | data payload =>
      rw [hline] at hafter
      exact ⟨raws, events, h.data hline hafter⟩
  | unsupported =>
      rw [hline] at hafter
      cases hafter

/-- Lines, one after the other. -/
theorem Transcribed.all {more : List (List UInt8)}
    (h : Transcribed codec forwarding kind expectedChoices lines raws events reader)
    (hrun : more.foldlM (EventReader.onLine codec forwarding clock) reader = .ok after) :
    ∃ raws events,
      Transcribed codec forwarding kind expectedChoices (lines ++ more) raws events after := by
  induction more generalizing lines raws events reader with
  | nil =>
      cases hrun
      rw [List.append_nil]
      exact ⟨raws, events, h⟩
  | cons line more ih =>
      obtain ⟨next, hnext, hrest⟩ := bind_eq_ok.mp hrun
      obtain ⟨raws, events, hstep⟩ := h.step hnext
      obtain ⟨raws, events, hall⟩ := ih hstep hrest
      rw [List.append_assoc] at hall
      exact ⟨raws, events, hall⟩

end Steps

/-- A stream, what was sent of it, and the response that was made of it. -/
structure StreamTranscript (codec : EngineCodec) (forwarding : Option StandardStreamForwarding)
    (kind : LocalOpenAiStreamKind) (expectedChoices : Nat) (bytes : List UInt8)
    (raws : List (List UInt8)) (events : List Value) (sent : List PendingStreamEvent)
    (response : Value) : Prop where
  whole : (takeLines 10 bytes).2 = []
  dispatch : dispatched (takeLines 10 bytes).1 = ⟨raws ++ [doneMarker], []⟩
  done : doneMarker ∉ raws ∧ ∃ before after, (takeLines 10 bytes).1 = before ++ after ∧
    (dispatched before).events = raws ++ [doneMarker] ∧
    ∀ line ∈ after, (SseLine.of line).Silent
  parsed : raws.map codec.fromSlice = events.map some
  sent : sent = forwarded codec forwarding events ++
    match forwarding with
    | none => []
    | some _ => [⟨events.length, .upstreamDone, none⟩]
  written : ∀ event ∈ forwarded codec forwarding events, event.eventData.isSome = true
  complete : ResponseComplete kind expectedChoices events response

section Runs
variable {codec : EngineCodec} {forwarding : Option StandardStreamForwarding}
  {clock : Nat → Elapsed} {endpoint : String} {request : Value} {slotId : Nat}
  {head : ResponseHead} {pieces : List (List UInt8)} {response : StandardExecutionResult}

/-- Reading a whole stream and finishing it. -/
theorem transcript_of_body {kind : LocalOpenAiStreamKind} {expectedChoices : Nat}
    {bytes : List UInt8} {feed : Feed EventReader UInt8} {last : EventReader}
    (hpush : (⟨.new kind expectedChoices, []⟩ : Feed EventReader UInt8).push 10
      (EventReader.onLine codec forwarding clock) bytes = .ok feed)
    (hend : endOfStream forwarding feed = .ok (last, response)) :
    ∃ raws events, StreamTranscript codec forwarding kind expectedChoices bytes raws events
      last.sent response.response := by
  obtain ⟨reader, hlines, hfeed⟩ := bind_eq_ok.mp hpush
  cases hfeed
  obtain ⟨raws, events, htranscribed⟩ := transcribed_new.all hlines
  simp only [endOfStream, bind_eq_ok, orStop_eq_ok, rejectIf_eq_ok, exists_const] at hend
  obtain ⟨hrest, result, hresult, sending, hsending, hlast⟩ := hend
  cases hlast
  simp only [not_or, not_not, List.nil_append] at hrest hlines htranscribed
  obtain ⟨hdone, hcomplete⟩ := htranscribed.heard.finish hresult
  obtain ⟨-, before, after, hsplit, hbefore, hafter⟩ := htranscribed.ended hdone
  refine ⟨raws, events, hrest.1, ?_, ⟨htranscribed.unmarked, before, after, hsplit, hbefore, hafter⟩,
    htranscribed.parsed, ?_, ?_, hcomplete⟩
  · rw [htranscribed.dispatch, if_pos hdone, hrest.2]
  · cases forwarding with
    | none =>
        cases hsending
        rw [htranscribed.sent, List.append_nil]
    | some queue =>
        simp only [sendDone, EventReader.send] at hsending
        split at hsending
        · cases hsending
          dsimp only
          rw [htranscribed.sent, htranscribed.sequence rfl]
        · cases hsending
  · rw [← htranscribed.sent]
    exact htranscribed.written

theorem openStream_ok {opened : EventReader × List (Except String (List UInt8))}
    (h : openStream forwarding endpoint request slotId (fun _ => .ok ⟨head, []⟩) = .ok opened) :
    ∃ prepared, prepareInternalStreamRequest endpoint request slotId = .ok prepared ∧
      prepared.consumerStreamRequested = forwarding.isSome ∧
      opened.1 = .new prepared.kind prepared.expectedChoices := by
  simp only [openStream, bind_eq_ok, rejectIf_eq_ok, exists_const] at h
  obtain ⟨prepared, hprepared, hsame, response, -, _, -, hopened⟩ := h
  cases hopened
  exact ⟨prepared, hprepared, not_not.mp hsame, rfl⟩

/-- A run that comes to a response: what it read, what it sent, and what the response says. -/
theorem runOver_transcript
    (h : (runOver codec forwarding clock endpoint request slotId head pieces).result =
      .ok response) :
    ∃ prepared raws events, prepareInternalStreamRequest endpoint request slotId = .ok prepared ∧
      StreamTranscript codec forwarding prepared.kind prepared.expectedChoices pieces.flatten raws
        events (runOver codec forwarding clock endpoint request slotId head pieces).sent
        response.response := by
  have hlimit : pieces.flatten.length ≤ maxInferenceResponseBytes := by
    by_contra hover
    have hrefused : ∃ error, (runOver codec forwarding clock endpoint request slotId head
        pieces).result = .error error := runOver_tooLarge (Nat.lt_of_not_le hover)
    obtain ⟨error, herror⟩ := hrefused
    rw [herror] at h
    cases h
  rw [runOver, executeLocalInferenceStream, openStream_pieces] at h ⊢
  cases hopen : openStream forwarding endpoint request slotId (fun _ => .ok ⟨head, []⟩) with
  | error e =>
      rw [hopen] at h
      cases h
  | ok opened =>
      obtain ⟨prepared, hprepared, -, hstart⟩ := openStream_ok hopen
      rw [hopen] at h
      simp only [Except.map] at h ⊢
      rw [readBody_pieces hlimit] at h ⊢
      cases hread : ((⟨opened.1, []⟩ : Feed EventReader UInt8).push 10
          (EventReader.onLine codec forwarding clock) pieces.flatten >>= endOfStream forwarding) with
      | error stopped =>
          rw [hread] at h
          cases h
      | ok last =>
          rw [hread] at h
          cases h
          obtain ⟨feed, hpush, hend⟩ := bind_eq_ok.mp hread
          rw [hstart] at hpush
          obtain ⟨raws, events, htranscript⟩ := transcript_of_body hpush hend
          exact ⟨prepared, raws, events, hprepared, htranscript⟩

/-- Up to the size limit, the bytes decide what the worker sends and what comes of it, for
every cut and at every pace; beyond the limit nothing comes of it. What comes of a stream
is its transcript. -/
theorem local_stream_transcript (codec : EngineCodec)
    (forwarding : Option StandardStreamForwarding) (clock : Nat → Elapsed) (endpoint : String)
    (request : Value) (slotId : Nat) (head : ResponseHead) (pieces : List (List UInt8)) :
    (pieces.flatten.length ≤ maxInferenceResponseBytes → ∀ clock' others,
      others.flatten = pieces.flatten →
        (runOver codec forwarding clock' endpoint request slotId head others).untimed =
          (runOver codec forwarding clock endpoint request slotId head pieces).untimed) ∧
    (maxInferenceResponseBytes < pieces.flatten.length → ∃ error,
      (runOver codec forwarding clock endpoint request slotId head pieces).result =
        .error error) ∧
    ∀ response,
      (runOver codec forwarding clock endpoint request slotId head pieces).result =
        .ok response →
      ∃ prepared raws events,
        prepareInternalStreamRequest endpoint request slotId = .ok prepared ∧
        StreamTranscript codec forwarding prepared.kind prepared.expectedChoices pieces.flatten
          raws events (runOver codec forwarding clock endpoint request slotId head pieces).sent
          response.response := by
  refine ⟨fun hlimit clock' others hsame => ?_, runOver_tooLarge, fun response => runOver_transcript⟩
  exact (runOver_untimed hsame.symm hlimit).symm

end Runs

section Sample

def sampleDoubles : Doubles where
  Double := Nat
  asF64 := fun value => match value with
    | .float "20.0" => some 20
    | _ => none
  ofU64 := id
  isFinite := fun _ => true
  isPositive := fun value => 0 < value
  add := (· + ·)
  min := Nat.min
  perSecond := fun tokens milliseconds => tokens * 1000 / milliseconds
  number := fun _ => none

/-- The first event of a completion. -/
def sampleToken : Value := .object [
  ("choices", .array [.object [("finish_reason", .null), ("index", .int 0),
    ("text", .string "hi")]]),
  ("created", .int 1), ("id", .string "c"), ("model", .string "m"),
  ("object", .string "text_completion"), ("system_fingerprint", .string "f")]

/-- The last event, which repeats the text, with statistics at the edge of their range. -/
def sampleLast : Value := .object [
  ("choices", .array [.object [("finish_reason", .string "stop"), ("index", .int 0),
    ("text", .string "hi")]]),
  ("created", .int 1), ("id", .string "c"), ("model", .string "m"),
  ("object", .string "text_completion"), ("system_fingerprint", .string "f"),
  ("timings", .object [("predicted_per_second", .float "20.0")]),
  ("usage", .object [("completion_tokens", .int 1), ("prompt_tokens", .int 2147483647),
    ("total_tokens", .int 2147483648)])]

def sampleTokenText : String :=
  "\x7b\"choices\":[\x7b\"finish_reason\":null,\"index\":0,\"text\":\"hi\"\x7d],\"created\":1," ++
    "\"id\":\"c\",\"model\":\"m\",\"object\":\"text_completion\",\"system_fingerprint\":\"f\"\x7d"

def sampleLastText : String :=
  "\x7b\"choices\":[\x7b\"finish_reason\":\"stop\",\"index\":0,\"text\":\"hi\"\x7d],\"created\":1," ++
    "\"id\":\"c\",\"model\":\"m\",\"object\":\"text_completion\",\"system_fingerprint\":\"f\"," ++
    "\"timings\":\x7b\"predicted_per_second\":20.0\x7d,\"usage\":\x7b\"completion_tokens\":1," ++
    "\"prompt_tokens\":2147483647,\"total_tokens\":2147483648\x7d\x7d"

def sampleCodec : EngineCodec where
  doubles := sampleDoubles
  fromSlice := fun bytes =>
    if bytes = utf8 sampleTokenText then some sampleToken
    else if bytes = utf8 sampleLastText then some sampleLast
    else none
  toText := fun value => some (if hasStats value = true then sampleLastText else sampleTokenText)

def sampleForwarding : StandardStreamForwarding := ⟨"m", fun _ => true⟩

def sampleClock : Nat → Elapsed := fun _ => ⟨5000, by decide⟩

def sampleRequest : Value := .object [("stream", .bool true)]

def sampleHead : ResponseHead := ⟨200, some "text/event-stream", none⟩

/-- A frame of the stream: a line of data and a blank line. -/
def sampleFrame (data : List UInt8) : List UInt8 := dataField ++ 32 :: data ++ [10, 10]

def sampleStream : List UInt8 :=
  sampleFrame (utf8 sampleTokenText) ++ sampleFrame (utf8 sampleLastText) ++ sampleFrame doneMarker

def sampleRun (pieces : List (List UInt8)) : StreamRun :=
  runOver sampleCodec (some sampleForwarding) sampleClock openaiCompletions sampleRequest 0
    sampleHead pieces

theorem sampleRun_ok : ∃ response, (sampleRun [sampleStream]).result = .ok response := by
  have hsome : (sampleRun [sampleStream]).result.toOption.isSome = true := by decide +kernel
  cases hresult : (sampleRun [sampleStream]).result with
  | error e =>
      rw [hresult] at hsome
      cases hsome
  | ok response => exact ⟨response, rfl⟩

/-- What fills a stream to more than the limit. -/
def sampleFiller : List UInt8 := List.replicate 665600 120

theorem length_sampleFiller : sampleFiller.length = maxInferenceResponseBytes :=
  List.length_replicate

theorem local_stream_transcript_sample :
    (sampleRun [sampleStream.take 100, sampleStream.drop 100]).untimed =
      (sampleRun [sampleStream]).untimed ∧
    (∃ error, (sampleRun [[120], sampleFiller]).result = .error error) ∧
    ∃ response prepared raws events,
      prepareInternalStreamRequest openaiCompletions sampleRequest 0 = .ok prepared ∧
      StreamTranscript sampleCodec (some sampleForwarding) prepared.kind prepared.expectedChoices
        sampleStream raws events (sampleRun [sampleStream]).sent response := by
  have hall := local_stream_transcript sampleCodec (some sampleForwarding) sampleClock
    openaiCompletions sampleRequest 0 sampleHead
  have hflatten : [sampleStream].flatten = sampleStream := by simp
  have hover : maxInferenceResponseBytes < [[120], sampleFiller].flatten.length := by
    rw [List.flatten_cons, List.length_append, List.flatten_cons, List.flatten_nil, List.append_nil,
      length_sampleFiller, List.length_singleton]
    omega
  refine ⟨(hall [sampleStream]).1 (by rw [hflatten]; decide +kernel) sampleClock _ (by simp),
    (hall _).2.1 hover, ?_⟩
  obtain ⟨response, hresponse⟩ := sampleRun_ok
  obtain ⟨prepared, raws, events, htranscript⟩ := (hall [sampleStream]).2.2 response hresponse
  rw [hflatten] at htranscript
  exact ⟨response.response, prepared, raws, events, htranscript⟩

theorem readBody_refused {codec : EngineCodec} {forwarding : Option StandardStreamForwarding}
    {clock : Nat → Elapsed} {start : EventReader} {first second : Except String (List UInt8)}
    {incoming : Incoming} {stopped : Stopped}
    (hfirst : readChunk codec forwarding clock ⟨0, ⟨start, []⟩⟩ first = .ok incoming)
    (hsecond : readChunk codec forwarding clock incoming second = .error stopped) :
    readBody codec forwarding clock start [first, second] = .error stopped := by
  rw [readBody, List.foldlM_cons, hfirst, ok_bind, List.foldlM_cons, hsecond]
  rfl

theorem sampleRun_tooLarge {piece : List UInt8}
    (h : maxInferenceResponseBytes < piece.length) : (sampleRun [piece]).sent = [] := by
  have hopen : openStream (some sampleForwarding) openaiCompletions sampleRequest 0
      (fun _ => .ok ⟨sampleHead, [piece].map .ok⟩) = .ok (.new .completion 1, [piece].map .ok) := rfl
  have hrefused : readChunk sampleCodec (some sampleForwarding) sampleClock
      ⟨0, ⟨.new .completion 1, []⟩⟩ (.ok piece) = .error ⟨bodyTooLarge, []⟩ := by
    rw [readChunk, if_pos (by omega)]
    rfl
  rw [sampleRun, runOver, executeLocalInferenceStream, hopen]
  simp only [readBody, List.map_cons, List.foldlM_cons, hrefused]
  rfl

theorem sampleRun_cut :
    ((sampleRun [sampleFrame (utf8 sampleTokenText), sampleFiller]).sent) =
      [⟨0, .data, some sampleTokenText⟩] := by
  have hopen : openStream (some sampleForwarding) openaiCompletions sampleRequest 0
      (fun _ => .ok ⟨sampleHead, [sampleFrame (utf8 sampleTokenText), sampleFiller].map .ok⟩) =
        .ok (.new .completion 1,
          [sampleFrame (utf8 sampleTokenText), sampleFiller].map .ok) := rfl
  have hfirst : (readChunk sampleCodec (some sampleForwarding) sampleClock
      ⟨0, ⟨.new .completion 1, []⟩⟩ (.ok (sampleFrame (utf8 sampleTokenText)))).toOption.any
        (fun incoming => decide (0 < incoming.received ∧
          incoming.feed.state.sent = [⟨0, .data, some sampleTokenText⟩])) = true := by
    decide +kernel
  rw [sampleRun, runOver, executeLocalInferenceStream, hopen]
  cases hchunk : readChunk sampleCodec (some sampleForwarding) sampleClock
      ⟨0, ⟨.new .completion 1, []⟩⟩ (.ok (sampleFrame (utf8 sampleTokenText))) with
  | error e =>
      rw [hchunk] at hfirst
      cases hfirst
  | ok incoming =>
      rw [hchunk] at hfirst
      obtain ⟨hreceived, hsent⟩ : 0 < incoming.received ∧
          incoming.feed.state.sent = [⟨0, .data, some sampleTokenText⟩] := of_decide_eq_true hfirst
      have hrefused : readChunk sampleCodec (some sampleForwarding) sampleClock incoming
          (.ok sampleFiller) = .error ⟨bodyTooLarge, incoming.feed.state.sent⟩ := by
        have hfull := length_sampleFiller
        have hlimit : 0 < maxInferenceResponseBytes := by decide
        rw [readChunk, if_pos (by omega)]
        rfl
      have hbody := readBody_refused hchunk hrefused
      simp only [List.map_cons, List.map_nil, hbody]
      exact hsent

/-- Beyond the limit the cut shows in what is sent, and a total of tokens may leave the
32-bit integers. -/
theorem local_stream_transcript_fails :
    ([sampleFrame (utf8 sampleTokenText), sampleFiller].flatten =
        [sampleFrame (utf8 sampleTokenText) ++ sampleFiller].flatten ∧
      (sampleRun [sampleFrame (utf8 sampleTokenText), sampleFiller]).sent ≠
        (sampleRun [sampleFrame (utf8 sampleTokenText) ++ sampleFiller]).sent) ∧
    ∃ response usage, (sampleRun [sampleStream]).result = .ok response ∧
      (fieldsOf response.response).get "usage" = some usage ∧
      tokensOf (fieldsOf usage) "total_tokens" = some 2147483648 ∧ ¬ 2147483648 < 2 ^ 31 := by
  refine ⟨⟨by simp, ?_⟩, ?_⟩
  · rw [sampleRun_cut, sampleRun_tooLarge]
    · simp
    · rw [List.length_append, length_sampleFiller]
      have hsome : 0 < (sampleFrame (utf8 sampleTokenText)).length := by decide +kernel
      omega
  · have htotal : (sampleRun [sampleStream]).result.toOption.any (fun response =>
        ((fieldsOf response.response).get "usage").any fun usage =>
          decide (tokensOf (fieldsOf usage) "total_tokens" = some 2147483648)) = true := by
      decide +kernel
    obtain ⟨response, hresponse⟩ := sampleRun_ok
    rw [hresponse] at htotal
    change ((fieldsOf response.response).get "usage").any _ = true at htotal
    cases husage : (fieldsOf response.response).get "usage" with
    | none =>
        rw [husage] at htotal
        cases htotal
    | some usage =>
        rw [husage] at htotal
        exact ⟨response, usage, hresponse, husage, of_decide_eq_true htotal, by decide⟩

end Sample

end MindOne.Worker
