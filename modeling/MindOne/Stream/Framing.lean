import MindOne.Stream.Chunks

/-!
# What a client reads back

A client that reads the chunks of a stream by the grammar of server-sent events
gets back the events that went in exactly when none of them has a line break in
its text. The checks of an event do not rule a line break out: JSON allows it as
white space.
-/

namespace MindOne.Stream

open Coordinator EventStream Json

/-- The events among the chunks of a stream. -/
def sentEvents : List Chunk → List JobStreamEvent
  | [] => []
  | .event event :: chunks => event :: sentEvents chunks
  | .keepAlive :: chunks => sentEvents chunks
  | .terminal _ :: chunks => sentEvents chunks

/-- The characters of a list of chunks. -/
def sentText (encode : Value → Option String) (sent : List Chunk) : List Char :=
  sent.flatMap fun chunk => (chunk.text encode).toList

def eventId (event : JobStreamEvent) : List Char := (toString event.sequence).toList

/-- The messages that a client should get for the events, and the last one for the end. -/
def expectedMessages : List Char → List JobStreamEvent → List Message
  | lastEventId, [] => [⟨lastEventId, [], "[DONE]".toList⟩]
  | _, event :: events =>
      ⟨eventId event, [], event.eventData.toList⟩ :: expectedMessages (eventId event) events

/-- A finished stream: events and keep-alives, and the end mark. -/
def Finished (sent : List Chunk) : Prop :=
  ∃ body, sent = body ++ [.terminal .done] ∧ ∀ chunk ∈ body, ∀ terminal, chunk ≠ .terminal terminal

section Shape
variable {Turn : Type} {turn : StreamState → Turn → Option Chunk × StreamState}
  {state : StreamState} {turns : List Turn}

/-- A loop ends when it has sent its terminal. -/
def EndsWithTerminal (turn : StreamState → Turn → Option Chunk × StreamState) : Prop :=
  ∀ state input terminal, (turn state input).1 = some (.terminal terminal) →
    (turn state input).2.finished = true

theorem chunks_finished (h : state.finished = true) : chunks turn state turns = [] := by
  cases turns with
  | nil => rfl
  | cons input turns => rw [chunks, if_pos h]

/-- Nothing follows the terminal of a stream. -/
theorem finished_of_done (hturn : EndsWithTerminal turn)
    (h : Chunk.terminal .done ∈ chunks turn state turns) : Finished (chunks turn state turns) := by
  induction turns generalizing state with
  | nil => cases h
  | cons input turns ih =>
      rw [chunks] at h ⊢
      split at h
      · cases h
      · rename_i hopen
        rw [if_neg hopen]
        cases hchunk : (turn state input).1 with
        | none =>
            rw [hchunk, Option.toList_none, List.nil_append] at h
            exact ih h
        | some chunk =>
            rw [hchunk] at h
            rcases List.mem_append.mp h with hnow | hlater
            · have hdone : Chunk.terminal .done = chunk := List.mem_singleton.mp hnow
              have hend := hturn state input .done (hchunk.trans (congrArg some hdone.symm))
              rw [chunks_finished hend, ← hdone]
              exact ⟨[], rfl, fun _ hmem => (List.not_mem_nil hmem).elim⟩
            · have hnot (terminal : Terminal) : chunk ≠ .terminal terminal := by
                rintro rfl
                rw [chunks_finished (hturn state input terminal hchunk)] at hlater
                cases hlater
              obtain ⟨body, hbody, hplain⟩ := ih hlater
              refine ⟨chunk :: body, ?_, ?_⟩
              · rw [hbody]
                rfl
              · intro other hother
                rcases List.mem_cons.mp hother with rfl | hmem
                · exact hnot
                · exact hplain other hmem

end Shape

section Turns
variable {state after : StreamState} {now : Nat} {terminal : Terminal}

theorem frame_terminal (h : state.frame now = some (.terminal terminal, after)) :
    after.finished = true := by
  unfold StreamState.frame at h
  split at h
  · cases h
  · split at h
    · cases h
      rfl
    · cases h

theorem afterRead_not_terminal : (state.afterRead now).1 ≠ some (.terminal terminal) := by
  unfold StreamState.afterRead StreamState.keepAlive
  split
  · exact fun h => by cases h
  · split
    · exact fun h => by cases h
    · exact fun h => by cases h

/-- Only what is ready can be a terminal. -/
theorem sendOr_terminal {rest : Option Chunk × StreamState}
    (hrest : rest.1 ≠ some (.terminal terminal))
    (h : (state.sendOr now rest).1 = some (.terminal terminal)) :
    (state.sendOr now rest).2.finished = true := by
  unfold StreamState.sendOr at h ⊢
  split at h
  · rename_i chunk after hframe
    cases h
    exact frame_terminal hframe
  · exact absurd h hrest

theorem proxy_endsWithTerminal :
    EndsWithTerminal fun state (input : Nat × ProxyRead) => state.proxyTurn input.1 input.2 := by
  intro state input terminal h
  refine sendOr_terminal ?_ h
  split
  · exact fun h => by cases h
  · exact afterRead_not_terminal

theorem gateway_endsWithTerminal : EndsWithTerminal fun state
    (input : Nat × ApiResult JobStreamReadResponse × ApiResult Unit) =>
      state.gatewayTurn input.1 input.2.1 input.2.2 := by
  intro state input terminal h
  refine sendOr_terminal ?_ h
  split
  · exact fun h => by cases h
  · exact afterRead_not_terminal

end Turns

section Identifiers

theorem isDigit_not_special {c : Char} (h : c.isDigit = true) : ¬ IsBreak c ∧ c ≠ '\x00' := by
  refine ⟨?_, ?_⟩
  · rintro (rfl | rfl)
    · exact absurd h (by decide)
    · exact absurd h (by decide)
  · rintro rfl
    exact absurd h (by decide)

/-- The number of an event is a valid identifier. -/
theorem validId_eventId (event : JobStreamEvent) : ValidId (eventId event) := by
  have hchar : ∀ c ∈ eventId event, ¬ IsBreak c ∧ c ≠ '\x00' := by
    have hdigits (n : Nat) : ∀ c ∈ Nat.toDigits 10 n, ¬ IsBreak c ∧ c ≠ '\x00' := fun c hc =>
      isDigit_not_special (Nat.isDigit_of_mem_toDigits (by decide) (by decide) hc)
    intro c hc
    simp only [eventId, Int.toString_eq_repr, Int.repr_eq_if] at hc
    split at hc
    · rw [← Nat.toString_eq_repr, Nat.toString_eq_ofList_toDigits, String.toList_ofList] at hc
      exact hdigits _ c hc
    · rw [String.toList_append, ← Nat.toString_eq_repr, Nat.toString_eq_ofList_toDigits,
        String.toList_ofList (l := Nat.toDigits _ _)] at hc
      rcases List.mem_append.mp hc with hsign | hdigit
      · have hminus : c = '-' := by simpa using hsign
        subst hminus
        decide
      · exact hdigits _ c hdigit
  exact ⟨fun c hc => (hchar c hc).1, fun hzero => (hchar _ hzero).2 rfl⟩

end Identifiers

section Messages
variable {encode : Value → Option String} {buffers : Buffers} {event : JobStreamEvent}
  {rest : List Char} {body : List Chunk}

theorem text_event :
    ((Chunk.event event).text encode).toList = frame (eventId event) event.eventData.toList := by
  simp [Chunk.text, frame, eventId, String.toList_append]

theorem text_keepAlive : (Chunk.keepAlive.text encode).toList =
    ':' :: [' ', 'k', 'e', 'e', 'p', '-', 'a', 'l', 'i', 'v', 'e'] ++ ['\n', '\n'] := by
  simp [Chunk.text]

theorem text_done : ((Chunk.terminal .done).text encode).toList =
    ['d', 'a', 't', 'a', ':', ' '] ++ "[DONE]".toList ++ ['\n', '\n'] := by
  simp [Chunk.text]

/-- The messages of a finished stream, read from any point between two frames. -/
theorem messages_sent (hdata : buffers.data = []) (htype : buffers.eventType = [])
    (hbody : ∀ chunk ∈ body, ∀ terminal, chunk ≠ .terminal terminal) :
    messages buffers (lines false (sentText encode (body ++ [.terminal .done]))) =
        expectedMessages buffers.lastEventId (sentEvents body) ↔
      ∀ event ∈ sentEvents body, OneLine event.eventData.toList := by
  induction body generalizing buffers with
  | nil =>
      have hdone : OneLine "[DONE]".toList := by decide
      have hread := messages_dataFrame hdata hdone []
      rw [List.append_nil] at hread
      have htext : sentText encode ([] ++ [.terminal .done]) =
          ['d', 'a', 't', 'a', ':', ' '] ++ "[DONE]".toList ++ ['\n', '\n'] := by
        simp [sentText, text_done]
      rw [htext, hread, htype]
      exact ⟨fun _ _ hmem => (List.not_mem_nil hmem).elim, fun _ => rfl⟩
  | cons chunk body ih =>
      have hrest : ∀ chunk ∈ body, ∀ terminal, chunk ≠ .terminal terminal := fun other hother =>
        hbody other (List.mem_cons_of_mem chunk hother)
      have htext : sentText encode (chunk :: body ++ [.terminal .done]) =
          (chunk.text encode).toList ++ sentText encode (body ++ [.terminal .done]) := rfl
      rw [htext]
      cases chunk with
      | terminal terminal => exact absurd rfl (hbody _ List.mem_cons_self terminal)
      | keepAlive =>
          have hcomment : OneLine [' ', 'k', 'e', 'e', 'p', '-', 'a', 'l', 'i', 'v', 'e'] := by
            decide
          rw [text_keepAlive, messages_comment hdata hcomment]
          exact ih rfl rfl hrest
      | event event =>
          have hid := validId_eventId event
          have hcons : (∀ e ∈ sentEvents (.event event :: body), OneLine e.eventData.toList) ↔
              OneLine event.eventData.toList ∧
                ∀ e ∈ sentEvents body, OneLine e.eventData.toList := List.forall_mem_cons
          rw [text_event, hcons]
          constructor
          · intro hread
            have hone := data_of_frame hdata hid hread rfl
            rw [messages_frame hdata hid hone, htype] at hread
            exact ⟨hone, (ih rfl rfl hrest).mp (List.cons.inj hread).2⟩
          · rintro ⟨hone, hothers⟩
            rw [messages_frame hdata hid hone, htype]
            exact congrArg _ ((ih rfl rfl hrest).mpr hothers)

/-- A finished stream does not begin with a mark that a receiver drops. -/
theorem dropBom_sent (hbody : ∀ chunk ∈ body, ∀ terminal, chunk ≠ .terminal terminal) :
    dropBom (sentText encode (body ++ [.terminal .done])) =
      sentText encode (body ++ [.terminal .done]) := by
  cases body with
  | nil => simp [sentText, text_done, dropBom]
  | cons chunk body =>
      cases chunk with
      | terminal terminal => exact absurd rfl (hbody _ List.mem_cons_self terminal)
      | keepAlive => simp [sentText, text_keepAlive, dropBom]
      | event event => simp [sentText, text_event, frame, dropBom]

end Messages

section Streams

/-- One of the two loops has sent the events and the end mark. -/
def Streams (sent : List Chunk) (events : List JobStreamEvent) : Prop :=
  ((∃ state turns, proxyChunks state turns = sent) ∨
    ∃ state turns, gatewayChunks state turns = sent) ∧
    .terminal .done ∈ sent ∧ sentEvents sent = events

variable {sent : List Chunk} {events : List JobStreamEvent}

theorem Streams.finished (h : Streams sent events) : Finished sent := by
  obtain ⟨hsent, hdone, -⟩ := h
  rcases hsent with ⟨state, turns, rfl⟩ | ⟨state, turns, rfl⟩
  · exact finished_of_done proxy_endsWithTerminal hdone
  · exact finished_of_done gateway_endsWithTerminal hdone

theorem sentEvents_append (body more : List Chunk) :
    sentEvents (body ++ more) = sentEvents body ++ sentEvents more := by
  induction body with
  | nil => rfl
  | cons chunk body ih =>
      cases chunk with
      | terminal terminal => exact ih
      | keepAlive => exact ih
      | event event => exact congrArg _ ih

/-- A client reads the events of a stream back, and nothing else, exactly when none of
them has a line break. -/
theorem stream_read_back (encode : Value → Option String) (h : Streams sent events) :
    parse (sentText encode sent) = expectedMessages [] events ↔
      ∀ event ∈ events, OneLine event.eventData.toList := by
  obtain ⟨body, hsent, hbody⟩ := h.finished
  have hevents : events = sentEvents body := by
    rw [← h.2.2, hsent, sentEvents_append]
    exact List.append_nil _
  rw [hsent, hevents, parse, dropBom_sent hbody]
  have hempty : Buffers.empty.data = [] := rfl
  exact messages_sent hempty rfl hbody

/-- Every list of events is sent by the loops: what is pending goes first. -/
theorem chunks_pending {Turn : Type} {turn : StreamState → Turn → Option Chunk × StreamState}
    {now : Turn → Nat} {rest : StreamState → Turn → Option Chunk × StreamState}
    (hturn : ∀ state input, turn state input = state.sendOr (now input) (rest state input))
    (input : Turn) (events : List JobStreamEvent) (state : StreamState)
    (hopen : state.finished = false) (hterminal : state.terminal = some .done)
    (hpending : state.pending = events) :
    chunks turn state (List.replicate (events.length + 1) input) =
      events.map .event ++ [.terminal .done] := by
  induction events generalizing state with
  | nil =>
      have hsend : turn state input =
          (some (.terminal .done), { state with terminal := none, finished := true }) := by
        rw [hturn, StreamState.sendOr, StreamState.frame, hpending, hterminal]
      rw [List.length_nil, Nat.zero_add, List.replicate_one, chunks, if_neg (by simp [hopen]), hsend]
      rfl
  | cons event events ih =>
      have hsend : turn state input = (some (.event event),
          { state with pending := events, lastOutput := now input }) := by
        rw [hturn, StreamState.sendOr, StreamState.frame, hpending]
      rw [List.length_cons, List.replicate_succ, chunks, if_neg (by simp [hopen]), hsend]
      exact congrArg _ (ih _ hopen hterminal rfl)

theorem streams_all (events : List JobStreamEvent) :
    Streams (events.map .event ++ [.terminal .done]) events := by
  have hevents : sentEvents (events.map .event ++ [.terminal .done]) = events := by
    induction events with
    | nil => rfl
    | cons event events ih => exact congrArg _ ih
  refine ⟨.inl ⟨{ StreamState.start (.fromU128 1) 0 0 with
    pending := events, terminal := some .done },
      List.replicate (events.length + 1) (0, ProxyRead.failed ""), ?_⟩,
    List.mem_append_right _ ?_, hevents⟩
  · exact chunks_pending (fun _ _ => rfl) (0, ProxyRead.failed "") events _ rfl rfl rfl
  · exact List.mem_singleton_self _

end Streams

section Sample

def samplePayload : StandardJobPayload := ⟨openaiCompletions, .object []⟩

/-- An event that the engine may send, written over two lines. -/
def sampleData : String :=
  "\x7b\"id\":\"c\",\"object\":\"text_completion\",\"created\":1,\n\"model\":\"m\",\"choices\":[]\x7d"

def sampleValue : Value :=
  .object [("id", .string "c"), ("object", .string "text_completion"), ("created", .int 1),
    ("model", .string "m"), ("choices", .array [])]

def sampleParseJson (text : String) : Option Value :=
  if text = sampleData then some sampleValue else none

def sampleRequest (data : String) : JobStreamEventRequest :=
  ⟨.fromU128 2, 1, 0, "stream-0", .data, some data⟩

theorem stream_read_back_sample :
    parse (sentText (fun _ => none)
        [.event ⟨0, "\x7b\"choices\":[]\x7d"⟩, .event ⟨1, "\x7b\x7d"⟩, .terminal .done]) =
      expectedMessages [] [⟨0, "\x7b\"choices\":[]\x7d"⟩, ⟨1, "\x7b\x7d"⟩] :=
  (stream_read_back _ (streams_all [⟨0, "\x7b\"choices\":[]\x7d"⟩, ⟨1, "\x7b\x7d"⟩])).mpr
    (by decide +kernel)

/-- The two checks let an event through that its client does not get back. -/
theorem stream_read_back_fails :
    (sampleRequest sampleData).validate sampleParseJson = .ok () ∧
      validateStandardStreamData sampleParseJson samplePayload "m" sampleData = .ok () ∧
      ∃ sent, Streams sent [⟨0, sampleData⟩] ∧
        parse (sentText (fun _ => none) sent) ≠ expectedMessages [] [⟨0, sampleData⟩] := by
  refine ⟨by decide +kernel, by decide +kernel, _, streams_all _, fun hread => ?_⟩
  have hone := (stream_read_back _ (streams_all _)).mp hread _ List.mem_cons_self
  exact hone '\n' (by decide +kernel) (.inl rfl)

end Sample

end MindOne.Stream
