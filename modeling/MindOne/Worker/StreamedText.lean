import MindOne.Worker.Transcripts

/-!
# What a consumer was streamed and what was settled

A consumer puts the texts of the forwarded events together. The worker does the
same for the response, but leaves out the text of an event that ends a choice,
which may repeat all of the choice. Such an event is forwarded as it is, so the
consumer reads the repeated text and the response does not have it.
-/

namespace MindOne.Worker

open Json LineReader MindOne.Stream

/-- What a client looks at in the choices of an event. -/
def textReading (event : Value) : List (Option Nat × String × String) :=
  (choicesOf event).map fun choice =>
    (choiceIndex choice, choiceText .chat choice, choiceText .completion choice)

/-- The JSON library writes events so that a client reads the same texts in them. -/
structure EngineCodec.Rereads (codec : EngineCodec) (model : String) : Prop where
  reread : ∀ raw event text, codec.fromSlice raw = some event →
    codec.toText (withModel model event) = some text →
      ∃ again, codec.fromSlice (utf8 text) = some again ∧
        textReading again = textReading (withModel model event)

def readEvent (codec : EngineCodec) (event : PendingStreamEvent) : Option Value :=
  event.eventData.bind fun text => codec.fromSlice (utf8 text)

/-- What a client reads from the events that it gets. -/
def clientEvents (codec : EngineCodec) (sent : List PendingStreamEvent) : List Value :=
  sent.filterMap (readEvent codec)

def textOfIndex (kind : LocalOpenAiStreamKind) (index : Nat) (events : List Value) : String :=
  String.join ((ofIndex index (events.flatMap choicesOf)).map (choiceText kind))

/-- The events in the bytes of an engine. -/
def engineEvents (codec : EngineCodec) (bytes : List UInt8) : List Value :=
  ((dispatched (takeLines 10 bytes).1).events.filter (· ≠ doneMarker)).filterMap codec.fromSlice

/-- An event of a completion that ends a choice brings no text. -/
def EndsQuietly (kind : LocalOpenAiStreamKind) (events : List Value) : Prop :=
  kind = .completion → ∀ choice ∈ events.flatMap choicesOf, choiceFinish choice ≠ none →
    choiceText kind choice = ""

section Readings
variable {kind : LocalOpenAiStreamKind} {index : Nat} {event other : Value} {model : String}
  {events others : List Value}

theorem choicesOf_withModel : choicesOf (withModel model event) = choicesOf event := by
  rw [choicesOf, withModel, fieldsOf, Value.asObject, Option.getD_some,
    Fields.get_insert_other (by decide), choicesOf]

theorem textReading_withModel : textReading (withModel model event) = textReading event := by
  rw [textReading, choicesOf_withModel, textReading]

/-- The texts of an index, from what a client looks at. -/
theorem textsOfIndex_reading (choices : List Value) :
    (ofIndex index choices).map (choiceText kind) =
      ((choices.map fun choice =>
        (choiceIndex choice, choiceText .chat choice, choiceText .completion choice)).filter
          fun read => read.1 = some index).map fun read =>
            match kind with
            | .chat => read.2.1
            | .completion => read.2.2 := by
  induction choices with
  | nil => rfl
  | cons choice choices ih =>
      by_cases hindex : choiceIndex choice = some index
      · cases kind with
        | chat => simpa [ofIndex, hindex] using ih
        | completion => simpa [ofIndex, hindex] using ih
      · cases kind with
        | chat => simpa [ofIndex, hindex] using ih
        | completion => simpa [ofIndex, hindex] using ih

theorem textOfIndex_eq (h : events.map textReading = others.map textReading) :
    textOfIndex kind index events = textOfIndex kind index others := by
  have hreading (list : List Value) : (list.flatMap choicesOf).map (fun choice =>
      (choiceIndex choice, choiceText .chat choice, choiceText .completion choice)) =
      (list.map textReading).flatten := by
    rw [List.map_flatMap, List.flatMap_def]
    rfl
  rw [textOfIndex, textOfIndex, textsOfIndex_reading, textsOfIndex_reading, hreading, hreading, h]

end Readings

section Clients
variable {codec : EngineCodec} {model : String} {events : List Value}

/-- A client reads in the forwarded events what the worker read in those of the engine. -/
theorem clientEvents_mapIdx (hreads : codec.Rereads model) {event : Nat → Value → PendingStreamEvent}
    (hevent : ∀ i value, (event i value).eventData = codec.toText (withModel model value))
    (hparsed : ∀ value ∈ events, ∃ raw, codec.fromSlice raw = some value)
    (hwritten : ∀ value ∈ events, (codec.toText (withModel model value)).isSome = true) :
    (clientEvents codec (events.mapIdx event)).map textReading = events.map textReading := by
  induction events generalizing event with
  | nil => rfl
  | cons value events ih =>
      obtain ⟨raw, hraw⟩ := hparsed value List.mem_cons_self
      obtain ⟨text, htext⟩ := Option.isSome_iff_exists.mp (hwritten value List.mem_cons_self)
      obtain ⟨again, hagain, hsame⟩ := hreads.reread raw value text hraw htext
      have hrest := @ih (fun i => event (i + 1)) (fun i value => hevent (i + 1) value)
        (fun value hmem => hparsed value (List.mem_cons_of_mem _ hmem))
        (fun value hmem => hwritten value (List.mem_cons_of_mem _ hmem))
      have hhead : readEvent codec (event 0 value) = some again := by
        rw [readEvent, hevent, htext]
        exact hagain
      rw [List.mapIdx_cons, clientEvents, List.filterMap_cons_some hhead, List.map_cons,
        List.map_cons, hsame, textReading_withModel]
      exact congrArg (textReading value :: ·) hrest

end Clients

section Runs
variable {codec : EngineCodec} {queue : StandardStreamForwarding} {kind : LocalOpenAiStreamKind}
  {expectedChoices : Nat} {bytes : List UInt8} {raws : List (List UInt8)} {events : List Value}
  {sent : List PendingStreamEvent} {response : Value}

theorem StreamTranscript.engineEvents_eq {forwarding : Option StandardStreamForwarding}
    (h : StreamTranscript codec forwarding kind expectedChoices bytes raws events sent response) :
    engineEvents codec bytes = events := by
  have hraws : (raws ++ [doneMarker]).filter (fun raw => decide (raw ≠ doneMarker)) = raws := by
    rw [List.filter_append]
    have hall : raws.filter (fun raw => decide (raw ≠ doneMarker)) = raws :=
      List.filter_eq_self.mpr fun raw hmem => decide_eq_true fun heq =>
        h.done.1 (heq ▸ hmem)
    rw [hall]
    simp
  have hevents : (events.map some).filterMap id = events := by simp
  rw [engineEvents, h.dispatch, hraws]
  calc raws.filterMap codec.fromSlice = (raws.map codec.fromSlice).filterMap id := by
        rw [List.filterMap_map]
        rfl
    _ = events := by rw [h.parsed, hevents]

/-- What a client reads under an index of a stream. -/
theorem StreamTranscript.clientText
    (h : StreamTranscript codec (some queue) kind expectedChoices bytes raws events sent response)
    (hreads : codec.Rereads queue.authorizedModel) (index : Nat) :
    textOfIndex kind index (clientEvents codec sent) = textOfIndex kind index events := by
  have hparsed : ∀ value ∈ events, ∃ raw, codec.fromSlice raw = some value := by
    intro value hmem
    have hsome : some value ∈ raws.map codec.fromSlice := by
      rw [h.parsed]
      exact List.mem_map_of_mem hmem
    obtain ⟨raw, -, hraw⟩ := List.mem_map.mp hsome
    exact ⟨raw, hraw⟩
  have hwritten : ∀ value ∈ events,
      (codec.toText (withModel queue.authorizedModel value)).isSome = true := by
    intro value hmem
    obtain ⟨i, hi, rfl⟩ := List.mem_iff_getElem.mp hmem
    refine h.written ⟨i, .data, codec.toText (withModel queue.authorizedModel events[i])⟩ ?_
    exact List.mem_iff_getElem.mpr ⟨i, by simpa [forwarded] using hi, by simp [forwarded]⟩
  have hdone : clientEvents codec sent = clientEvents codec (events.mapIdx fun sequence event =>
      ⟨sequence, .data, codec.toText (withModel queue.authorizedModel event)⟩) := by
    rw [h.sent, clientEvents, List.filterMap_append]
    simp [readEvent, forwarded, clientEvents]
  rw [hdone]
  exact textOfIndex_eq (clientEvents_mapIdx hreads (fun _ _ => rfl) hparsed hwritten)

/-- The texts of a choice up to its end make the response, so the streamed text is the
settled one when the end has none. -/
theorem ChoiceComplete.text_iff {heard : List Value} {choice : Value}
    (h : ChoiceComplete kind heard choice) :
    String.join (heard.map (choiceText kind)) = settledText kind choice ↔
      ∀ other ∈ heard, choiceFinish other ≠ none → choiceText kind other = "" := by
  obtain ⟨before, last, rfl, hbefore, hlast, -, htext⟩ := h.ended
  have hjoin : String.join ((before ++ [last]).map (choiceText kind)) =
      settledText kind choice ++ choiceText kind last := by
    rw [htext, List.map_append]
    simp
  rw [hjoin]
  constructor
  · intro hsame other hmem hended
    rcases List.mem_append.mp hmem with hold | hnew
    · exact absurd (hbefore other hold) hended
    · rw [List.mem_singleton.mp hnew]
      exact (String.append_right_inj _).mp (hsame.trans String.append_empty.symm)
  · intro hquiet
    rw [hquiet last (by simp) hlast, String.append_empty]

end Runs

section Streams
variable {codec : EngineCodec} {queue : StandardStreamForwarding} {clock : Nat → Elapsed}
  {endpoint : String} {request : Value} {slotId : Nat} {head : ResponseHead}
  {pieces : List (List UInt8)} {response : StandardExecutionResult}

/-- In every stream that comes to a response, a client reads the settled texts exactly
when no event of a completion that ends a choice brings a text. -/
theorem streamed_text_settled (hreads : codec.Rereads queue.authorizedModel)
    (h : (runOver codec (some queue) clock endpoint request slotId head pieces).result =
      .ok response) :
    ∃ prepared, prepareInternalStreamRequest endpoint request slotId = .ok prepared ∧
      ((∀ index choice, (choicesOf response.response)[index]? = some choice →
        textOfIndex prepared.kind index (clientEvents codec
          (runOver codec (some queue) clock endpoint request slotId head pieces).sent) =
            settledText prepared.kind choice) ↔
        EndsQuietly prepared.kind (engineEvents codec pieces.flatten)) := by
  obtain ⟨prepared, raws, events, hprepared, htranscript⟩ := runOver_transcript h
  refine ⟨prepared, hprepared, ?_⟩
  rw [htranscript.engineEvents_eq]
  have hcomplete := htranscript.complete
  constructor
  · intro hsame _ choice hmem hended
    obtain ⟨index, hindex, hchoiceIndex⟩ := hcomplete.indices choice hmem
    obtain ⟨settled, hsettled, -, hall⟩ := hcomplete.choices index hindex
    have htext := hsame index settled hsettled
    rw [htranscript.clientText hreads] at htext
    exact hall.text_iff.mp htext choice
      (List.mem_filter.mpr ⟨hmem, decide_eq_true hchoiceIndex⟩) hended
  · intro hquiet index choice hchoice
    have hindex : index < prepared.expectedChoices := by
      rw [← hcomplete.count]
      exact (List.getElem?_eq_some_iff.mp hchoice).1
    obtain ⟨settled, hsettled, -, hall⟩ := hcomplete.choices index hindex
    rw [hchoice] at hsettled
    cases hsettled
    rw [htranscript.clientText hreads]
    refine hall.text_iff.mpr fun other hother hended => ?_
    have hmem := (List.mem_filter.mp hother).1
    cases hkind : prepared.kind with
    | chat =>
        have hchat := hcomplete.quiet hkind other hmem hended
        rwa [hkind] at hchat
    | completion =>
        have hended := hquiet hkind other hmem hended
        rwa [hkind] at hended

end Streams

section Sample

theorem sampleCodec_token : sampleCodec.fromSlice (utf8 sampleTokenText) = some sampleToken := by
  simp only [sampleCodec, if_true]

theorem sampleCodec_last : sampleCodec.fromSlice (utf8 sampleLastText) = some sampleLast := by
  have hother : utf8 sampleLastText ≠ utf8 sampleTokenText := fun h =>
    absurd (utf8_injective h) (by decide +kernel)
  simp only [sampleCodec, if_neg hother, if_true]

theorem sampleCodec_rereads : sampleCodec.Rereads "m" := by
  have htoken : hasStats (withModel "m" sampleToken) = false := by decide +kernel
  have hlast : hasStats (withModel "m" sampleLast) = true := by decide +kernel
  have hparsed (raw : List UInt8) (event : Value) (hraw : sampleCodec.fromSlice raw = some event) :
      event = sampleToken ∨ event = sampleLast := by
    simp only [sampleCodec] at hraw
    split at hraw
    · exact .inl (Option.some.inj hraw).symm
    · split at hraw
      · exact .inr (Option.some.inj hraw).symm
      · cases hraw
  refine ⟨fun raw event text hraw htext => ?_⟩
  rcases hparsed raw event hraw with rfl | rfl
  · simp only [sampleCodec, htoken, Bool.false_eq_true, if_false, Option.some.injEq] at htext
    subst htext
    exact ⟨sampleToken, sampleCodec_token, textReading_withModel.symm⟩
  · simp only [sampleCodec, hlast, if_true, Option.some.injEq] at htext
    subst htext
    exact ⟨sampleLast, sampleCodec_last, textReading_withModel.symm⟩

theorem streamed_text_settled_sample :
    ∃ response prepared, (sampleRun [sampleStream]).result = .ok response ∧
      prepareInternalStreamRequest openaiCompletions sampleRequest 0 = .ok prepared ∧
      ((∀ index choice, (choicesOf response.response)[index]? = some choice →
        textOfIndex prepared.kind index (clientEvents sampleCodec
          (sampleRun [sampleStream]).sent) = settledText prepared.kind choice) ↔
        EndsQuietly prepared.kind (engineEvents sampleCodec sampleStream)) := by
  obtain ⟨response, hresponse⟩ := sampleRun_ok
  have hreads : sampleCodec.Rereads sampleForwarding.authorizedModel := sampleCodec_rereads
  obtain ⟨prepared, hprepared, hiff⟩ := streamed_text_settled hreads hresponse
  have hflatten : [sampleStream].flatten = sampleStream := by simp
  rw [hflatten] at hiff
  exact ⟨response, prepared, hresponse, hprepared, hiff⟩

/-- The client reads the text of the only choice twice. -/
theorem streamed_text_settled_fails :
    ∃ response choice, (sampleRun [sampleStream]).result = .ok response ∧
      (choicesOf response.response)[0]? = some choice ∧
      settledText .completion choice = "hi" ∧
      textOfIndex .completion 0 (clientEvents sampleCodec (sampleRun [sampleStream]).sent) =
        "hihi" := by
  have hsettled : (sampleRun [sampleStream]).result.toOption.any (fun response =>
      (choicesOf response.response)[0]?.any fun choice =>
        decide (settledText .completion choice = "hi")) = true := by decide +kernel
  have hstreamed : textOfIndex .completion 0
      (clientEvents sampleCodec (sampleRun [sampleStream]).sent) = "hihi" := by decide +kernel
  obtain ⟨response, hresponse⟩ := sampleRun_ok
  rw [hresponse] at hsettled
  change (choicesOf response.response)[0]?.any _ = true at hsettled
  cases hchoice : (choicesOf response.response)[0]? with
  | none =>
      rw [hchoice] at hsettled
      cases hsettled
  | some choice =>
      rw [hchoice] at hsettled
      exact ⟨response, choice, hresponse, hchoice, of_decide_eq_true hsettled, hstreamed⟩

end Sample

end MindOne.Worker
