import MindOne.Worker.EventReader

/-!
# The stream does not depend on its cuts or its times

Chunks are network packets: where they are cut and when they arrive is chance. Up
to the size limit the reader comes to the same end and sends the same events for
every cut, and times only show in the measured time to the first token. A longer
stream is refused for every cut.
-/

namespace MindOne.Worker

open CheckedArithmetic Json LineReader MindOne.Stream

/-- All of the accumulator but the value of the measured time. -/
def OpenAiStreamAccumulator.untimed (accumulator : OpenAiStreamAccumulator) :
    OpenAiStreamAccumulator :=
  { accumulator with measuredTtftMs := accumulator.measuredTtftMs.map fun _ => 0 }

def EventReader.untimed (reader : EventReader) : EventReader :=
  { reader with accumulator := reader.accumulator.untimed }

def StandardExecutionResult.untimed (result : StandardExecutionResult) : StandardExecutionResult :=
  { result with measuredTtftMs := result.measuredTtftMs.map fun _ => 0 }

/-- All of a run but the value of the measured time. -/
def StreamRun.untimed (run : StreamRun) : StreamRun :=
  { run with result := run.result.map StandardExecutionResult.untimed }

section Same
variable {ε α σ τ : Type} {q : σ → τ} {f g : α → Except ε σ}

/-- The same step, before two that agree. -/
theorem bind_same (x : Except ε α) (h : ∀ a, (f a).map q = (g a).map q) :
    (x >>= f).map q = (x >>= g).map q := by
  cases x with
  | error e => rfl
  | ok a => exact h a

theorem bind_eq_map {g : α → Except ε τ} {r : τ → σ} (x : Except ε α)
    (h : ∀ a, f a = (g a).map r) : (x >>= f) = (x >>= g).map r := by
  cases x with
  | error e => rfl
  | ok a => exact h a

theorem ok_bind (a : α) : ((.ok a : Except ε α) >>= f) = f a := rfl

end Same

namespace OpenAiStreamAccumulator
variable {accumulator other : OpenAiStreamAccumulator} {elapsed elapsed' : Elapsed}

theorem untimed_eq_iff : accumulator.untimed = other.untimed ↔
    ∃ measured, other = { accumulator with measuredTtftMs := measured } ∧
      measured.isSome = accumulator.measuredTtftMs.isSome := by
  constructor
  · intro h
    refine ⟨other.measuredTtftMs, ?_, ?_⟩
    · cases accumulator
      cases other
      simp only [untimed, mk.injEq] at h ⊢
      obtain ⟨rfl, rfl, rfl, rfl, rfl, rfl, -, rfl, rfl⟩ := h
      simp
    · have hmeasured := congrArg (fun a => a.measuredTtftMs.isSome) h
      simpa [untimed] using hmeasured.symm
  · rintro ⟨measured, rfl, hmeasured⟩
    cases measured with
    | none =>
        have hnone : accumulator.measuredTtftMs = none := by simpa using hmeasured.symm
        simp [untimed, hnone]
    | some value =>
        obtain ⟨time, htime⟩ := Option.isSome_iff_exists.mp hmeasured.symm
        simp [untimed, htime]

theorem toI64_elapsed (elapsed : Elapsed) :
    ∃ time, toI64 (max 1 ((elapsed.micros + 999) / 1000)) = some time := by
  have hfits : max 1 ((elapsed.micros + 999) / 1000) < 2 ^ 63 :=
    max_lt (by decide) elapsed.fits
  exact ⟨_, if_pos hfits⟩

theorem observeFirstToken_untimed (h : accumulator.untimed = other.untimed) :
    (accumulator.observeFirstToken elapsed).untimed = (other.observeFirstToken elapsed').untimed := by
  obtain ⟨measured, rfl, hmeasured⟩ := untimed_eq_iff.mp h
  obtain ⟨time, htime⟩ := toI64_elapsed elapsed
  obtain ⟨time', htime'⟩ := toI64_elapsed elapsed'
  rw [observeFirstToken, observeFirstToken, htime, htime']
  by_cases hknown : accumulator.measuredTtftMs.isSome = true
  · rw [if_pos hknown, if_pos (hmeasured.trans hknown)]
    exact h
  · rw [if_neg hknown, if_neg (fun hsome => hknown (hmeasured.symm.trans hsome))]
    rfl

theorem store_untimed (h : accumulator.untimed = other.untimed) (index : Nat)
    (choice : StreamChoice) (observedToken : Bool) :
    (accumulator.store index choice observedToken elapsed).untimed =
      (other.store index choice observedToken elapsed').untimed := by
  have hstored : untimed { accumulator with choices := accumulator.choices.set ⟨index, choice⟩ } =
      untimed { other with choices := other.choices.set ⟨index, choice⟩ } := by
    obtain ⟨measured, rfl, hmeasured⟩ := untimed_eq_iff.mp h
    exact untimed_eq_iff.mpr ⟨measured, rfl, hmeasured⟩
  rw [store, store]
  split
  · exact observeFirstToken_untimed hstored
  · exact hstored

theorem entry_untimed (h : accumulator.untimed = other.untimed) (index : Nat) :
    other.entry index = accumulator.entry index := by
  obtain ⟨measured, rfl, -⟩ := untimed_eq_iff.mp h
  rfl

theorem observeChatChoice_untimed (h : accumulator.untimed = other.untimed) (value : Value) :
    (accumulator.observeChatChoice value elapsed).map untimed =
      (other.observeChatChoice value elapsed').map untimed := by
  have hexpected : other.expectedChoices = accumulator.expectedChoices :=
    (congrArg expectedChoices h).symm
  rw [observeChatChoice, observeChatChoice, hexpected]
  refine bind_same _ fun object => bind_same _ fun index => bind_same _ fun reason =>
    bind_same _ fun delta => bind_same _ fun _ => ?_
  rw [entry_untimed h]
  cases accumulator.entry index with
  | completion choice => rfl
  | chat choice =>
      refine bind_same _ fun choice => ?_
      exact congrArg Except.ok (store_untimed h index _ _)

theorem observeCompletionChoice_untimed (h : accumulator.untimed = other.untimed)
    (value : Value) :
    (accumulator.observeCompletionChoice value elapsed).map untimed =
      (other.observeCompletionChoice value elapsed').map untimed := by
  have hexpected : other.expectedChoices = accumulator.expectedChoices :=
    (congrArg expectedChoices h).symm
  rw [observeCompletionChoice, observeCompletionChoice, hexpected]
  refine bind_same _ fun object => bind_same _ fun index => bind_same _ fun text =>
    bind_same _ fun reason => ?_
  rw [entry_untimed h]
  cases accumulator.entry index with
  | chat choice => rfl
  | completion choice =>
      refine bind_same _ fun choice => ?_
      exact congrArg Except.ok (store_untimed h index _ _)

theorem observeChoice_untimed (h : accumulator.untimed = other.untimed) (value : Value) :
    (accumulator.observeChoice value elapsed).map untimed =
      (other.observeChoice value elapsed').map untimed := by
  have hkind : other.kind = accumulator.kind := (congrArg kind h).symm
  rw [observeChoice, observeChoice, hkind]
  cases accumulator.kind with
  | chat => exact observeChatChoice_untimed h value
  | completion => exact observeCompletionChoice_untimed h value

theorem observeTerminalStats_untimed (h : accumulator.untimed = other.untimed)
    (doubles : Doubles) (object : Fields) :
    (accumulator.observeTerminalStats doubles object).map untimed =
      (other.observeTerminalStats doubles object).map untimed := by
  obtain ⟨measured, rfl, hmeasured⟩ := untimed_eq_iff.mp h
  have hnone : measured.isNone = accumulator.measuredTtftMs.isNone := by
    rw [← Option.not_isSome, ← Option.not_isSome, hmeasured]
  rw [observeTerminalStats, observeTerminalStats]
  simp only [hmeasured, hnone]
  refine bind_same _ fun usage => bind_same _ fun timings => bind_same _ fun prompt =>
    bind_same _ fun completion => bind_same _ fun total => bind_same _ fun _ => bind_same _ fun _ =>
      bind_same _ fun _ => bind_same _ fun _ => bind_same _ fun _ => bind_same _ fun merged =>
        bind_same _ fun mergedTimings => ?_
  exact congrArg Except.ok (untimed_eq_iff.mpr ⟨measured, rfl, hmeasured⟩)

theorem observeStats_untimed (h : accumulator.untimed = other.untimed) (doubles : Doubles)
    (object : Fields) (choices : List Value) :
    (accumulator.observeStats doubles object choices).map untimed =
      (other.observeStats doubles object choices).map untimed := by
  have hkind : other.kind = accumulator.kind := (congrArg kind h).symm
  have hstats := observeTerminalStats_untimed h doubles object
  rw [observeStats, observeStats, hkind]
  cases accumulator.kind with
  | chat =>
      dsimp only
      split_ifs
      · rfl
      · exact hstats
      · rfl
      · exact congrArg Except.ok h
  | completion =>
      dsimp only
      split_ifs
      · rfl
      · exact hstats
      · rfl
      · exact congrArg Except.ok h

theorem observe_untimed (h : accumulator.untimed = other.untimed) (doubles : Doubles)
    (chunk : Value) :
    (accumulator.observe doubles chunk elapsed).map untimed =
      (other.observe doubles chunk elapsed').map untimed := by
  obtain ⟨measured, rfl, hmeasured⟩ := untimed_eq_iff.mp h
  rw [observe, observe]
  refine bind_same _ fun _ => bind_same _ fun _ => bind_same _ fun object =>
    bind_same _ fun metadata => bind_same _ fun choices => bind_same _ fun _ => ?_
  refine bind_project ?_ fun observed observed' hobserved =>
    observeStats_untimed hobserved doubles object choices
  exact foldlM_project (fun a b value hab => observeChoice_untimed hab value) choices
    (untimed_eq_iff.mpr ⟨measured, rfl, hmeasured⟩)

theorem finish_untimed (h : accumulator.untimed = other.untimed) (sawDone : Bool) :
    (accumulator.finish sawDone).map StandardExecutionResult.untimed =
      (other.finish sawDone).map StandardExecutionResult.untimed := by
  have hmeasured : accumulator.measuredTtftMs.map (fun _ => (0 : Int)) =
      other.measuredTtftMs.map fun _ => 0 := congrArg measuredTtftMs h
  obtain ⟨measured, rfl, -⟩ := untimed_eq_iff.mp h
  rw [finish, finish]
  refine bind_same _ fun _ => bind_same _ fun _ => bind_same _ fun _ => bind_same _ fun choices =>
    bind_same _ fun usage => bind_same _ fun timings => bind_same _ fun created => ?_
  exact congrArg (fun time => Except.ok (StandardExecutionResult.mk _ time)) hmeasured

end OpenAiStreamAccumulator

namespace EventReader
variable {codec : EngineCodec} {forwarding : Option StandardStreamForwarding}
  {clock clock' : Nat → Elapsed} {reader other : EventReader}

theorem untimed_eq_iff : reader.untimed = other.untimed ↔
    ∃ accumulator, other = { reader with accumulator } ∧
      reader.accumulator.untimed = accumulator.untimed := by
  constructor
  · intro h
    refine ⟨other.accumulator, ?_, congrArg accumulator h⟩
    cases reader
    cases other
    simp only [untimed, mk.injEq] at h ⊢
    exact ⟨trivial, h.2.1.symm, h.2.2.1.symm, h.2.2.2.1.symm, h.2.2.2.2.symm⟩
  · rintro ⟨accumulator, rfl, h⟩
    exact congrArg (fun a => { reader with accumulator := a }) h

theorem orStop_project {α β : Type} {p : α → β} {x y : CliResult α}
    (hsent : reader.sent = other.sent) (h : x.map p = y.map p) :
    (reader.orStop x).map p = (other.orStop y).map p := by
  cases x with
  | error e =>
      cases y with
      | error e' =>
          cases h
          exact congrArg (fun sent => Except.error (Stopped.mk e sent)) hsent
      | ok b => cases h
  | ok a =>
      cases y with
      | error e' => cases h
      | ok b => exact congrArg Except.ok (Except.ok.inj h)

theorem forward_untimed (h : reader.untimed = other.untimed) (value : Value) :
    (forward codec forwarding reader value).map untimed =
      (forward codec forwarding other value).map untimed := by
  obtain ⟨accumulator, rfl, haccumulator⟩ := untimed_eq_iff.mp h
  cases forwarding with
  | none => exact congrArg Except.ok h
  | some queue =>
      rw [forward, forward]
      refine bind_same _ fun normalized => bind_same _ fun serialized => ?_
      have hsend : (reader.send queue ⟨reader.eventSequence, .data, some serialized⟩
          "持久 SSE 事件通道提前关闭，拒绝结算").map untimed =
          (send { reader with accumulator } queue ⟨reader.eventSequence, .data, some serialized⟩
            "持久 SSE 事件通道提前关闭，拒绝结算").map untimed := by
        rw [send, send]
        split
        · exact congrArg Except.ok (untimed_eq_iff.mpr ⟨accumulator, rfl, haccumulator⟩)
        · rfl
      refine bind_project hsend fun sending sending' hsending => ?_
      obtain ⟨accumulator', rfl, haccumulator'⟩ := untimed_eq_iff.mp hsending
      refine bind_same _ fun _ => ?_
      exact congrArg Except.ok (untimed_eq_iff.mpr ⟨accumulator', rfl, haccumulator'⟩)

theorem dispatch_untimed (h : reader.untimed = other.untimed) :
    (reader.dispatch codec forwarding clock).map untimed =
      (other.dispatch codec forwarding clock').map untimed := by
  obtain ⟨accumulator, rfl, haccumulator⟩ := untimed_eq_iff.mp h
  rw [dispatch, dispatch]
  dsimp only
  split_ifs
  · exact congrArg Except.ok h
  · rfl
  · exact congrArg Except.ok (untimed_eq_iff.mpr ⟨accumulator, rfl, haccumulator⟩)
  · refine bind_same _ fun value => ?_
    refine bind_project (orStop_project rfl
      (OpenAiStreamAccumulator.observe_untimed haccumulator codec.doubles value))
      fun observed observed' hobserved => ?_
    refine bind_project (forward_untimed (untimed_eq_iff.mpr ⟨observed', rfl, hobserved⟩) value)
      fun sent sent' hsent => ?_
    obtain ⟨last, rfl, hlast⟩ := untimed_eq_iff.mp hsent
    exact congrArg Except.ok (untimed_eq_iff.mpr ⟨last, rfl, hlast⟩)

theorem onLine_untimed (h : reader.untimed = other.untimed) (line : List UInt8) :
    (reader.onLine codec forwarding clock line).map untimed =
      (other.onLine codec forwarding clock' line).map untimed := by
  obtain ⟨accumulator, hother, haccumulator⟩ := untimed_eq_iff.mp h
  rw [onLine, onLine]
  cases SseLine.of line with
  | blank => exact dispatch_untimed h
  | comment => exact congrArg Except.ok h
  | unsupported =>
      rw [hother]
      rfl
  | data payload =>
      simp only [hother, addData]
      split_ifs
      · rfl
      · rfl
      · exact congrArg Except.ok (untimed_eq_iff.mpr ⟨accumulator, rfl, haccumulator⟩)

end EventReader

section Bodies
variable {codec : EngineCodec} {forwarding : Option StandardStreamForwarding}
  {clock clock' : Nat → Elapsed}

theorem sendDone_untimed {reader other : EventReader} (h : reader.untimed = other.untimed) :
    (sendDone forwarding reader).map EventReader.untimed =
      (sendDone forwarding other).map EventReader.untimed := by
  obtain ⟨accumulator, rfl, haccumulator⟩ := EventReader.untimed_eq_iff.mp h
  cases forwarding with
  | none => exact congrArg Except.ok h
  | some queue =>
      rw [sendDone, sendDone, EventReader.send, EventReader.send]
      dsimp only
      split
      · exact congrArg Except.ok
          (EventReader.untimed_eq_iff.mpr ⟨accumulator, rfl, haccumulator⟩)
      · rfl

/-- What of the end of a body shows in a run without its times. -/
def untimedEnd (pair : EventReader × StandardExecutionResult) :
    EventReader × StandardExecutionResult := (pair.1.untimed, pair.2.untimed)

theorem run_untimed {x y : Except Stopped (EventReader × StandardExecutionResult)}
    (h : x.map untimedEnd = y.map untimedEnd) :
    (StreamRun.of x).untimed = (StreamRun.of y).untimed := by
  cases x with
  | error e =>
      cases y with
      | error e' =>
          cases h
          rfl
      | ok b => cases h
  | ok a =>
      cases y with
      | error e' => cases h
      | ok b =>
          have hends : untimedEnd a = untimedEnd b := Except.ok.inj h
          have hsent : a.1.sent = b.1.sent := congrArg (fun pair => pair.1.sent) hends
          have hresult : a.2.untimed = b.2.untimed := congrArg Prod.snd hends
          exact congrArg₂ (fun sent result => StreamRun.mk sent (.ok result)) hsent hresult

theorem endOfStream_untimed {feed other : Feed EventReader UInt8}
    (h : feed.project EventReader.untimed = other.project EventReader.untimed) :
    (endOfStream forwarding feed).map untimedEnd =
      (endOfStream forwarding other).map untimedEnd := by
  obtain ⟨reader, rest⟩ := feed
  obtain ⟨reader', rest'⟩ := other
  obtain ⟨hstate, hrest⟩ := Feed.mk.inj h
  dsimp only at hstate hrest
  obtain ⟨accumulator, rfl, haccumulator⟩ := EventReader.untimed_eq_iff.mp hstate
  subst hrest
  rw [endOfStream, endOfStream]
  refine bind_same _ fun _ => ?_
  refine bind_project (EventReader.orStop_project rfl
    (OpenAiStreamAccumulator.finish_untimed haccumulator reader.sawDone))
    fun result result' hresult => ?_
  refine bind_project (sendDone_untimed hstate) fun last last' hlast => ?_
  exact congrArg₂ (fun reader result => Except.ok (reader, result)) hlast hresult

/-- Up to the limit, the chunks of a body are one chunk. -/
theorem foldlM_readChunk {incoming : Incoming} {pieces : List (List UInt8)}
    (hlimit : incoming.received + pieces.flatten.length ≤ maxInferenceResponseBytes)
    (hrest : takeLines 10 incoming.feed.rest = ([], incoming.feed.rest)) :
    (pieces.map Except.ok).foldlM (readChunk codec forwarding clock) incoming =
      (incoming.feed.push 10 (EventReader.onLine codec forwarding clock) pieces.flatten).map
        fun feed => ⟨incoming.received + pieces.flatten.length, feed⟩ := by
  induction pieces generalizing incoming with
  | nil =>
      rw [List.flatten_nil, push_nil hrest]
      rfl
  | cons piece pieces ih =>
      rw [List.flatten_cons, List.length_append] at hlimit
      have hfits : ¬ maxInferenceResponseBytes - incoming.received < piece.length := by omega
      rw [List.map_cons, List.foldlM_cons, readChunk, if_neg hfits, List.flatten_cons, ← push_push]
      cases hpush : incoming.feed.push 10 (EventReader.onLine codec forwarding clock) piece with
      | error e => rfl
      | ok feed =>
          have hstep := @ih ⟨incoming.received + piece.length, feed⟩ (by dsimp only; omega)
            (push_ok_rest hpush)
          rw [List.length_append, ← Nat.add_assoc]
          exact hstep

/-- Beyond the limit, a body is refused. -/
theorem foldlM_readChunk_over {incoming : Incoming} {pieces : List (List UInt8)}
    (hreceived : incoming.received ≤ maxInferenceResponseBytes)
    (hlimit : maxInferenceResponseBytes < incoming.received + pieces.flatten.length) :
    ∃ stopped, (pieces.map Except.ok).foldlM (readChunk codec forwarding clock) incoming =
      .error stopped := by
  induction pieces generalizing incoming with
  | nil =>
      rw [List.flatten_nil, List.length_nil] at hlimit
      omega
  | cons piece pieces ih =>
      rw [List.flatten_cons, List.length_append] at hlimit
      rw [List.map_cons, List.foldlM_cons, readChunk]
      split
      · exact ⟨_, rfl⟩
      · cases incoming.feed.push 10 (EventReader.onLine codec forwarding clock) piece with
        | error e => exact ⟨e, rfl⟩
        | ok feed =>
            exact ih (by dsimp only; omega) (by dsimp only; omega)

variable {endpoint : String} {request : Value} {slotId : Nat} {head : ResponseHead}
  {pieces others : List (List UInt8)}

/-- The run over a body of some pieces. -/
def runOver (codec : EngineCodec) (forwarding : Option StandardStreamForwarding)
    (clock : Nat → Elapsed) (endpoint : String) (request : Value) (slotId : Nat)
    (head : ResponseHead) (pieces : List (List UInt8)) : StreamRun :=
  executeLocalInferenceStream codec forwarding clock endpoint request slotId
    fun _ => .ok ⟨head, pieces.map .ok⟩

/-- What precedes the body does not look at it. -/
theorem openStream_pieces :
    openStream forwarding endpoint request slotId (fun _ => .ok ⟨head, pieces.map .ok⟩) =
      (openStream forwarding endpoint request slotId fun _ => .ok ⟨head, []⟩).map fun opened =>
        (opened.1, pieces.map .ok) := by
  rw [openStream, openStream]
  refine bind_eq_map _ fun prepared => bind_eq_map _ fun _ => ?_
  simp only [ok_bind]
  exact bind_eq_map _ fun _ => rfl

theorem readBody_pieces {start : EventReader}
    (hlimit : pieces.flatten.length ≤ maxInferenceResponseBytes) :
    readBody codec forwarding clock start (pieces.map .ok) =
      ((⟨start, []⟩ : Feed EventReader UInt8).push 10
        (EventReader.onLine codec forwarding clock) pieces.flatten >>= endOfStream forwarding) := by
  have hread := @foldlM_readChunk codec forwarding clock ⟨0, ⟨start, []⟩⟩ pieces
    (by simpa using hlimit) rfl
  rw [readBody, hread]
  cases (⟨start, []⟩ : Feed EventReader UInt8).push 10
    (EventReader.onLine codec forwarding clock) pieces.flatten with
  | error e => rfl
  | ok feed => rfl

/-- The bytes decide what a run sends and what comes of it. -/
theorem runOver_untimed (hsame : pieces.flatten = others.flatten)
    (hlimit : pieces.flatten.length ≤ maxInferenceResponseBytes) :
    (runOver codec forwarding clock endpoint request slotId head pieces).untimed =
      (runOver codec forwarding clock' endpoint request slotId head others).untimed := by
  rw [runOver, runOver, executeLocalInferenceStream, executeLocalInferenceStream,
    openStream_pieces, openStream_pieces]
  cases openStream forwarding endpoint request slotId fun _ => .ok ⟨head, []⟩ with
  | error e => rfl
  | ok opened =>
      simp only [Except.map]
      rw [readBody_pieces hlimit, readBody_pieces (hsame ▸ hlimit), ← hsame]
      refine run_untimed (bind_project
        (push_project (fun a b line hab => EventReader.onLine_untimed hab line) rfl _) ?_)
      exact fun feed other hfeed => endOfStream_untimed hfeed

/-- A body beyond the limit comes to nothing, however it is cut. -/
theorem runOver_tooLarge (hlimit : maxInferenceResponseBytes < pieces.flatten.length) :
    ∃ error,
      (runOver codec forwarding clock endpoint request slotId head pieces).result = .error error := by
  rw [runOver, executeLocalInferenceStream, openStream_pieces]
  cases openStream forwarding endpoint request slotId fun _ => .ok ⟨head, []⟩ with
  | error e => exact ⟨e, rfl⟩
  | ok opened =>
      obtain ⟨stopped, hstopped⟩ := @foldlM_readChunk_over codec forwarding clock
        ⟨0, ⟨opened.1, []⟩⟩ pieces (Nat.zero_le _) (by simpa using hlimit)
      refine ⟨stopped.error, ?_⟩
      simp only [Except.map, readBody, hstopped]
      rfl

end Bodies

end MindOne.Worker
