import MindOne.Worker.Accumulator

/-!
# The response is what the events said

What the accumulator holds after some events can be read from the events: of each
choice the texts up to its end, and of the statistics the sums. A response that it
finishes has every choice ended once, with nothing after the end.
-/

namespace MindOne.Worker

open CheckedArithmetic Json KeyedTable MindOne.Stream

section Readings

def fieldsOf (value : Value) : Fields := value.asObject.getD []

/-- The choices of an event, or of a response. -/
def choicesOf (event : Value) : List Value :=
  (((fieldsOf event).get "choices").bind Value.asArray).getD []

def choiceIndex (choice : Value) : Option Nat := ((fieldsOf choice).get "index").bind Value.asU64

def choiceFinish (choice : Value) : Option String :=
  ((fieldsOf choice).get "finish_reason").bind Value.asStr

/-- The text that a choice of an event brings. -/
def choiceText (kind : LocalOpenAiStreamKind) (choice : Value) : String :=
  match kind with
  | .chat => textOf (fieldsOf (((fieldsOf choice).get "delta").getD .null)) "content"
  | .completion => textOf (fieldsOf choice) "text"

/-- The text of a choice of a response. -/
def settledText (kind : LocalOpenAiStreamKind) (choice : Value) : String :=
  match kind with
  | .chat => textOf (fieldsOf (((fieldsOf choice).get "message").getD .null)) "content"
  | .completion => textOf (fieldsOf choice) "text"

def ofIndex (index : Nat) (choices : List Value) : List Value :=
  choices.filter fun choice => choiceIndex choice = some index

theorem choiceIndex_object (index : Int) (rest : Fields) :
    choiceIndex (.object (("index", .int index) :: rest)) = (Value.int index).asU64 := by
  simp [choiceIndex, fieldsOf, Value.asObject, Fields.get]

theorem choiceIndex_lt {choice : Value} {index : Nat} (h : choiceIndex choice = some index) :
    index < 2 ^ 64 := by
  obtain ⟨value, -, hvalue⟩ := Option.bind_eq_some_iff.mp h
  cases value with
  | int n =>
      simp only [Value.asU64] at hvalue
      split at hvalue
      · cases hvalue
        omega
      · cases hvalue
  | null => cases hvalue
  | bool b => cases hvalue
  | float text => cases hvalue
  | string text => cases hvalue
  | array items => cases hvalue
  | object fields => cases hvalue

/-- The event brings statistics. -/
def hasStats (event : Value) : Bool :=
  (fieldsOf event).containsKey "usage" || (fieldsOf event).containsKey "timings"

def usageOf (value : Value) : Fields := fieldsOf (((fieldsOf value).get "usage").getD .null)

def tokensOf (usage : Fields) (key : String) : Option Nat := (usage.get key).bind Value.asU64

end Readings

theorem ofIndex_snoc_self {index : Nat} {heard : List Value} {choice : Value}
    (h : choiceIndex choice = some index) :
    ofIndex index (heard ++ [choice]) = ofIndex index heard ++ [choice] := by
  simp [ofIndex, List.filter_append, h]

theorem ofIndex_snoc_other {index other : Nat} {heard : List Value} {choice : Value}
    (h : choiceIndex choice = some index) (hother : other ≠ index) :
    ofIndex other (heard ++ [choice]) = ofIndex other heard := by
  simp [ofIndex, List.filter_append, h, Ne.symm hother]

/-- Some choices of one index: none has ended, or the last one and no other has. -/
inductive EndsWith (heard : List Value) : Option String → Prop where
  | running (h : ∀ choice ∈ heard, choiceFinish choice = none) : EndsWith heard none
  | ended {before : List Value} {last : Value} {reason : String} (hheard : heard = before ++ [last])
      (hbefore : ∀ choice ∈ before, choiceFinish choice = none)
      (hlast : choiceFinish last = some reason) : EndsWith heard (some reason)

/-- What is stored of a choice after its part of the events. -/
structure ChoiceHeard (kind : LocalOpenAiStreamKind) (heard : List Value)
    (stored : StreamChoice) : Prop where
  ends : EndsWith heard stored.finishReason
  text : stored.text = String.join
    ((heard.filter fun choice => (choiceFinish choice).isNone).map (choiceText kind))

/-- A choice of an event, and what it does to what is stored. -/
structure ChoiceStep (kind : LocalOpenAiStreamKind) (choice : Value)
    (before after : StreamChoice) : Prop where
  running : before.finishReason = none
  finish : after.finishReason = choiceFinish choice
  text : after.text = before.text ++ if choiceFinish choice = none then choiceText kind choice else ""
  quiet : kind = .chat → choiceFinish choice ≠ none → choiceText kind choice = ""

section Choices
variable {kind : LocalOpenAiStreamKind} {heard : List Value} {stored after : StreamChoice}
  {choice : Value}

theorem choiceHeard_new : ChoiceHeard kind [] (.new kind) := by
  cases kind with
  | chat => exact ⟨.running fun _ h => (List.not_mem_nil h).elim, rfl⟩
  | completion => exact ⟨.running fun _ h => (List.not_mem_nil h).elim, rfl⟩

theorem ChoiceHeard.step (h : ChoiceHeard kind heard stored)
    (hstep : ChoiceStep kind choice stored after) :
    ChoiceHeard kind (heard ++ [choice]) after := by
  have hrunning : ∀ choice ∈ heard, choiceFinish choice = none := by
    have hends := h.ends
    rw [hstep.running] at hends
    cases hends with
    | running hall => exact hall
  constructor
  · rw [hstep.finish]
    cases hfinish : choiceFinish choice with
    | none =>
        refine .running fun other hother => ?_
        rcases List.mem_append.mp hother with hmem | hmem
        · exact hrunning other hmem
        · rw [List.mem_singleton.mp hmem, hfinish]
    | some reason => exact .ended rfl hrunning hfinish
  · rw [hstep.text, h.text, List.filter_append]
    cases hfinish : choiceFinish choice with
    | none => simp [hfinish]
    | some reason => simp [hfinish]

end Choices

section Checks
variable {object delta : Fields} {index expectedChoices : Nat} {reason : Option String}

theorem streamChoiceIndex_ok (h : streamChoiceIndex object expectedChoices = .ok index) :
    index < expectedChoices ∧ (object.get "index").bind Value.asU64 = some index := by
  simp only [streamChoiceIndex, bind_eq_ok, okOr_eq_ok, rejectIf_eq_ok, Option.filter_eq_some_iff,
    exists_const] at h
  obtain ⟨found, ⟨hfound, -⟩, hlt, hindex⟩ := h
  cases hindex
  exact ⟨by omega, hfound⟩

theorem streamFinishReason_ok (h : streamFinishReason object = .ok reason) :
    (object.get "finish_reason").bind Value.asStr = reason := by
  simp only [streamFinishReason] at h
  split at h
  · rename_i hget
    cases h
    rw [hget]
    rfl
  · rename_i value hget
    split at h
    · cases h
      rw [hget]
      rfl
    · cases h
  · cases h

theorem optionalStreamString_ok {field : String} {value : Option String}
    (h : optionalStreamString object field = .ok value) : textOf object field = value.getD "" := by
  simp only [optionalStreamString] at h
  split at h
  · rename_i hget
    cases h
    simp [textOf, hget]
  · rename_i hget
    cases h
    simp [textOf, hget, Value.asStr]
  · rename_i text hget
    cases h
    simp [textOf, hget, Value.asStr]
  · cases h

theorem appendStreamText_ok {destination value text : String}
    (h : appendStreamText destination value = .ok text) : text = destination ++ value := by
  simp only [appendStreamText, bind_eq_ok, rejectIf_eq_ok, exists_const] at h
  cases h.2
  rfl

/-- Fields that are all null have no text. -/
theorem textOf_null {field : String}
    (h : ¬ (delta.any fun field => !field.2.isNull) = true) : textOf delta field = "" := by
  have hnull : ∀ value, delta.get field = some value → value.isNull = true := by
    intro value hget
    obtain ⟨entry, hentry, rfl⟩ := Option.map_eq_some_iff.mp hget
    have hmem := List.mem_of_find?_eq_some hentry
    by_contra hvalue
    exact h (List.any_eq_true.mpr ⟨entry, hmem, by simpa using hvalue⟩)
  cases hget : delta.get field with
  | none => simp [textOf, hget]
  | some value =>
      have hvalue := hnull value hget
      cases value with
      | null => simp [textOf, hget, Value.asStr]
      | bool b => cases hvalue
      | int n => cases hvalue
      | float text => cases hvalue
      | string text => cases hvalue
      | array items => cases hvalue
      | object fields => cases hvalue

end Checks

namespace ChatStreamChoice
variable {choice after : ChatStreamChoice} {delta : Fields} {reason : Option String}

theorem observeRole_ok (h : choice.observeRole delta = .ok after) :
    after.content = choice.content ∧ after.finishReason = choice.finishReason := by
  obtain ⟨role, -, hafter⟩ := bind_eq_ok.mp h
  cases role with
  | none =>
      cases hafter
      exact ⟨rfl, rfl⟩
  | some role =>
      dsimp only at hafter
      split at hafter
      · cases hafter
      · cases hafter
        exact ⟨rfl, rfl⟩

theorem observeContent_ok (h : choice.observeContent delta = .ok after) :
    after.content = choice.content ++ textOf delta "content" ∧
      after.finishReason = choice.finishReason := by
  obtain ⟨content, hcontent, hafter⟩ := bind_eq_ok.mp h
  rw [optionalStreamString_ok hcontent]
  cases content with
  | none =>
      cases hafter
      exact ⟨String.append_empty.symm, rfl⟩
  | some value =>
      obtain ⟨text, htext, hafter⟩ := bind_eq_ok.mp hafter
      cases hafter
      exact ⟨appendStreamText_ok htext, rfl⟩

theorem observeReasoning_ok (h : choice.observeReasoning delta = .ok after) :
    after.content = choice.content ∧ after.finishReason = choice.finishReason := by
  obtain ⟨content, -, hafter⟩ := bind_eq_ok.mp h
  cases content with
  | none =>
      cases hafter
      exact ⟨rfl, rfl⟩
  | some value =>
      obtain ⟨text, -, hafter⟩ := bind_eq_ok.mp hafter
      cases hafter
      exact ⟨rfl, rfl⟩

theorem observe_ok (h : choice.observe delta reason = .ok after) :
    choice.finishReason = none ∧ after.finishReason = reason ∧
      after.content = choice.content ++ textOf delta "content" ∧
      (reason.isSome = true → textOf delta "content" = "") := by
  simp only [observe, bind_eq_ok, rejectIf_eq_ok, exists_const] at h
  obtain ⟨hrunning, roled, hrole, texted, htext, reasoned, hreasoned, hfinish⟩ := h
  have hnone : choice.finishReason = none := by simpa using hrunning
  obtain ⟨hroleText, hroleFinish⟩ := observeRole_ok hrole
  obtain ⟨hcontent, hcontentFinish⟩ := observeContent_ok htext
  obtain ⟨hreasonText, hreasonFinish⟩ := observeReasoning_ok hreasoned
  have htotal : reasoned.content = choice.content ++ textOf delta "content" := by
    rw [hreasonText, hcontent, hroleText]
  have hstill : reasoned.finishReason = none := by
    rw [hreasonFinish, hcontentFinish, hroleFinish, hnone]
  cases reason with
  | none =>
      cases hfinish
      exact ⟨hnone, hstill, htotal, fun hsome => by cases hsome⟩
  | some value =>
      simp only [observeFinish] at hfinish
      split at hfinish
      · cases hfinish
      · rename_i hnull
        cases hfinish
        exact ⟨hnone, rfl, htotal, fun _ => textOf_null hnull⟩

end ChatStreamChoice

theorem CompletionStreamChoice.observe_ok {choice after : CompletionStreamChoice} {text : String}
    {reason : Option String} (h : choice.observe text reason = .ok after) :
    choice.finishReason = none ∧ after.finishReason = reason ∧
      after.text = choice.text ++ (if reason = none then text else "") ∧
      (reason.isSome = true → text = "" ∨ text = choice.text) := by
  simp only [observe, bind_eq_ok, rejectIf_eq_ok, exists_const] at h
  obtain ⟨hrunning, hafter⟩ := h
  have hnone : choice.finishReason = none := by simpa using hrunning
  cases reason with
  | none =>
      obtain ⟨appended, happended, hafter⟩ := bind_eq_ok.mp hafter
      cases hafter
      refine ⟨hnone, hnone, ?_, fun hsome => by cases hsome⟩
      rw [if_pos rfl]
      exact appendStreamText_ok happended
  | some value =>
      simp only [bind_eq_ok, rejectIf_eq_ok, exists_const] at hafter
      obtain ⟨hrepeat, hafter⟩ := hafter
      cases hafter
      refine ⟨hnone, rfl, by simp, fun _ => ?_⟩
      by_cases hempty : text = ""
      · exact .inl hempty
      · exact .inr (by_contra fun hdiffers => hrepeat ⟨hempty, hdiffers⟩)

namespace OpenAiStreamAccumulator
variable {accumulator after : OpenAiStreamAccumulator} {elapsed : Elapsed} {heard : List Value}

/-- The same stream, at another point of it: only choices and the measured time differ. -/
structure SameButChoices (accumulator after : OpenAiStreamAccumulator) : Prop where
  kind : after.kind = accumulator.kind
  expectedChoices : after.expectedChoices = accumulator.expectedChoices
  usage : after.usage = accumulator.usage
  terminalStatsSeen : after.terminalStatsSeen = accumulator.terminalStatsSeen

theorem store_same (index : Nat) (choice : StreamChoice) (observedToken : Bool) :
    SameButChoices accumulator (accumulator.store index choice observedToken elapsed) := by
  rw [store]
  split
  · rw [observeFirstToken]
    split
    · exact ⟨rfl, rfl, rfl, rfl⟩
    · exact ⟨rfl, rfl, rfl, rfl⟩
  · exact ⟨rfl, rfl, rfl, rfl⟩

theorem store_choices (index : Nat) (choice : StreamChoice) (observedToken : Bool) :
    (accumulator.store index choice observedToken elapsed).choices =
      accumulator.choices.set ⟨index, choice⟩ := by
  rw [store]
  split
  · rw [observeFirstToken]
    split
    · rfl
    · rfl
  · rfl

theorem entry_store (index other : Nat) (choice : StreamChoice) (observedToken : Bool) :
    (accumulator.store index choice observedToken elapsed).entry other =
      if other = index then choice else accumulator.entry other := by
  rw [entry, store_choices, (store_same index choice observedToken).kind]
  split
  · rename_i hother
    subst hother
    have hfound : (accumulator.choices.set ⟨other, choice⟩).find
        (ChoiceEntry.index ⟨other, choice⟩) = some ⟨other, choice⟩ := Table.find_set_self
    rw [show (accumulator.choices.set ⟨other, choice⟩).find other = some ⟨other, choice⟩ from hfound]
    rfl
  · rename_i hother
    rw [Table.find_set_ne hother]
    rfl

/-- What one choice of an event does. -/
structure ObservedChoice (accumulator : OpenAiStreamAccumulator) (value : Value)
    (after : OpenAiStreamAccumulator) : Prop where
  same : SameButChoices accumulator after
  choice : ∃ index stored, index < accumulator.expectedChoices ∧ choiceIndex value = some index ∧
    ChoiceStep accumulator.kind value (accumulator.entry index) stored ∧
    ∀ other, after.entry other = if other = index then stored else accumulator.entry other

theorem observeChatChoice_ok {value : Value} (hkind : accumulator.kind = .chat)
    (h : accumulator.observeChatChoice value elapsed = .ok after) :
    ObservedChoice accumulator value after := by
  simp only [observeChatChoice, bind_eq_ok, okOr_eq_ok, rejectIf_eq_ok, exists_const] at h
  obtain ⟨object, hobject, index, hindex, reason, hreason, delta, hdelta, -, hmatch⟩ := h
  obtain ⟨hlt, hget⟩ := streamChoiceIndex_ok hindex
  have hfields : fieldsOf value = object := by simp [fieldsOf, hobject]
  have hfinish : choiceFinish value = reason := by
    rw [choiceFinish, hfields]
    exact streamFinishReason_ok hreason
  obtain ⟨deltaValue, hdeltaValue, hdeltaObject⟩ := Option.bind_eq_some_iff.mp hdelta
  have htext : choiceText .chat value = textOf delta "content" := by
    rw [choiceText, hfields, hdeltaValue, Option.getD_some, fieldsOf, hdeltaObject,
      Option.getD_some]
  cases hentry : accumulator.entry index with
  | completion choice =>
      rw [hentry] at hmatch
      cases hmatch
  | chat choice =>
      rw [hentry] at hmatch
      obtain ⟨observed, hobserved, hafter⟩ := bind_eq_ok.mp hmatch
      cases hafter
      obtain ⟨hrunning, hended, hcontent, hquiet⟩ := ChatStreamChoice.observe_ok hobserved
      refine ⟨store_same _ _ _, index, .chat observed, hlt, by rw [choiceIndex, hfields, hget], ?_,
        fun other => entry_store _ _ _ _⟩
      rw [hkind, hentry]
      refine ⟨hrunning, hended.trans hfinish.symm, ?_, fun _ hsome => ?_⟩
      · rw [hfinish, htext]
        cases reason with
        | none => exact hcontent
        | some value =>
            rw [hquiet rfl] at hcontent
            exact hcontent
      · rw [htext]
        exact hquiet (Option.isSome_iff_ne_none.mpr (hfinish ▸ hsome))

theorem observeCompletionChoice_ok {value : Value} (hkind : accumulator.kind = .completion)
    (h : accumulator.observeCompletionChoice value elapsed = .ok after) :
    ObservedChoice accumulator value after := by
  simp only [observeCompletionChoice, bind_eq_ok, okOr_eq_ok] at h
  obtain ⟨object, hobject, index, hindex, text, htext, reason, hreason, hmatch⟩ := h
  obtain ⟨hlt, hget⟩ := streamChoiceIndex_ok hindex
  have hfields : fieldsOf value = object := by simp [fieldsOf, hobject]
  have hfinish : choiceFinish value = reason := by
    rw [choiceFinish, hfields]
    exact streamFinishReason_ok hreason
  have htextOf : choiceText .completion value = text := by
    simp [choiceText, hfields, textOf, htext]
  cases hentry : accumulator.entry index with
  | chat choice =>
      rw [hentry] at hmatch
      cases hmatch
  | completion choice =>
      rw [hentry] at hmatch
      obtain ⟨observed, hobserved, hafter⟩ := bind_eq_ok.mp hmatch
      cases hafter
      obtain ⟨hrunning, hended, hstored, -⟩ := CompletionStreamChoice.observe_ok hobserved
      refine ⟨store_same _ _ _, index, .completion observed, hlt,
        by rw [choiceIndex, hfields, hget], ?_, fun other => entry_store _ _ _ _⟩
      rw [hkind, hentry]
      refine ⟨hrunning, hended.trans hfinish.symm, ?_, fun hchat => by cases hchat⟩
      rw [hfinish, htextOf]
      exact hstored

theorem observeChoice_ok {value : Value}
    (h : accumulator.observeChoice value elapsed = .ok after) :
    ObservedChoice accumulator value after := by
  rw [observeChoice] at h
  cases hkind : accumulator.kind with
  | chat =>
      rw [hkind] at h
      exact observeChatChoice_ok hkind h
  | completion =>
      rw [hkind] at h
      exact observeCompletionChoice_ok hkind h

/-- The stored choices are what the choices of the events say. -/
structure HeardChoices (accumulator : OpenAiStreamAccumulator) (heard : List Value) : Prop where
  indices : ∀ choice ∈ heard, ∃ index < accumulator.expectedChoices, choiceIndex choice = some index
  quiet : accumulator.kind = .chat → ∀ choice ∈ heard, choiceFinish choice ≠ none →
    choiceText accumulator.kind choice = ""
  entries : ∀ index, ChoiceHeard accumulator.kind (ofIndex index heard) (accumulator.entry index)

theorem HeardChoices.step {value : Value} (h : HeardChoices accumulator heard)
    (hobserved : ObservedChoice accumulator value after) :
    HeardChoices after (heard ++ [value]) := by
  obtain ⟨index, stored, hlt, hindex, hstep, hentry⟩ := hobserved.choice
  constructor
  · intro choice hmem
    rw [hobserved.same.expectedChoices]
    rcases List.mem_append.mp hmem with hold | hnew
    · exact h.indices choice hold
    · rw [List.mem_singleton.mp hnew]
      exact ⟨index, hlt, hindex⟩
  · intro hchat choice hmem
    rw [hobserved.same.kind] at hchat ⊢
    rcases List.mem_append.mp hmem with hold | hnew
    · exact h.quiet hchat choice hold
    · rw [List.mem_singleton.mp hnew]
      exact hstep.quiet hchat
  · intro other
    rw [hobserved.same.kind, hentry]
    by_cases hother : other = index
    · subst hother
      rw [if_pos rfl, ofIndex_snoc_self hindex]
      exact (h.entries other).step hstep
    · rw [if_neg hother, ofIndex_snoc_other hindex hother]
      exact h.entries other

/-- The choices of an event, one after the other. -/
theorem HeardChoices.all {choices : List Value} (h : HeardChoices accumulator heard)
    (hrun : choices.foldlM (fun accumulator choice => accumulator.observeChoice choice elapsed)
      accumulator = .ok after) :
    HeardChoices after (heard ++ choices) ∧ SameButChoices accumulator after := by
  induction choices generalizing accumulator heard with
  | nil =>
      cases hrun
      rw [List.append_nil]
      exact ⟨h, rfl, rfl, rfl, rfl⟩
  | cons choice choices ih =>
      obtain ⟨next, hnext, hrest⟩ := bind_eq_ok.mp hrun
      have hobserved := observeChoice_ok hnext
      obtain ⟨hall, hsame⟩ := ih (h.step hobserved) hrest
      rw [List.append_assoc] at hall
      exact ⟨hall, hsame.kind.trans hobserved.same.kind,
        hsame.expectedChoices.trans hobserved.same.expectedChoices,
        hsame.usage.trans hobserved.same.usage,
        hsame.terminalStatsSeen.trans hobserved.same.terminalStatsSeen⟩

end OpenAiStreamAccumulator

/-- The aggregate of some statistics: their common prompt and the sum of what they count. -/
structure UsageHeard (records : List Value) (usage : Value) (prompt : Nat)
    (counts : List Nat) : Prop where
  prompts : ∀ record ∈ records, tokensOf (usageOf record) "prompt_tokens" = some prompt
  completions : records.map (fun record => tokensOf (usageOf record) "completion_tokens") =
    counts.map some
  samePrompt : tokensOf (fieldsOf usage) "prompt_tokens" = some prompt
  completion : tokensOf (fieldsOf usage) "completion_tokens" = some counts.sum
  total : tokensOf (fieldsOf usage) "total_tokens" = some (prompt + counts.sum)
  promptFits : prompt < 2 ^ 31
  completionFits : counts.sum < 2 ^ 31

/-- What is stored of the statistics of some events. -/
inductive HeardUsage : List Value → Option Value → Prop where
  | none : HeardUsage [] none
  | some {records : List Value} {usage : Value} {prompt : Nat} {counts : List Nat}
      (h : UsageHeard records usage prompt counts) : HeardUsage records (some usage)

section Usage
variable {records : List Value} {record : Value} {stored : Option Value} {merged : Value}
  {prompt completion total : Nat}

theorem UsageHeard.first {usage : Value} (husage : usageOf record = fieldsOf usage)
    (hprompt : tokensOf (fieldsOf usage) "prompt_tokens" = some prompt)
    (hcompletion : tokensOf (fieldsOf usage) "completion_tokens" = some completion)
    (htotal : tokensOf (fieldsOf usage) "total_tokens" = some (prompt + completion))
    (hpromptFits : prompt < 2 ^ 31) (hcompletionFits : completion < 2 ^ 31) :
    UsageHeard [record] usage prompt [completion] where
  prompts := fun other hother => by rw [List.mem_singleton.mp hother, husage, hprompt]
  completions := by simp [husage, hcompletion]
  samePrompt := hprompt
  completion := by simpa using hcompletion
  total := by simpa using htotal
  promptFits := hpromptFits
  completionFits := by simpa using hcompletionFits

/-- The stored statistics with those of one more event. -/
theorem mergeStreamUsage_ok {usage : Fields} (hheard : HeardUsage records stored)
    (husage : usageOf record = usage)
    (hprompt : tokensOf usage "prompt_tokens" = some prompt)
    (hcompletion : tokensOf usage "completion_tokens" = some completion)
    (htotal : tokensOf usage "total_tokens" = some (prompt + completion))
    (hpromptFits : prompt < 2 ^ 31) (hcompletionFits : completion < 2 ^ 31)
    (h : mergeStreamUsage stored (.object usage) prompt completion = .ok merged) :
    HeardUsage (records ++ [record]) (some merged) := by
  cases hheard with
  | none =>
      cases h
      exact .some (.first husage hprompt hcompletion htotal hpromptFits hcompletionFits)
  | @some records existing storedPrompt counts hstored =>
      simp only [mergeStreamUsage, bind_eq_ok, okOr_eq_ok, rejectIf_eq_ok, exists_const,
        requiredStreamU64] at h
      obtain ⟨fields, hfields, foundPrompt, hfoundPrompt, foundCompletion, hfoundCompletion,
        hsame, hsum, -, hmerged⟩ := h
      have hexisting : fieldsOf existing = fields := by simp [fieldsOf, hfields]
      have hstoredPrompt := hstored.samePrompt
      have hstoredCompletion := hstored.completion
      rw [hexisting, tokensOf] at hstoredPrompt hstoredCompletion
      have hpromptEq : storedPrompt = prompt := by
        rw [hfoundPrompt] at hstoredPrompt
        exact (Option.some.inj hstoredPrompt).symm.trans (not_not.mp hsame)
      have hcountEq : foundCompletion = counts.sum := by
        rw [hfoundCompletion] at hstoredCompletion
        exact Option.some.inj hstoredCompletion
      subst hpromptEq hcountEq
      cases hmerged
      have hsumFits : counts.sum + completion < 2 ^ 31 := not_not.mp hsum
      have hcounts : (counts ++ [completion]).sum = counts.sum + completion := by simp
      refine @HeardUsage.some _ _ storedPrompt (counts ++ [completion]) ⟨?_, ?_, ?_, ?_, ?_,
        hpromptFits, by rwa [hcounts]⟩
      · intro other hother
        rcases List.mem_append.mp hother with hold | hnew
        · exact hstored.prompts other hold
        · rw [List.mem_singleton.mp hnew, husage, hprompt]
      · rw [List.map_append, List.map_append, hstored.completions]
        simp [husage, hcompletion]
      · rw [tokensOf, fieldsOf, Value.asObject, Option.getD_some,
          Fields.get_insert_other (by decide), Fields.get_insert_other (by decide)]
        exact hstoredPrompt
      · rw [tokensOf, fieldsOf, Value.asObject, Option.getD_some,
          Fields.get_insert_other (by decide), Fields.get_insert_self, Option.bind_some,
          Value.asU64_ofNat (by omega), hcounts]
      · rw [tokensOf, fieldsOf, Value.asObject, Option.getD_some, Fields.get_insert_self,
          Option.bind_some, Value.asU64_ofNat (by omega), hcounts]

end Usage

namespace OpenAiStreamAccumulator
variable {accumulator after : OpenAiStreamAccumulator} {elapsed : Elapsed} {doubles : Doubles}
  {events : List Value} {event : Value}

/-- What the accumulator holds after some events of a stream. -/
structure Heard (kind : LocalOpenAiStreamKind) (expectedChoices : Nat) (events : List Value)
    (accumulator : OpenAiStreamAccumulator) : Prop where
  kind : accumulator.kind = kind
  expectedChoices : accumulator.expectedChoices = expectedChoices
  choices : HeardChoices accumulator (events.flatMap choicesOf)
  usage : HeardUsage (events.filter hasStats) accumulator.usage
  stats : accumulator.terminalStatsSeen = (events.filter hasStats).length

theorem heard_new (kind : LocalOpenAiStreamKind) (expectedChoices : Nat) :
    Heard kind expectedChoices [] (.new kind expectedChoices) where
  kind := rfl
  expectedChoices := rfl
  choices := ⟨fun _ h => (List.not_mem_nil h).elim, fun _ _ h => (List.not_mem_nil h).elim,
    fun _ => choiceHeard_new⟩
  usage := .none
  stats := rfl

theorem observeTerminalStats_ok {object : Fields} {records : List Value}
    (hobject : event.asObject = some object)
    (husage : HeardUsage records accumulator.usage)
    (h : accumulator.observeTerminalStats doubles object = .ok after) :
    HeardUsage (records ++ [event]) after.usage ∧
      after.terminalStatsSeen = accumulator.terminalStatsSeen + 1 ∧
      after.kind = accumulator.kind ∧ after.expectedChoices = accumulator.expectedChoices ∧
      after.choices = accumulator.choices := by
  simp only [observeTerminalStats, bind_eq_ok, okOr_eq_ok, rejectIf_eq_ok, exists_const,
    requiredStreamU64] at h
  obtain ⟨usage, husageObject, timings, -, prompt, hprompt, completion, hcompletion, total, htotal,
    hfits, -, -, -, -, merged, hmerged, mergedTimings, -, hafter⟩ := h
  cases hafter
  simp only [not_or, not_not] at hfits
  obtain ⟨hsum, hpromptFits, hcompletionFits⟩ := hfits
  obtain ⟨usageValue, husageValue, husageFields⟩ := Option.bind_eq_some_iff.mp husageObject
  have hrecord : usageOf event = usage := by
    rw [usageOf, fieldsOf, fieldsOf, hobject, Option.getD_some, husageValue, Option.getD_some,
      husageFields, Option.getD_some]
  subst hsum
  exact ⟨mergeStreamUsage_ok husage hrecord hprompt hcompletion htotal hpromptFits hcompletionFits
    hmerged, rfl, rfl, rfl, rfl⟩

/-- The statistics of an event, if it brings them. -/
theorem observeStats_ok {object : Fields} {choices records : List Value}
    (hobject : event.asObject = some object) (husage : HeardUsage records accumulator.usage)
    (hseen : accumulator.terminalStatsSeen = records.length)
    (h : accumulator.observeStats doubles object choices = .ok after) :
    HeardUsage (records ++ [event].filter hasStats) after.usage ∧
      after.terminalStatsSeen = (records ++ [event].filter hasStats).length ∧
      after.kind = accumulator.kind ∧ after.expectedChoices = accumulator.expectedChoices ∧
      after.choices = accumulator.choices := by
  have hstats : hasStats event =
      (object.containsKey "usage" || object.containsKey "timings") := by
    rw [hasStats, fieldsOf, hobject, Option.getD_some]
  have hbrings (hbrings : object.containsKey "usage" = true ∨ object.containsKey "timings" = true)
      (hobserve : accumulator.observeTerminalStats doubles object = .ok after) :
      HeardUsage (records ++ [event].filter hasStats) after.usage ∧
        after.terminalStatsSeen = (records ++ [event].filter hasStats).length ∧
        after.kind = accumulator.kind ∧ after.expectedChoices = accumulator.expectedChoices ∧
        after.choices = accumulator.choices := by
    have hfilter : [event].filter hasStats = [event] := by
      simpa [hstats] using hbrings
    obtain ⟨hheard, hcount, hrest⟩ := observeTerminalStats_ok hobject husage hobserve
    rw [hfilter]
    exact ⟨hheard, by rw [hcount, hseen, List.length_append, List.length_singleton], hrest⟩
  rw [observeStats] at h
  split at h
  · rename_i hkeys
    cases hkind : accumulator.kind with
    | chat =>
        simp only [hkind] at h
        split at h
        · cases h
        · simpa only [hkind] using hbrings hkeys h
    | completion =>
        simp only [hkind] at h
        split at h
        · cases h
        · simpa only [hkind] using hbrings hkeys h
  · rename_i hkeys
    have hfilter : [event].filter hasStats = [] := by
      simpa [hstats] using hkeys
    split at h
    · cases h
    · cases h
      rw [hfilter, List.append_nil]
      exact ⟨husage, hseen, rfl, rfl, rfl⟩

/-- One more event. -/
theorem Heard.observe {kind : LocalOpenAiStreamKind} {expectedChoices : Nat}
    (hheard : Heard kind expectedChoices events accumulator)
    (h : accumulator.observe doubles event elapsed = .ok after) :
    Heard kind expectedChoices (events ++ [event]) after := by
  simp only [OpenAiStreamAccumulator.observe, bind_eq_ok, okOr_eq_ok, rejectIf_eq_ok,
    exists_const] at h
  obtain ⟨-, -, object, hobject, metadata, -, choices, hchoices, -, observed, hobserved, hafter⟩ := h
  have hevent : choicesOf event = choices := by
    rw [choicesOf, fieldsOf, hobject, Option.getD_some, hchoices, Option.getD_some]
  have hstart : HeardChoices
      { accumulator with eventCount := accumulator.eventCount + 1, metadata }
      (events.flatMap choicesOf) :=
    ⟨hheard.choices.indices, hheard.choices.quiet, hheard.choices.entries⟩
  obtain ⟨hall, hsame⟩ := hstart.all hobserved
  have husage : HeardUsage (events.filter hasStats) observed.usage := by
    rw [hsame.usage]
    exact hheard.usage
  obtain ⟨hstats, hseen, hkind, hexpected, hentries⟩ := observeStats_ok hobject husage
    (hsame.terminalStatsSeen.trans hheard.stats) hafter
  constructor
  · exact hkind.trans (hsame.kind.trans hheard.kind)
  · exact hexpected.trans (hsame.expectedChoices.trans hheard.expectedChoices)
  · rw [List.flatMap_append, List.flatMap_singleton, hevent]
    refine ⟨fun choice hmem => ?_, fun hchat choice hmem => ?_, fun index => ?_⟩
    · rw [hexpected]
      exact hall.indices choice hmem
    · rw [hkind] at hchat ⊢
      exact hall.quiet hchat choice hmem
    · have hentry : after.entry index = observed.entry index := by rw [entry, entry, hentries, hkind]
      rw [hkind, hentry]
      exact hall.entries index
  · rw [List.filter_append]
    exact hstats
  · rw [List.filter_append]
    exact hseen

end OpenAiStreamAccumulator

/-- A computation for each item of a list. -/
theorem mapM_ok {ε α β : Type} {f : α → Except ε β} {items : List α} {results : List β}
    (h : items.mapM f = .ok results) : results.length = items.length ∧
      ∀ (i : Nat) a, items[i]? = some a → ∃ b, results[i]? = some b ∧ f a = .ok b := by
  induction items generalizing results with
  | nil =>
      cases h
      exact ⟨rfl, fun i a ha => by simp at ha⟩
  | cons item items ih =>
      rw [List.mapM_cons] at h
      obtain ⟨b, hb, h⟩ := bind_eq_ok.mp h
      obtain ⟨rest, hrest, h⟩ := bind_eq_ok.mp h
      cases h
      obtain ⟨hlength, hall⟩ := ih hrest
      refine ⟨congrArg (· + 1) hlength, fun i a ha => ?_⟩
      cases i with
      | zero =>
          cases ha
          exact ⟨b, rfl, hb⟩
      | succ i => exact hall i a ha

/-- The choice of a response at an index, and the choices of the events of that index. -/
structure ChoiceComplete (kind : LocalOpenAiStreamKind) (heard : List Value) (choice : Value) :
    Prop where
  ended : ∃ before last, heard = before ++ [last] ∧ (∀ other ∈ before, choiceFinish other = none) ∧
    choiceFinish last ≠ none ∧ choiceFinish choice = choiceFinish last ∧
    settledText kind choice = String.join (before.map (choiceText kind))

/-- A response that tells all of a stream, and nothing else. -/
structure ResponseComplete (kind : LocalOpenAiStreamKind) (expectedChoices : Nat)
    (events : List Value) (response : Value) : Prop where
  indices : ∀ choice ∈ events.flatMap choicesOf,
    ∃ index < expectedChoices, choiceIndex choice = some index
  quiet : kind = .chat → ∀ choice ∈ events.flatMap choicesOf, choiceFinish choice ≠ none →
    choiceText kind choice = ""
  count : (choicesOf response).length = expectedChoices
  choices : ∀ index < expectedChoices, ∃ choice, (choicesOf response)[index]? = some choice ∧
    choiceIndex choice = some index ∧
    ChoiceComplete kind (ofIndex index (events.flatMap choicesOf)) choice
  records : (events.filter hasStats).length = expectedChoices
  usage : ∃ usage prompt counts, (fieldsOf response).get "usage" = some usage ∧
    UsageHeard (events.filter hasStats) usage prompt counts

theorem ChoiceHeard.complete {kind : LocalOpenAiStreamKind} {heard : List Value}
    {stored : StreamChoice} {choice : Value} {reason : String} (h : ChoiceHeard kind heard stored)
    (hreason : stored.finishReason = some reason) (hfinish : choiceFinish choice = some reason)
    (htext : settledText kind choice = stored.text) : ChoiceComplete kind heard choice := by
  have hends := h.ends
  rw [hreason] at hends
  cases hends with
  | @ended before last _ hheard hbefore hlast =>
      refine ⟨before, last, hheard, hbefore, by simp [hlast], by rw [hfinish, hlast], ?_⟩
      have hfilter : before.filter (fun choice => (choiceFinish choice).isNone) = before :=
        List.filter_eq_self.mpr fun other hother => by simp [hbefore other hother]
      rw [htext, h.text, hheard, List.filter_append, hfilter]
      simp [hlast]

namespace OpenAiStreamAccumulator
variable {accumulator : OpenAiStreamAccumulator} {events : List Value}

theorem responseChoice_ok {index : Nat} {heard : List Value} {choice : Value}
    (hheard : ChoiceHeard accumulator.kind (ofIndex index heard) (accumulator.entry index))
    (h : accumulator.responseChoice index = .ok choice) :
    choiceIndex choice = some index ∧
      ChoiceComplete accumulator.kind (ofIndex index heard) choice := by
  simp only [responseChoice, bind_eq_ok, okOr_eq_ok] at h
  obtain ⟨found, hfind, hchoice⟩ := h
  have hentry : accumulator.entry index = found.choice := by
    rw [OpenAiStreamAccumulator.entry, hfind, Option.map_some, Option.getD_some]
  rw [hentry] at hheard
  have hindex (reason : String) (hreason : found.choice.finishReason = some reason) :
      index < 2 ^ 64 := by
    have hends := hheard.ends
    rw [hreason] at hends
    cases hends with
    | @ended before last _ hsplit hbefore hlast =>
        have hmem : last ∈ ofIndex index heard := by simp [hsplit]
        exact choiceIndex_lt (by simpa using (List.mem_filter.mp hmem).2)
  cases hkind : accumulator.kind with
  | chat =>
      cases hfound : found.choice with
      | completion stored =>
          rw [hkind, hfound] at hchoice
          cases hchoice
      | chat stored =>
          rw [hkind, hfound] at hchoice hheard
          simp only [bind_eq_ok, okOr_eq_ok] at hchoice
          obtain ⟨reason, hreason, hchoice⟩ := hchoice
          cases hchoice
          have hlt := hindex reason (by rw [hfound]; exact hreason)
          refine ⟨?_, hheard.complete hreason rfl rfl⟩
          rw [choiceIndex_object, Value.asU64_ofNat hlt]
  | completion =>
      cases hfound : found.choice with
      | chat stored =>
          rw [hkind, hfound] at hchoice
          cases hchoice
      | completion stored =>
          rw [hkind, hfound] at hchoice hheard
          simp only [bind_eq_ok, okOr_eq_ok] at hchoice
          obtain ⟨reason, hreason, hchoice⟩ := hchoice
          cases hchoice
          have hlt := hindex reason (by rw [hfound]; exact hreason)
          refine ⟨?_, hheard.complete hreason rfl rfl⟩
          rw [choiceIndex_object, Value.asU64_ofNat hlt]

/-- The response that is made of all events of a stream. -/
theorem Heard.finish {kind : LocalOpenAiStreamKind} {expectedChoices : Nat} {sawDone : Bool}
    {result : StandardExecutionResult} (hheard : Heard kind expectedChoices events accumulator)
    (h : accumulator.finish sawDone = .ok result) :
    sawDone = true ∧ ResponseComplete kind expectedChoices events result.response := by
  simp only [OpenAiStreamAccumulator.finish, bind_eq_ok, okOr_eq_ok, rejectIf_eq_ok,
    exists_const] at h
  obtain ⟨hdone, -, -, choices, hchoices, usage, husage, timings, -, created, -, hresult⟩ := h
  cases hresult
  simp only [not_or, not_not, Bool.not_eq_false] at hdone
  obtain ⟨hlength, hall⟩ := mapM_ok hchoices
  rw [List.length_range] at hlength
  have hread : choicesOf (.object [("id", .string accumulator.metadata.id),
      ("object", .string accumulator.kind.responseObject), ("created", .int created),
      ("model", .string accumulator.metadata.model), ("choices", .array choices),
      ("usage", usage), ("timings", timings),
      ("system_fingerprint", .string accumulator.metadata.systemFingerprint)]) = choices := rfl
  refine ⟨hdone.1, ?_, ?_, ?_, ?_, ?_, ?_⟩
  · rw [← hheard.expectedChoices]
    exact hheard.choices.indices
  · rw [← hheard.kind]
    exact hheard.choices.quiet
  · rw [hread, hlength, hheard.expectedChoices]
  · intro index hindex
    rw [← hheard.expectedChoices] at hindex
    obtain ⟨choice, hchoice, hok⟩ := hall index index (by simp [hindex])
    obtain ⟨hchoiceIndex, hcomplete⟩ := responseChoice_ok (hheard.choices.entries index) hok
    rw [hheard.kind] at hcomplete
    exact ⟨choice, by rw [hread, hchoice], hchoiceIndex, hcomplete⟩
  · rw [← hheard.stats, hdone.2, hheard.expectedChoices]
  · have hstored := hheard.usage
    rw [husage] at hstored
    generalize events.filter hasStats = records at hstored ⊢
    cases hstored with
    | some h => exact ⟨usage, _, _, rfl, h⟩

end OpenAiStreamAccumulator

end MindOne.Worker
