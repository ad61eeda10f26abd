import Mathlib.Data.List.Basic

/-!
# The grammar of server-sent events

A stream is a sequence of lines, each ended by a line feed, a carriage return or
both. A line names a field and its value; a blank line dispatches the message
that the fields before it have built. What is not ended, or not dispatched, is
discarded. A message that is written as one frame is read back exactly when its
data has no line break.
-/

namespace EventStream

def IsBreak (c : Char) : Prop := c = '\n' ∨ c = '\r'

instance (c : Char) : Decidable (IsBreak c) := inferInstanceAs (Decidable (_ ∨ _))

/-- The text stays on one line. -/
def OneLine (text : List Char) : Prop := ∀ c ∈ text, ¬ IsBreak c

instance (text : List Char) : Decidable (OneLine text) :=
  List.decidableBAll (fun c => ¬ IsBreak c) text

/-- The ended lines of a stream. A line feed right after a carriage return belongs to it. -/
def lines : Bool → List Char → List (List Char)
  | _, [] => []
  | afterCR, c :: rest =>
      if c = '\n' then
        if afterCR = true then lines false rest else [] :: lines false rest
      else if c = '\r' then [] :: lines true rest
      else
        match lines false rest with
        | [] => []
        | line :: others => (c :: line) :: others

structure Message where
  lastEventId : List Char
  eventType : List Char
  data : List Char
  deriving DecidableEq

/-- What the fields since the last dispatch have built; the identifier stays. -/
structure Buffers where
  lastEventId : List Char
  eventType : List Char
  data : List Char

/-- The name and the value of a line; one blank after the colon is not part of the value. -/
def fieldOf (line : List Char) : List Char × List Char :=
  match line.dropWhile (· ≠ ':') with
  | [] => (line, [])
  | _ :: ' ' :: value => (line.takeWhile (· ≠ ':'), value)
  | _ :: value => (line.takeWhile (· ≠ ':'), value)

namespace Buffers

def empty : Buffers := ⟨[], [], []⟩

/-- The fields that matter to messages; others are ignored. -/
def field (buffers : Buffers) (name value : List Char) : Buffers :=
  if name = ['d', 'a', 't', 'a'] then { buffers with data := buffers.data ++ value ++ ['\n'] }
  else if name = ['e', 'v', 'e', 'n', 't'] then { buffers with eventType := value }
  else if name = ['i', 'd'] ∧ '\x00' ∉ value then { buffers with lastEventId := value }
  else buffers

/-- The message of a blank line, if there is any data. -/
def message (buffers : Buffers) : List Message :=
  if buffers.data = [] then []
  else [⟨buffers.lastEventId, buffers.eventType, buffers.data.dropLast⟩]

def reset (buffers : Buffers) : Buffers := ⟨buffers.lastEventId, [], []⟩

/-- A line that is not blank; one that starts with a colon is a comment. -/
def line (buffers : Buffers) (text : List Char) : Buffers :=
  if text.head? = some ':' then buffers
  else buffers.field (fieldOf text).1 (fieldOf text).2

end Buffers

/-- The messages that lines dispatch. -/
def messages : Buffers → List (List Char) → List Message
  | _, [] => []
  | buffers, text :: rest =>
      if text = [] then buffers.message ++ messages buffers.reset rest
      else messages (buffers.line text) rest

def dropBom : List Char → List Char
  | [] => []
  | c :: rest => if c = '\uFEFF' then rest else c :: rest

/-- The messages of a stream. -/
def parse (stream : List Char) : List Message := messages .empty (lines false (dropBom stream))

section Lines
variable {afterCR : Bool} {text rest : List Char}

theorem lines_newline : lines false ('\n' :: rest) = [] :: lines false rest := rfl

theorem lines_oneLine (h : OneLine text) :
    lines false (text ++ '\n' :: rest) = text :: lines false rest := by
  induction text with
  | nil => rfl
  | cons c text ih =>
      have hc : ¬ IsBreak c := h c List.mem_cons_self
      have htext : OneLine text := fun d hd => h d (List.mem_cons_of_mem c hd)
      rw [IsBreak, not_or] at hc
      rw [List.cons_append, lines, if_neg hc.1, if_neg hc.2, ih htext]

/-- No line contains a break. -/
theorem oneLine_of_mem_lines {line : List Char} (h : line ∈ lines afterCR text) :
    OneLine line := by
  induction text generalizing afterCR line with
  | nil => cases h
  | cons c text ih =>
      rw [lines] at h
      split at h
      · split at h
        · exact ih h
        · rcases List.mem_cons.mp h with rfl | htail
          · exact fun _ hd => nomatch hd
          · exact ih htail
      · rename_i hnewline
        split at h
        · rcases List.mem_cons.mp h with rfl | htail
          · exact fun _ hd => nomatch hd
          · exact ih htail
        · rename_i hreturn
          split at h
          · cases h
          · rename_i first others hlines
            rcases List.mem_cons.mp h with rfl | htail
            · intro d hd
              rcases List.mem_cons.mp hd with rfl | hfirst
              · exact not_or.mpr ⟨hnewline, hreturn⟩
              · have hmem : first ∈ lines false text := hlines ▸ List.mem_cons_self
                exact ih hmem d hfirst
            · have hmem : line ∈ lines false text := hlines ▸ List.mem_cons_of_mem _ htail
              exact ih hmem

end Lines

section Fields
variable {name value line : List Char}

/-- A line in its usual form. -/
theorem fieldOf_blank (h : ':' ∉ name) : fieldOf (name ++ ':' :: ' ' :: value) = (name, value) := by
  have hall : ∀ c ∈ name, decide (c ≠ ':') = true := fun c hc =>
    decide_eq_true fun heq => h (heq ▸ hc)
  have hdrop : (name ++ ':' :: ' ' :: value).dropWhile (· ≠ ':') = ':' :: ' ' :: value := by
    rw [List.dropWhile_append_of_pos hall]
    rfl
  have htake : (name ++ ':' :: ' ' :: value).takeWhile (· ≠ ':') = name := by
    rw [List.takeWhile_append_of_pos hall, List.takeWhile_cons_of_neg (by simp), List.append_nil]
  rw [fieldOf, hdrop, htake]
  rfl

/-- The value of a line is a part of it. -/
theorem value_suffix (line : List Char) : (fieldOf line).2 <:+ line := by
  have hdrop : line.dropWhile (· ≠ ':') <:+ line := List.dropWhile_suffix _
  unfold fieldOf
  split
  · exact List.nil_suffix
  · rename_i value heq
    rw [heq] at hdrop
    exact (List.suffix_cons _ _).trans ((List.suffix_cons _ _).trans hdrop)
  · rename_i value _ heq
    rw [heq] at hdrop
    exact (List.suffix_cons _ _).trans hdrop

theorem length_fieldOf (line : List Char) :
    (fieldOf line).1.length + (fieldOf line).2.length ≤ line.length := by
  have hparts := congrArg List.length (List.takeWhile_append_dropWhile (p := (· ≠ ':')) (l := line))
  rw [List.length_append] at hparts
  unfold fieldOf
  split
  · exact Nat.le_refl _
  · rename_i value heq
    rw [heq] at hparts
    simp only [List.length_cons] at hparts ⊢
    omega
  · rename_i value _ heq
    rw [heq] at hparts
    simp only [List.length_cons] at hparts ⊢
    omega

end Fields

section Buffers
variable {buffers : Buffers} {text rest : List Char} {others : List (List Char)}

theorem messages_blank :
    messages buffers ([] :: others) = buffers.message ++ messages buffers.reset others := rfl

theorem messages_line (h : text ≠ []) :
    messages buffers (text :: others) = messages (buffers.line text) others := by
  rw [messages, if_neg h]

/-- A line makes the data longer by at most its own length. -/
theorem length_line_data (buffers : Buffers) (text : List Char) :
    (buffers.line text).data.length ≤ buffers.data.length + text.length ∧
      (buffers.data ≠ [] → (buffers.line text).data ≠ []) := by
  have hsame : buffers.data.length ≤ buffers.data.length + text.length := Nat.le_add_right _ _
  unfold Buffers.line
  split
  · exact ⟨hsame, id⟩
  · unfold Buffers.field
    split
    · rename_i hname
      refine ⟨?_, by simp⟩
      have hfield := length_fieldOf text
      have hlength := congrArg List.length hname
      simp only [List.length_append, List.length_cons, List.length_nil] at hlength ⊢
      omega
    · split
      · exact ⟨hsame, id⟩
      · split
        · exact ⟨hsame, id⟩
        · exact ⟨hsame, id⟩

theorem messages_dispatch (h : buffers.data ≠ []) :
    messages buffers ([] :: others) = ⟨buffers.lastEventId, buffers.eventType,
      buffers.data.dropLast⟩ :: messages buffers.reset others := by
  rw [messages_blank, Buffers.message, if_neg h]
  rfl

theorem length_dropLast_add_one {data : List Char} (h : data ≠ []) :
    data.dropLast.length + 1 = data.length := by
  have := List.length_pos_iff.mpr h
  rw [List.length_dropLast]
  omega

/-- Text that is followed by a blank line dispatches a message before that, and the
message has no more data than there was and than the text could add. -/
theorem message_of_text (hreturn : '\r' ∉ text) (hdata : buffers.data ≠ []) (rest : List Char) :
    ∃ message others, messages buffers (lines false (text ++ '\n' :: '\n' :: rest)) =
      message :: others ∧ message.data.length + 1 ≤ buffers.data.length + text.length := by
  induction hlength : text.length using Nat.strongRecOn generalizing text buffers with
  | _ n ih =>
    subst hlength
    have hone (line : List Char) (hsub : ∀ c ∈ line, c ∈ text) (hline : '\n' ∉ line) :
        OneLine line := by
      rintro c hc (rfl | rfl)
      · exact hline hc
      · exact hreturn (hsub _ hc)
    by_cases hbreak : '\n' ∈ text
    · obtain ⟨line, more, htext, hline⟩ := List.eq_append_cons_of_mem hbreak
      subst htext
      have hmore : '\r' ∉ more := fun h =>
        hreturn (List.mem_append_right _ (List.mem_cons_of_mem _ h))
      rw [List.append_assoc, List.cons_append,
        lines_oneLine (hone line (fun c hc => List.mem_append_left _ hc) hline)]
      by_cases hblank : line = []
      · subst hblank
        refine ⟨_, _, messages_dispatch hdata, ?_⟩
        rw [length_dropLast_add_one hdata]
        exact Nat.le_add_right _ _
      · obtain ⟨hlonger, hkept⟩ := length_line_data buffers line
        obtain ⟨message, others, hmessages, hbound⟩ :=
          ih more.length (by simp; omega) hmore (hkept hdata) rfl
        refine ⟨message, others, ?_, ?_⟩
        · rw [messages_line hblank]
          exact hmessages
        · simp only [List.length_append, List.length_cons]
          omega
    · rw [lines_oneLine (hone text (fun _ hc => hc) hbreak), lines_newline]
      by_cases hblank : text = []
      · subst hblank
        refine ⟨_, _, messages_dispatch hdata, ?_⟩
        rw [length_dropLast_add_one hdata]
        exact Nat.le_add_right _ _
      · obtain ⟨hlonger, hkept⟩ := length_line_data buffers text
        refine ⟨_, _, (messages_line hblank).trans (messages_dispatch (hkept hdata)), ?_⟩
        rw [length_dropLast_add_one (hkept hdata)]
        exact hlonger

/-- A break that no line has never gets into the data. -/
theorem line_data_notMem {c : Char} (hc : c ≠ '\n') (hbuffers : c ∉ buffers.data)
    (htext : c ∉ text) : c ∉ (buffers.line text).data := by
  have hvalue : c ∉ (fieldOf text).2 := fun h => htext ((value_suffix text).mem h)
  unfold Buffers.line
  split
  · exact hbuffers
  · unfold Buffers.field
    split
    · simp [hbuffers, hvalue, hc]
    · split
      · exact hbuffers
      · split
        · exact hbuffers
        · exact hbuffers

/-- Data never contains a carriage return. -/
theorem return_notMem_data {message : Message} (hbuffers : '\r' ∉ buffers.data)
    (hlines : ∀ line ∈ others, OneLine line) (h : message ∈ messages buffers others) :
    '\r' ∉ message.data := by
  induction others generalizing buffers with
  | nil => cases h
  | cons line others ih =>
      have hline : '\r' ∉ line := fun hmem => hlines line List.mem_cons_self _ hmem (.inr rfl)
      have hrest : ∀ line ∈ others, OneLine line := fun other hother =>
        hlines other (List.mem_cons_of_mem _ hother)
      rw [messages] at h
      split at h
      · rcases List.mem_append.mp h with hnow | hlater
        · unfold Buffers.message at hnow
          split at hnow
          · cases hnow
          · cases List.mem_singleton.mp hnow
            exact fun hmem => hbuffers (List.dropLast_subset _ hmem)
        · exact ih List.not_mem_nil hrest hlater
      · exact ih (line_data_notMem (by decide) hbuffers hline) hrest h

end Buffers

section Frames
variable {buffers : Buffers} {id data rest : List Char}

/-- A message as its sender writes it. -/
def frame (id data : List Char) : List Char :=
  ['i', 'd', ':', ' '] ++ id ++ '\n' :: (['d', 'a', 't', 'a', ':', ' '] ++ data ++ ['\n', '\n'])

/-- An identifier that a receiver takes over. -/
def ValidId (id : List Char) : Prop := OneLine id ∧ '\x00' ∉ id

/-- The identifier line of a frame is read as such. -/
theorem messages_id (hid : ValidId id) :
    messages buffers (lines false (['i', 'd', ':', ' '] ++ id ++ '\n' :: rest)) =
      messages { buffers with lastEventId := id } (lines false rest) := by
  have hline : OneLine (['i', 'd', ':', ' '] ++ id) := by
    intro c hc
    rcases List.mem_append.mp hc with hname | hvalue
    · exact (by decide : OneLine ['i', 'd', ':', ' ']) c hname
    · exact hid.1 c hvalue
  have hname : ':' ∉ ['i', 'd'] := by decide
  have hfield : fieldOf (['i', 'd', ':', ' '] ++ id) = (['i', 'd'], id) := fieldOf_blank hname
  rw [lines_oneLine hline, messages_line (by simp), Buffers.line, hfield,
    if_neg (by simp), Buffers.field, if_neg (by simp), if_neg (by simp),
    if_pos ⟨rfl, hid.2⟩]

/-- The first line of the data of a frame. -/
theorem messages_data (hdata : OneLine data) :
    messages buffers (lines false (['d', 'a', 't', 'a', ':', ' '] ++ data ++ '\n' :: rest)) =
      messages { buffers with data := buffers.data ++ data ++ ['\n'] } (lines false rest) := by
  have hline : OneLine (['d', 'a', 't', 'a', ':', ' '] ++ data) := by
    intro c hc
    rcases List.mem_append.mp hc with hname | hvalue
    · exact (by decide : OneLine ['d', 'a', 't', 'a', ':', ' ']) c hname
    · exact hdata c hvalue
  have hname : ':' ∉ ['d', 'a', 't', 'a'] := by decide
  have hfield : fieldOf (['d', 'a', 't', 'a', ':', ' '] ++ data) = (['d', 'a', 't', 'a'], data) :=
    fieldOf_blank hname
  rw [lines_oneLine hline, messages_line (by simp), Buffers.line, hfield,
    if_neg (by simp), Buffers.field, if_pos rfl]

/-- Data on one line is read back. -/
theorem messages_dataFrame (hempty : buffers.data = []) (hdata : OneLine data)
    (rest : List Char) :
    messages buffers
        (lines false (['d', 'a', 't', 'a', ':', ' '] ++ data ++ ['\n', '\n'] ++ rest)) =
      ⟨buffers.lastEventId, buffers.eventType, data⟩ ::
        messages buffers.reset (lines false rest) := by
  have hshape : ['d', 'a', 't', 'a', ':', ' '] ++ data ++ ['\n', '\n'] ++ rest =
      ['d', 'a', 't', 'a', ':', ' '] ++ data ++ '\n' :: ('\n' :: rest) := by simp
  rw [hshape, messages_data hdata, lines_newline, messages_dispatch (by simp), hempty,
    List.nil_append, List.dropLast_concat]
  rfl

theorem messages_frame (hempty : buffers.data = []) (hid : ValidId id) (hdata : OneLine data) :
    messages buffers (lines false (frame id data ++ rest)) =
      ⟨id, buffers.eventType, data⟩ ::
        messages { buffers.reset with lastEventId := id } (lines false rest) := by
  have hshape : frame id data ++ rest = ['i', 'd', ':', ' '] ++ id ++ '\n' ::
      (['d', 'a', 't', 'a', ':', ' '] ++ data ++ ['\n', '\n'] ++ rest) := by simp [frame]
  rw [hshape, messages_id hid]
  have hfresh : ({ buffers with lastEventId := id } : Buffers).data = [] := hempty
  exact messages_dataFrame hfresh hdata rest

/-- Data with a break is not what a receiver reads. -/
theorem data_of_frame (hempty : buffers.data = []) (hid : ValidId id) {message : Message}
    {others : List Message}
    (h : messages buffers (lines false (frame id data ++ rest)) = message :: others)
    (hsame : message.data = data) : OneLine data := by
  have hshape : frame id data ++ rest = ['i', 'd', ':', ' '] ++ id ++ '\n' ::
      (['d', 'a', 't', 'a', ':', ' '] ++ data ++ '\n' :: ('\n' :: rest)) := by simp [frame]
  have hreturn : '\r' ∉ data := by
    rw [← hsame]
    exact return_notMem_data (hempty ▸ List.not_mem_nil)
      (fun line hline => oneLine_of_mem_lines hline) (h ▸ List.mem_cons_self)
  rintro c hc (rfl | rfl)
  · obtain ⟨line, more, hdata, hline⟩ := List.eq_append_cons_of_mem hc
    have hone : OneLine line := by
      rintro d hd (rfl | rfl)
      · exact hline hd
      · exact hreturn (hdata ▸ List.mem_append_left _ hd)
    have hmore : '\r' ∉ more := fun hmem =>
      hreturn (hdata ▸ List.mem_append_right _ (List.mem_cons_of_mem _ hmem))
    have hsplit : ['d', 'a', 't', 'a', ':', ' '] ++ data ++ '\n' :: ('\n' :: rest) =
        ['d', 'a', 't', 'a', ':', ' '] ++ line ++ '\n' :: (more ++ '\n' :: '\n' :: rest) := by
      rw [hdata]
      simp
    have hfilled : (⟨id, buffers.eventType, buffers.data ++ line ++ ['\n']⟩ : Buffers).data ≠ [] :=
      by simp
    obtain ⟨first, later, hfirst, hbound⟩ := message_of_text hmore hfilled rest
    rw [hshape, messages_id hid, hsplit, messages_data hone, hfirst] at h
    obtain ⟨rfl, -⟩ := List.cons.inj h
    have hlength := congrArg List.length (hsame.trans hdata)
    simp only [hempty, List.nil_append, List.length_append, List.length_cons,
      List.length_nil] at hbound hlength
    omega
  · exact hreturn hc

/-- A comment between frames is not seen. -/
theorem messages_comment {text : List Char} (hempty : buffers.data = []) (htext : OneLine text) :
    messages buffers (lines false (':' :: text ++ ['\n', '\n'] ++ rest)) =
      messages buffers.reset (lines false rest) := by
  have hline : OneLine (':' :: text) := by
    intro c hc
    rcases List.mem_cons.mp hc with rfl | hvalue
    · decide
    · exact htext c hvalue
  have hshape : ':' :: text ++ ['\n', '\n'] ++ rest =
      ':' :: text ++ '\n' :: ('\n' :: rest) := by simp
  rw [hshape, lines_oneLine hline, messages_line (by simp), Buffers.line, if_pos List.head?_cons,
    lines_newline, messages_blank, Buffers.message, if_pos hempty, List.nil_append]

end Frames

end EventStream
