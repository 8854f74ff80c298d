/-
What a listener of a whole text gets to hear.

A reading that comes to its end has offered the events of all lines one
after another, and the handler has refused none of them: that the text is
`Legible` and that the handler puts up with its `events` are two separate
matters. What handlers have in common is stated here for `listen`, which
knows of no lines.
-/
import TaskTree.Outline.Reading

namespace TaskTree.Outline

variable {σ ε : Type} {handler : Handler σ ε}

/-- Offers events to a handler, up to its first refusal. -/
def listen (handler : Handler σ ε) : List Event → σ → σ × Option ε
  | [], state => (state, none)
  | event :: events, state =>
    match handler event state with
    | (state, some cause) => (state, some cause)
    | (state, none) => listen handler events state

/-- Every line of a text can be read to its end. -/
def Legible (text : String) : Prop :=
  ∀ line ∈ splitLines text.toList, ∃ rest, (readLine line).stop = .ok rest

/-- The events of a reading. -/
def Reading.events (reading : Reading) : List Event := reading.marks.map (·.1)

/-- Whether a listener with or without an interest in comments is told of an
event. -/
def told (comments : Bool) (event : Event) : Bool :=
  comments || !event.isComment

/-- The events of a line, with or without its comment. -/
def lineEvents (comments : Bool) (line : List Char) : List Event :=
  ((readLine line).offered comments).map (·.1)

/-- The events of a text. -/
def events (comments : Bool) (text : String) : List Event :=
  (splitLines text.toList).flatMap (lineEvents comments)

/-- Offered are the events that are told. -/
theorem Reading.offered_eq_filter (reading : Reading) (comments : Bool) :
    reading.offered comments = reading.marks.filter fun mark =>
      told comments mark.1 := by
  unfold Reading.offered
  cases comments with
  | false => rfl
  | true => exact (List.filter_eq_self.2 fun _ _ => rfl).symm

/-- The events of a line are those its reading tells. -/
theorem lineEvents_eq_filter (comments : Bool) (line : List Char) :
    lineEvents comments line
      = (readLine line).events.filter (told comments) := by
  unfold lineEvents Reading.events
  rw [Reading.offered_eq_filter, List.filter_map]
  rfl

/-- And the events of a text are those of its lines. -/
theorem events_eq_filter (comments : Bool) (text : String) :
    events comments text
      = ((splitLines text.toList).map fun line =>
        (readLine line).events).flatten.filter
        (told comments) := by
  rw [List.filter_flatten, List.map_map, ← List.flatMap_def]
  unfold events
  congr 1
  funext line
  exact lineEvents_eq_filter comments line

/-- What is left without the comments does not depend on whether they were
told. -/
theorem events_filter (comments : Bool) (text : String) :
    (events comments text).filter (fun event => !event.isComment)
      = events false text := by
  rw [events_eq_filter, events_eq_filter, List.filter_filter]
  congr 1
  funext event
  cases hcomment : event.isComment <;> simp [told, hcomment]

/-- An event that is taken hands its state on. -/
theorem listen_cons_of_taken {event : Event} {rest : List Event} {s s₁ : σ}
    (h : handler event s = (s₁, none)) :
    listen handler (event :: rest) s = listen handler rest s₁ := by
  rw [listen, h]

/-- Nothing comes after an event that is refused. -/
theorem listen_cons_of_refused {event : Event} {rest : List Event} {s s₁ : σ}
    {cause : ε} (h : handler event s = (s₁, some cause)) :
    listen handler (event :: rest) s = (s₁, some cause) := by
  rw [listen, h]

/-- To listen to two stretches is to listen to one after the other. -/
theorem listen_append_eq_none_iff {before after : List Event} {s s' : σ} :
    listen handler (before ++ after) s = (s', none) ↔
      ∃ s₁, listen handler before s = (s₁, none)
        ∧ listen handler after s₁ = (s', none) := by
  induction before generalizing s with
  | nil =>
      constructor
      · intro h
        exact ⟨s, rfl, h⟩
      · intro h
        obtain ⟨s₁, hs₁, h⟩ := h
        cases hs₁
        exact h
  | cons event before ih =>
      rw [List.cons_append]
      rcases hevent : handler event s with ⟨s₁, _ | cause⟩
      · rw [listen_cons_of_taken hevent, listen_cons_of_taken hevent]
        exact ih
      · rw [listen_cons_of_refused hevent, listen_cons_of_refused hevent]
        constructor
        · intro h
          cases h
        · intro h
          obtain ⟨s₂, hs₂, -⟩ := h
          cases hs₂

/-- To be offered the marks without a refusal is to listen to the events. -/
theorem offer_eq_none_iff {number : Nat} {marks : List Mark} {s s' : σ} :
    offer handler number marks s = (s', none) ↔
      listen handler (marks.map (·.1)) s = (s', none) := by
  induction marks generalizing s with
  | nil =>
      rw [offer, List.map_nil, listen]
      constructor <;> (intro h; cases h; rfl)
  | cons mark marks ih =>
      obtain ⟨event, rest⟩ := mark
      rw [offer, List.map_cons]
      rcases hevent : handler event s with ⟨s₁, _ | cause⟩
      · rw [listen_cons_of_taken hevent]
        exact ih
      · rw [listen_cons_of_refused hevent]
        constructor <;> (intro h; cases h)

/-- All lines are taken when all can be read and the handler refuses none of
their events. By induction over the lines, with the state of the handler
general, since it has heard the lines before. -/
theorem readLines_eq_none_iff {comments : Bool} {number : Nat}
    {lines : List (List Char)} {s s' : σ} :
    readLines comments handler number lines s = (s', none) ↔
      (∀ line ∈ lines, ∃ rest, (readLine line).stop = .ok rest)
        ∧ listen handler (lines.flatMap (lineEvents comments)) s
          = (s', none) := by
  induction lines generalizing number s with
  | nil =>
      rw [readLines, List.flatMap_nil, listen]
      constructor
      · intro h
        cases h
        exact ⟨fun line hline => absurd hline List.not_mem_nil, rfl⟩
      · intro h
        obtain ⟨-, h⟩ := h
        cases h
        rfl
  | cons line lines ih =>
      rw [readLines, List.flatMap_cons, List.forall_mem_cons,
        listen_append_eq_none_iff]
      rcases hoffer : offer handler number
        ((readLine line).offered comments) s with
          ⟨s₁, _ | fault⟩
      · have hline : listen handler (lineEvents comments line) s = (s₁, none) :=
          offer_eq_none_iff.1 hoffer
        -- The line was taken by the handler, and its end says whether it could
        -- be read.
        rcases hstop : (readLine line).stop with ⟨cause, rest⟩ | rest
        · dsimp only
          constructor
          · intro h
            cases h
          · intro h
            obtain ⟨⟨⟨rest', hrest'⟩, -⟩, -⟩ := h
            cases hrest'
        · dsimp only
          rw [ih]
          constructor
          · intro h
            obtain ⟨hlines, h⟩ := h
            exact ⟨⟨⟨rest, rfl⟩, hlines⟩, s₁, hline, h⟩
          · intro h
            obtain ⟨⟨-, hlines⟩, s₂, hs₂, h⟩ := h
            rw [hline] at hs₂
            cases hs₂
            exact ⟨hlines, h⟩
      · dsimp only
        constructor
        · intro h
          cases h
        · intro h
          obtain ⟨-, s₂, hs₂, -⟩ := h
          rw [offer_eq_none_iff.2 hs₂] at hoffer
          cases hoffer

/-- A reading comes to its end exactly if the text is legible and the
handler takes all its events. -/
theorem read_eq_none_iff {comments : Bool} {text : String} {s s' : σ} :
    read comments handler text s = (s', none) ↔
      Legible text ∧ listen handler (events comments text) s = (s', none) :=
  readLines_eq_none_iff

end TaskTree.Outline
