/-
A handler cuts a reading off and changes nothing before that.

What there is to be heard of a text, and how the reading of it ends, does
not depend on who listens (`heard`, `verdict`). A handler is told of the
events in their order. Either it takes all of them, and then the reading
ends as it does for anybody, or it refuses one, which is the last that it is
told of. Then its refusal is the fault of the reading, with the number of
the line and what was left of the line when the event came up
(`readLines_hears`).

`read_cut` compares a handler with one that takes everything, and adds that
no handler is ever told anything but the beginning of a word of the language
of event streams.
-/
import TaskTree.Proofs.Outline.LineEndings
import TaskTree.Proofs.Outline.Unread

namespace TaskTree.Outline

variable {σ ε : Type}

/-- A handler that takes everything, and keeps nothing. -/
def Handler.indifferent (ε : Type) : Handler Unit ε :=
  accepting fun _ state => state

-- ============================================================= the verdict

/-- How a reading ends for someone who takes everything: with the fault of the
first line that cannot be read to its end. -/
def verdict (ε : Type) (number : Nat) : List (List Char) → Option (ReadFault ε)
  | [] => none
  | line :: lines =>
    match (readLine line).stop with
    | .error (cause, rest) => some (.malformed number (near rest) cause)
    | .ok _ => verdict ε (number + 1) lines

/-- How a handler fares with the events of some lines. -/
inductive Hears (comments : Bool) (handler : Handler σ ε) (number : Nat)
    (lines : List (List Char)) (state : σ) :
    List Event → σ × Option (ReadFault ε) → Prop where
  /-- It takes all that there is to be heard. -/
  | all {last : σ}
      (taken : listen handler (heard comments lines) state = (last, none)) :
      Hears comments handler number lines state (heard comments lines)
        (last, verdict ε number lines)
  /-- It refuses an event of a line. -/
  | refusal {earlier later : List (List Char)} {line : List Char}
      {before : List Event} {event : Event} {rest : List Char}
      {reached last : σ} {cause : ε} (split : lines = earlier ++ line :: later)
      (begins : earlier.flatMap (lineEvents comments) ++ (before ++ [event])
        <+: heard comments lines)
      (inside : before ++ [event] <+: lineEvents comments line)
      (taken : listen handler
        (earlier.flatMap (lineEvents comments) ++ before) state
        = (reached, none))
      (refused : handler event reached = (last, some cause))
      (unread : Unread none line (before ++ [event]) rest) :
      Hears comments handler number lines state
        (earlier.flatMap (lineEvents comments) ++ (before ++ [event]))
        (last, some (.refused (number + earlier.length) (near rest) cause))

variable {handler : Handler σ ε} {comments : Bool}

/-- The events of a line are taken, or the first of them that is refused ends
the line. By induction along the marks, with the state general: the first
refused one decides. -/
theorem offer_cases (handler : Handler σ ε) (number : Nat) (marks : List Mark)
    (state : σ) :
    (∃ last, listen handler (marks.map (·.1)) state = (last, none)
        ∧ offer handler number marks state = (last, none))
      ∨ ∃ before event rest after reached last cause,
        marks = before ++ (event, rest) :: after
        ∧ listen handler (before.map (·.1)) state = (reached, none)
        ∧ handler event reached = (last, some cause)
        ∧ offer handler number marks state
          = (last, some (.refused number (near rest) cause)) := by
  induction marks generalizing state with
  | nil => exact .inl ⟨state, rfl, rfl⟩
  | cons mark marks ih =>
      obtain ⟨event, rest⟩ := mark
      rw [offer, List.map_cons]
      rcases hevent : handler event state with ⟨next, _ | cause⟩
      · rw [listen_cons_of_taken hevent]
        rcases ih next with htaken |
          ⟨before, event', rest', after, reached, last, cause, hmarks, htaken,
            hrefused, hoffer⟩
        · exact .inl htaken
        · refine .inr ⟨(event, rest) :: before, event', rest', after, reached,
            last, cause, ?_, ?_, hrefused, hoffer⟩
          · rw [hmarks, List.cons_append]
          · rw [List.map_cons, listen_cons_of_taken hevent]
            exact htaken
      · exact .inr ⟨[], event, rest, marks, state, next, cause, rfl, rfl,
          hevent, rfl⟩

/-- Nothing more is heard after a line that cannot be read to its end. -/
theorem heard_of_error {line : List Char} {fault : SyntaxFault × List Char}
    (h : (readLine line).stop = .error fault) (lines : List (List Char)) :
    heard comments (line :: lines) = lineEvents comments line := by
  rw [heard, h]
  exact List.append_nil _

/-- A line that can be read is heard, and then the lines after it. -/
theorem heard_of_ok {line rest : List Char}
    (h : (readLine line).stop = .ok rest) (lines : List (List Char)) :
    heard comments (line :: lines)
      = lineEvents comments line ++ heard comments lines := by
  rw [heard, h]

/-- A line that was read to its end puts off how the handler fares. The lines
after it were heard to their end, or one of them was refused; the numbers move
by one. -/
theorem Hears.cons {number : Nat} {line rest : List Char}
    {lines : List (List Char)} {state next : σ} {es : List Event}
    {result : σ × Option (ReadFault ε)}
    (hstop : (readLine line).stop = .ok rest)
    (htaken : listen handler (lineEvents comments line) state = (next, none))
    (h : Hears comments handler (number + 1) lines next es result) :
    Hears comments handler number (line :: lines) state
      (lineEvents comments line ++ es) result := by
  cases h with
  | all taken =>
      have hverdict : verdict ε number (line :: lines)
          = verdict ε (number + 1) lines := by
        rw [verdict, hstop]
      rw [← heard_of_ok hstop, ← hverdict]
      refine .all ?_
      rw [heard_of_ok hstop]
      exact listen_append_eq_none_iff.2 ⟨next, htaken, taken⟩
  | refusal split begins inside taken refused unread =>
      rename_i earlier later cut before event rest reached last cause
      have hnumber : number + 1 + earlier.length
          = number + (line :: earlier).length := by
        rw [List.length_cons, Nat.add_right_comm, Nat.add_assoc]
      rw [hnumber, ← List.append_assoc, ← List.flatMap_cons]
      refine .refusal (congrArg _ split) ?_ inside ?_ refused unread
      · rw [heard_of_ok hstop, List.flatMap_cons, List.append_assoc]
        exact (List.prefix_append_right_inj _).2 begins
      · rw [List.flatMap_cons, List.append_assoc]
        exact listen_append_eq_none_iff.2 ⟨next, htaken, taken⟩

/-- The reader is one that is heard. By induction along the lines. A line is
offered first, and its fault comes only when all its events are taken. -/
theorem readLines_hears (handler : Handler σ ε) (comments : Bool) (number : Nat)
    (lines : List (List Char)) (state : σ) :
    ∃ told, Hears comments handler number lines state told
      (readLines comments handler number lines state) := by
  induction lines generalizing number state with
  | nil => exact ⟨_, .all rfl⟩
  | cons line lines ih =>
      rw [readLines]
      rcases offer_cases handler number
        ((readLine line).offered comments) state with
          ⟨next, htaken, hoffer⟩ | ⟨before, event, rest, after, reached, last,
            cause, hmarks, htaken, hrefused, hoffer⟩
      · rw [hoffer]
        dsimp only
        split
        · rename_i cause rest hstop
          have hverdict : verdict ε number (line :: lines)
              = some (.malformed number (near rest) cause) := by
            rw [verdict, hstop]
          rw [← hverdict]
          exact ⟨_, .all ((heard_of_error hstop lines).symm ▸ htaken)⟩
        · rename_i rest hstop
          obtain ⟨told, htold⟩ := ih (number + 1) next
          exact ⟨_, htold.cons hstop htaken⟩
      -- An event of this line is refused, and the marks know what was left of
      -- it.
      · rw [hoffer]
        have hevents : lineEvents comments line
            = before.map (·.1) ++ [event] ++ after.map (·.1) := by
          rw [lineEvents, hmarks, List.map_append, List.map_cons,
            List.append_cons]
        have hsplit : line :: lines = [] ++ line :: lines := rfl
        refine ⟨_,
          .refusal hsplit ?_ (hevents ▸ List.prefix_append _ _) htaken hrefused
          (readLine_accurate comments line before event rest after hmarks)⟩
        rw [heard, hevents, List.flatMap_nil, List.nil_append,
          List.append_assoc]
        exact List.prefix_append _ _

/-- What a handler is told of is a beginning of what there is to be heard. -/
theorem Hears.begins {number : Nat} {lines : List (List Char)} {state : σ}
    {es : List Event} {result : σ × Option (ReadFault ε)}
    (h : Hears comments handler number lines state es result) :
    es <+: heard comments lines := by
  cases h with
  | all => exact List.prefix_refl _
  | refusal _ begins => exact begins

-- =========================================================== taking notes

/-- Noting the events changes nothing else of an offer. -/
theorem offer_noting (handler : Handler σ ε) (number : Nat) (marks : List Mark)
    (state : σ) (log : List Event) :
    offer handler number marks state
      = ((offer handler.noting number marks (state, log)).1.1,
      (offer handler.noting number marks (state, log)).2) := by
  induction marks generalizing state log with
  | nil => rfl
  | cons mark marks ih =>
      obtain ⟨event, rest⟩ := mark
      rw [offer, offer, Handler.noting]
      rcases handler event state with ⟨next, _ | cause⟩
      · exact ih next (log ++ [event])
      · rfl

/-- Taking notes changes nothing. -/
theorem readLines_noting (handler : Handler σ ε) (comments : Bool)
    (number : Nat) (lines : List (List Char)) (state : σ) (log : List Event) :
    readLines comments handler number lines state
      = ((readLines comments handler.noting number lines (state, log)).1.1,
        (readLines comments handler.noting number lines (state, log)).2) := by
  induction lines generalizing number state log with
  | nil => rfl
  | cons line lines ih =>
      rw [readLines, readLines]
      rw [offer_noting handler number _ state log]
      rcases offer handler.noting number
        ((readLine line).offered comments) (state, log) with
        ⟨⟨next, log'⟩, _ | fault⟩
      · dsimp only
        split
        · rfl
        · exact ih (number + 1) next log'
      · rfl

/-- The notes of events that were taken are these events. -/
theorem listen_noting {es : List Event} {state : σ} {log : List Event}
    {last : σ × List Event}
    (h : listen handler.noting es (state, log) = (last, none)) :
    listen handler es state = (last.1, none) ∧ last.2 = log ++ es := by
  induction es generalizing state log with
  | nil =>
      cases h
      exact ⟨rfl, (List.append_nil _).symm⟩
  | cons event es ih =>
      rw [listen, Handler.noting] at h
      rcases hevent : handler event state with ⟨next, _ | cause⟩
      · rw [hevent] at h
        obtain ⟨htaken, hlog⟩ := ih h
        rw [listen_cons_of_taken hevent]
        exact ⟨htaken, by rw [hlog, List.append_assoc, List.singleton_append]⟩
      · rw [hevent] at h
        cases h

/-- What a handler has noted down is how it fares without the notes. -/
theorem Hears.of_noting {number : Nat} {lines : List (List Char)} {state : σ}
    {es : List Event} {result : (σ × List Event) × Option (ReadFault ε)}
    (h : Hears comments handler.noting number lines (state, []) es result) :
    result.1.2 = es ∧ Hears comments handler number lines state es
      (result.1.1, result.2) := by
  -- The note of what was told is the events themselves.
  cases h with
  | all taken =>
      obtain ⟨htaken, hlog⟩ := listen_noting taken
      exact ⟨hlog, .all htaken⟩
  | refusal split begins inside taken refused unread =>
      rename_i earlier later line before event rest reached last cause
      obtain ⟨htaken, hlog⟩ := listen_noting taken
      rw [Handler.noting, Prod.mk.injEq] at refused
      obtain ⟨hlast, hrefused⟩ := refused
      have hevent : handler event reached.1 = (last.1, some cause) := by
        rw [← hrefused, ← hlast]
      refine ⟨?_, .refusal split begins inside htaken hevent unread⟩
      rw [← hlast]
      dsimp only
      rw [hlog, List.nil_append, List.append_assoc]

/-- A handler is told what the reader says. -/
theorem read_hears (comments : Bool) (handler : Handler σ ε) (text : String)
    (state : σ) :
    Hears comments handler 1 (splitLines text.toList) state
      (delivered comments handler text state)
      (read comments handler text state) := by
  obtain ⟨told, htold⟩ :=
    readLines_hears handler.noting comments 1
      (splitLines text.toList) (state, [])
  obtain ⟨hnotes, hhears⟩ := htold.of_noting
  rw [delivered, read, read, hnotes,
    readLines_noting handler comments 1 _ state []]
  exact hhears

/-- Someone who takes everything is told of all there is, and comes to the
verdict. -/
theorem read_indifferent (ε : Type) (comments : Bool) (text : String) :
    delivered comments (Handler.indifferent ε) text ()
      = heard comments (splitLines text.toList)
      ∧ (read comments (Handler.indifferent ε) text ()).2
        = verdict ε 1 (splitLines text.toList) := by
  have hhears := read_hears comments (Handler.indifferent ε) text ()
  generalize delivered comments (Handler.indifferent ε) text () = es at hhears ⊢
  generalize read comments (Handler.indifferent ε) text () = result at hhears ⊢
  cases hhears with
  | all => exact ⟨rfl, rfl⟩
  | refusal _ _ _ _ refused => cases refused

-- ============================================================= the cut

/-- A handler, whatever it is like, is told of a beginning of what one that
takes everything is told of. If it takes all of that, the reading ends as it
does for the other one. If it refuses an event, that is the last one it is told
of, and the reading ends with its refusal, the number of the line, and what is
unread of the line: the one text that the pieces of its events up to this one
leave, up to the carriage returns at its end. In any case the events begin a
word of the language of event streams. -/
theorem read_cut (comments : Bool) (handler : Handler σ ε) (text : String)
    (state : σ) :
    delivered comments handler text state
        <+: delivered comments (Handler.indifferent ε) text ()
      ∧ ((∃ last, delivered comments handler text state
            = delivered comments (Handler.indifferent ε) text ()
          ∧ listen handler (delivered comments handler text state) state
            = (last, none)
          ∧ read comments handler text state
            = (last, (read comments (Handler.indifferent ε) text ()).2))
        ∨ ∃ earlier line later before event rest shown reached last cause,
          splitLines text.toList = earlier ++ line :: later
            ∧ before ++ [event] <+: lineEvents comments line
            ∧ delivered comments handler text state
              = earlier.flatMap (lineEvents comments) ++ (before ++ [event])
            ∧ listen handler
              (earlier.flatMap (lineEvents comments) ++ before) state
              = (reached, none)
            ∧ handler event reached = (last, some cause)
            ∧ (∀ rest', Unread none line (before ++ [event]) rest'
              ↔ rest' = rest)
            ∧ (∃ returns, rest = shown.toList ++ returns
              ∧ (∀ c ∈ returns, c = '\r')
              ∧ shown.toList.getLast? ≠ some '\r')
            ∧ read comments handler text state
              = (last, some (.refused (earlier.length + 1) shown cause)))
      ∧ ∃ word ∈ Words.text,
        delivered comments handler text state <+: word := by
  obtain ⟨hall, hverdict⟩ := read_indifferent ε comments text
  have hhears := read_hears comments handler text state
  obtain ⟨word, hword, hbegins⟩ :=
    heard_stream comments (splitLines text.toList)
  -- A handler that refuses nothing is told everything.
  rw [hall, hverdict]
  refine ⟨hhears.begins, ?_, word, hword, hhears.begins.trans hbegins⟩
  generalize delivered comments handler text state = es at hhears ⊢
  generalize read comments handler text state = result at hhears ⊢
  -- It took all of it, or refused an event; then what is left behind the event
  -- is one text only.
  cases hhears with
  | all taken => exact .inl ⟨_, rfl, taken, rfl⟩
  | @refusal earlier later line before event rest reached last cause split _
        inside taken
      refused unread =>
      have hrest : ∀ rest', Unread none line (before ++ [event]) rest'
          ↔ rest' = rest :=
        fun rest' => ⟨fun h => h.unique unread, fun h => h ▸ unread⟩
      exact .inr ⟨earlier, line, later, before, event, rest, near rest, reached,
        last, cause,
        split, inside, rfl, taken, refused, hrest, near_shows rest, by
          rw [Nat.add_comm 1]⟩

end TaskTree.Outline
