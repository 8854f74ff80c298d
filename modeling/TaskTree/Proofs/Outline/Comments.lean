/-
Comments have no say.

A reader that does not report comments reads like one that does, to a handler
that passes them over itself (`read_heeding`). So two readings of a text can be
laid side by side, event by event. Where their states are in a relation that
every event keeps, they stop at the same event with the same fault, or go on
together (`read_abreast`). A handler that overlooks comments is then told the
same by either reader, up to the comments, and a text describes the same tree
under all settings.

What a comment says matters as little as who is told of it: a line without its
comment is a line of the same statements (`readLine_shortened`).
-/
import TaskTree.Proofs.Contract
import TaskTree.Proofs.Outline.Collected
import TaskTree.Proofs.Outline.Refusal

namespace TaskTree.Outline

variable {σ τ ε : Type}

/-- The events that are no comments. -/
def plain (es : List Event) : List Event :=
  es.filter fun event => !event.isComment

/-- From a state on, a handler takes comments, and they change nothing about
what it says to other events. -/
def Handler.Overlooks (handler : Handler σ ε) (state : σ) : Prop :=
  ∀ es, (listen handler es state).2 = (listen handler (plain es) state).2

/-- The plain ones of some events in two parts. -/
theorem plain_append (es fs : List Event) :
    plain (es ++ fs) = plain es ++ plain fs :=
  List.filter_append es fs

/-- A comment is not plain. -/
theorem plain_of_comment {event : Event} (h : event.isComment = true) :
    plain [event] = [] := by
  refine List.filter_cons_of_neg ?_
  rw [h]
  exact Bool.false_ne_true

/-- Anything else is. -/
theorem plain_of_not_comment {event : Event} (h : event.isComment = false) :
    plain [event] = [event] := by
  refine List.filter_cons_of_pos ?_
  rw [h]
  rfl

-- ============================================================= passing over

/-- A handler that passes comments over unless it cares for them. -/
def Handler.heeding (handler : Handler σ ε) (comments : Bool) : Handler σ ε :=
  fun event state =>
    if told comments event then handler event state else (state, none)

/-- A handler that is not to be told of comments is not told of them. -/
theorem heeding_comment {handler : Handler σ ε} {event : Event} {state : σ}
    (h : event.isComment = true) :
    handler.heeding false event state = (state, none) := by
  rw [Handler.heeding, told, h]
  rfl

/-- Other events are told to everybody. -/
theorem heeding_not_comment {handler : Handler σ ε} {comments : Bool}
    {event : Event} (h : event.isComment = false) :
    handler.heeding comments event = handler event := by
  have htold : told comments event = true := by
    rw [told, h]
    exact Bool.or_true comments
  funext state
  rw [Handler.heeding, if_pos htold]

/-- Comments may be kept back before they are offered or when they are. -/
theorem offer_heeding (handler : Handler σ ε) (comments : Bool) (number : Nat)
    (marks : List Mark) (state : σ) :
    offer handler number (marks.filter fun mark => told comments mark.1) state
      = offer (handler.heeding comments) number marks state := by
  induction marks generalizing state with
  | nil => rfl
  | cons mark marks ih =>
      obtain ⟨event, rest⟩ := mark
      rw [List.filter_cons, offer, Handler.heeding]
      dsimp only
      split
      · rw [offer]
        rcases handler event state with ⟨next, _ | cause⟩
        · exact ih next
        · rfl
      · exact ih state

/-- So a handler that is not told of comments is one that does not heed them,
and both read all events. -/
theorem read_heeding (handler : Handler σ ε) (comments : Bool) (text : String)
    (state : σ) :
    read comments handler text state
      = read true (handler.heeding comments) text state := by
  rw [read, read]
  generalize splitLines text.toList = lines, 1 = number
  induction lines generalizing number state with
  | nil => rfl
  | cons line lines ih =>
      rw [readLines, readLines, Reading.offered_eq_filter, offer_heeding,
        Reading.offered, if_pos rfl]
      simp only [ih]

-- ============================================================= side by side

/-- Two readings that go on together, or have stopped at the same fault. -/
inductive Abreast {α : Type} (R Q : σ → τ → Prop) :
    σ × Option α → τ × Option α → Prop where
  | going {s : σ} {t : τ} (h : R s t) : Abreast R Q (s, none) (t, none)
  | stopped {s : σ} {t : τ} {fault : α} (h : Q s t) :
      Abreast R Q (s, some fault) (t, some fault)

section

variable {left : Handler σ ε} {right : Handler τ ε} {R Q : σ → τ → Prop}

/-- Handlers that go abreast refuse for the same cause, or do not refuse. -/
theorem Abreast.fault {α : Type} {x : σ × Option α} {y : τ × Option α}
    (h : Abreast R Q x y) :
    x.2 = y.2 := by
  cases h <;> rfl

/-- Whether they have gone on or stopped, their states are related. -/
theorem Abreast.state {α : Type} {x : σ × Option α} {y : τ × Option α}
    (h : Abreast R Q x y) (hstop : ∀ s t, R s t → Q s t) : Q x.1 y.1 := by
  cases h with
  | going h => exact hstop _ _ h
  | stopped h => exact h

/-- Handlers that go abreast over every event go abreast over the marks of a
line. -/
theorem offer_abreast
    (hevent : ∀ event s t, R s t → Abreast R Q (left event s) (right event t))
    (number : Nat) (marks : List Mark) {s : σ} {t : τ} (h : R s t) :
    Abreast R Q (offer left number marks s) (offer right number marks t) := by
  induction marks generalizing s t with
  | nil => exact .going h
  | cons mark marks ih =>
      obtain ⟨event, rest⟩ := mark
      have hstep := hevent event s t h
      rw [offer, offer]
      revert hstep
      generalize left event s = x, right event t = y
      intro hstep
      cases hstep with
      | going h => exact ih h
      | stopped h => exact .stopped h

/-- Handlers that every event keeps in a relation read a text abreast. By
induction on the lines. They are the same on both sides, so a fault of the
reading itself stops both. -/
theorem read_abreast
    (hevent : ∀ event s t, R s t → Abreast R Q (left event s) (right event t))
    (hstop : ∀ s t, R s t → Q s t) (text : String) {s : σ} {t : τ} (h : R s t) :
    Abreast R Q (read true left text s) (read true right text t) := by
  rw [read, read]
  generalize splitLines text.toList = lines, 1 = number
  induction lines generalizing number s t with
  | nil => exact .going h
  | cons line lines ih =>
      have hoffer :=
        offer_abreast hevent number ((readLine line).offered true) h
      rw [readLines, readLines]
      revert hoffer
      generalize offer left number ((readLine line).offered true) s = x,
        offer right number ((readLine line).offered true) t = y
      intro hoffer
      cases hoffer with
      | stopped h => exact .stopped h
      | going h =>
          dsimp only
          split
          · exact .stopped (hstop _ _ h)
          · exact ih h (number + 1)

end

-- ================================================================ comments

/-- Events in two parts, if the first ones were taken. -/
theorem listen_append_of_taken {handler : Handler σ ε} {es : List Event}
    {s s' : σ} (h : listen handler es s = (s', none)) (fs : List Event) :
    listen handler (es ++ fs) s = listen handler fs s' := by
  induction es generalizing s with
  | nil =>
      cases h
      rfl
  | cons event es ih =>
      rw [List.cons_append]
      rcases hevent : handler event s with ⟨next, _ | cause⟩
      · rw [listen_cons_of_taken hevent] at h ⊢
        exact ih h
      · rw [listen_cons_of_refused hevent] at h
        cases h

/-- A single event. -/
theorem listen_singleton (handler : Handler σ ε) (event : Event) (s : σ) :
    listen handler [event] s = handler event s := by
  rw [listen]
  rcases handler event s with ⟨next, _ | cause⟩ <;> rfl

/-- What a handler has taken in two readings, with its notes. The second reading
passes over the comments. -/
structure Noted (handler : Handler σ ε) (start : σ)
    (s t : σ × List Event) : Prop where
  whole : listen handler s.2 start = (s.1, none)
  passing : listen handler t.2 start = (t.1, none)
  notes : plain s.2 = t.2

/-- A handler that overlooks comments goes the same way with them and
without. -/
theorem Handler.Overlooks.abreast {handler : Handler σ ε} {start : σ}
    (h : handler.Overlooks start) (event : Event) (s t : σ × List Event)
    (hnoted : Noted handler start s t) :
    Abreast (Noted handler start) (fun s t => plain s.2 = t.2)
      (handler.noting event s) (handler.noting.heeding false event t) := by
  obtain ⟨hwhole, hpassing, hnotes⟩ := hnoted
  -- What the handler says to the next event is what it says to it without the
  -- comments before it: the same events were taken, but for those.
  have hsaid : (handler event s.1).2
      = (listen handler (plain [event]) t.1).2 := by
    rw [← listen_singleton handler event, ← listen_append_of_taken hwhole,
      ← listen_append_of_taken hpassing, h, plain_append, hnotes]
  have htold : ∀ s', handler event s.1 = (s', none) →
      listen handler (s.2 ++ [event]) start = (s', none) := fun s' hs' => by
    rw [listen_append_of_taken hwhole, listen_singleton, hs']
  rcases hevent : handler event s.1 with ⟨s', refusal⟩
  rw [hevent] at hsaid
  rw [Handler.noting, hevent]
  -- A comment is refused by neither: the handler overlooks it, and the other
  -- one never hears of it.
  cases hcomment : event.isComment with
  | true =>
      have hplain := plain_of_comment hcomment
      rw [hplain] at hsaid
      obtain rfl : refusal = none := hsaid
      rw [heeding_comment hcomment]
      refine .going ⟨htold s' hevent, hpassing, ?_⟩
      rw [plain_append, hplain, List.append_nil, hnotes]
  -- Any other event comes to both, and both say the same.
  | false =>
      have hplain := plain_of_not_comment hcomment
      have hlog : plain (s.2 ++ [event]) = t.2 ++ [event] := by
        rw [plain_append, hplain, hnotes]
      rw [hplain, listen_singleton] at hsaid
      rw [heeding_not_comment hcomment, Handler.noting]
      rcases hevent' : handler event t.1 with ⟨t', refusal'⟩
      rw [hevent'] at hsaid
      obtain rfl : refusal = refusal' := hsaid
      cases refusal with
      | some cause => exact .stopped hlog
      | none =>
          refine .going ⟨htold s' hevent, ?_, hlog⟩
          rw [listen_append_of_taken hpassing, listen_singleton, hevent']

/-- A handler that overlooks comments is told the same by a reader that reports
them and by one that does not, up to the comments, and the readings end
alike. -/
theorem Handler.Overlooks.read_eq {handler : Handler σ ε} {start : σ}
    (h : handler.Overlooks start) (text : String) :
    (read true handler text start).2 = (read false handler text start).2
      ∧ plain (delivered true handler text start)
        = delivered false handler text start := by
  have habreast := read_abreast h.abreast (fun _ _ hnoted => hnoted.notes) text
    (s := (start, [])) (t := (start, [])) ⟨rfl, rfl, rfl⟩
  rw [← read_heeding] at habreast
  refine ⟨?_, ?_⟩
  · rw [read, read, readLines_noting handler true _ _ _ [],
      readLines_noting handler false _ _ _ []]
    exact habreast.fault
  · rw [delivered, delivered]
    exact habreast.state (fun _ _ hnoted => hnoted.notes)

-- ================================================================ settings

section

variable {E T : Type} [Behavior E T]

/-- Neither comments nor the log change a scaffold. -/
theorem handler_abreast (vocabulary : Vocabulary T) (shelf : Shelf T)
    (settings settings' : Settings) (comments comments' : Bool) (event : Event)
    (s t : Scaffold T × List Record) (h : s.1 = t.1) :
    Abreast (fun s t : Scaffold T × List Record => s.1 = t.1) (fun _ _ => True)
      ((Dialect.handler { vocabulary, shelf, settings }).heeding
        comments event s)
      ((Dialect.handler { vocabulary, shelf, settings := settings' }).heeding
        comments' event t) := by
  obtain ⟨s, log⟩ := s
  obtain ⟨t, log'⟩ := t
  obtain rfl : s = t := h
  -- Settings have no part in what a scaffold makes of an event.
  have hsettings : s.accept { vocabulary, shelf, settings := settings' } event
      = s.accept { vocabulary, shelf, settings } event := rfl
  -- A comment changes no scaffold. Any other event is accepted by both
  -- scaffolds or by neither.
  cases hcomment : event.isComment with
  | true =>
      have haccept : s.accept { vocabulary, shelf, settings }
          event = .ok s := by
        cases event <;> first | rfl | cases hcomment
      rw [Handler.heeding, Handler.heeding,
        Dialect.handler_of_accept log haccept,
        Dialect.handler_of_accept log' (hsettings.trans haccept)]
      split <;> split <;> exact .going rfl
  | false =>
      rw [heeding_not_comment hcomment, heeding_not_comment hcomment]
      cases haccept : s.accept { vocabulary, shelf, settings } event with
      | error fault =>
          rw [Dialect.handler_of_refuse log haccept,
            Dialect.handler_of_refuse log' (hsettings.trans haccept)]
          exact .stopped trivial
      | ok next =>
          rw [Dialect.handler_of_accept log haccept,
            Dialect.handler_of_accept log' (hsettings.trans haccept)]
          exact .going rfl

/-- A text describes the same tree under all settings, or has the same fault. -/
theorem parse_settings (vocabulary : Vocabulary T) (shelf : Shelf T)
    (settings settings' : Settings) (text : String) :
    (Dialect.parse { vocabulary, shelf, settings } text).2
      = (Dialect.parse
        { vocabulary, shelf, settings := settings' } text).2 := by
  -- The two readings go abreast with related states, where only the logs
  -- differ.
  have habreast := read_abreast
    (handler_abreast vocabulary shelf settings settings'
      settings.reportsComments
      settings'.reportsComments)
    (fun _ _ _ => trivial) text (s := (Scaffold.empty, []))
    (t := (Scaffold.empty, [])) rfl
  rw [← read_heeding, ← read_heeding] at habreast
  rw [Dialect.parse, Dialect.parse]
  revert habreast
  dsimp only
  generalize read settings.reportsComments _ text _ = x,
    read settings'.reportsComments _ text _ = y
  intro habreast
  cases habreast with
  | stopped => rfl
  | @going s t h =>
      obtain ⟨s, log⟩ := s
      obtain ⟨t, log'⟩ := t
      obtain rfl : s = t := h
      dsimp only
      rcases s.finish with cause | root <;> rfl

end

-- ======================================================= without a comment

/-- A line with one of its comments taken out, the `#` included. The comment is
what is left when its event comes up, with the carriage returns at the end of
the line or without them. -/
inductive Shortened : List Char → List Char → Prop where
  | mk {front comment returns : List Char} {text : String}
      (found : (.comment text, comment ++ returns)
        ∈ (readLine (front ++ '#' :: (comment ++ returns))).marks)
      (trailing : ∀ c ∈ returns, c = '\r') :
      Shortened (front ++ '#' :: (comment ++ returns)) (front ++ returns)

/-- A text with comments taken out of some of its lines. -/
def Uncommented (text fewer : String) : Prop :=
  List.Forall₂ (fun line line' => line' = line ∨ Shortened line line')
    (splitLines text.toList) (splitLines fewer.toList)

/-- There are no comments among the events of a statement. -/
theorem plain_readStatement (cs : List Char) :
    plain (readStatement cs).events = (readStatement cs).events :=
  readStatement_told false cs

/-- The mark of a comment is not one of a statement. -/
theorem not_mem_readStatement {cs left : List Char} {text : String} :
    (Event.comment text, left) ∉ (readStatement cs).marks := fun hmark => by
  cases told_of_readStatement false (List.mem_map_of_mem hmark)

/-- Statements in front of a comment are read without it, whatever spaces take
its place. By induction along the recursion of the reader. The comment is behind
the last statement, or behind one of the statements after the first. -/
theorem readStatements_uncommented {cs rest left : List Char} {text : String}
    (hstop : (readStatements cs).stop = .ok rest)
    (hmark : (.comment text, left) ∈ (readStatements cs).marks) :
    ∃ c front, cs = c :: (front ++ '#' :: left) ∧ isSpace c = false ∧ c ≠ '#'
      ∧ ∀ returns : List Char, Grammar.Space returns →
        Gives (readStatements (c :: (front ++ returns)))
          (plain (readStatements cs).events) [] := by
  fun_induction readStatements cs with
  | case1 => exact absurd hmark not_mem_readStatement
  | case2 =>
      rcases List.mem_append.1 hmark with hmark | hmark
      · exact absurd hmark not_mem_readStatement
      · cases List.mem_singleton.1 hmark
  | case3 cs first rest hfirst more hend =>
      -- A comment ends its line, so the mark is this one.
      obtain rfl : left = more := by
        rcases List.mem_append.1 hmark with hmark | hmark
        · exact absurd hmark not_mem_readStatement
        · rcases List.mem_cons.1 hmark with hmark | hmark
          · exact congrArg Prod.snd hmark
          · cases List.mem_singleton.1 hmark
      obtain ⟨word, hword, hcs⟩ := readStatement_sound hfirst
      obtain ⟨space, hspace, hrest, -⟩ := skipSpace_sound rest
      obtain ⟨c, front, rfl, hstart⟩ := hword.start
      have hevents : plain (Reading.events
          { marks := first.marks ++ [commentMark left, (.endLine, [])],
            stop := .ok [] })
          = first.events ++ [.endLine] := by
        rw [Reading.events, List.map_append, plain_append, ← Reading.events,
          plain_readStatement]
        rfl
      refine ⟨c, front ++ space, ?_, hstart.1, hstart.2,
        fun returns hreturns => ?_⟩
      · rw [hcs, hrest, hend, List.cons_append, List.append_assoc]
      · have hgives :=
          readStatements_last hword
            (List.forall_mem_append.2 ⟨hspace, hreturns⟩) .absent
        rw [hevents]
        simpa only [List.append_nil, List.nil_append, List.cons_append,
          List.append_assoc]
          using hgives
  | case4 => cases hstop
  | case5 cs first rest hfirst d more hmore hhash hgap hlt ih =>
      obtain ⟨word, hword, hcs⟩ := readStatement_sound hfirst
      obtain ⟨space, hspace, hrest, -⟩ := skipSpace_sound rest
      obtain ⟨c, start, rfl, hstart⟩ := hword.start
      -- A separator is between two statements, and stays there when the comment
      -- goes.
      have hnonempty : space ≠ [] := fun hnil => by
        rw [hnil, hmore, List.nil_append] at hrest
        exact hgap (congrArg List.length hrest)
      have hbehind : (.comment text, left)
          ∈ (readStatements (d :: more)).marks := by
        rcases List.mem_append.1 hmark with hmark | hmark
        · exact absurd hmark not_mem_readStatement
        · exact hmark
      obtain ⟨d', front, hsplit, hspaced, hhashed, hgives⟩ := ih hstop hbehind
      obtain ⟨rfl, rfl⟩ := List.cons.inj hsplit
      have hevents :
          plain
            ((readStatements
              (d :: (front ++ '#' :: left))).after first.marks).events
          = first.events ++ plain
            (readStatements (d :: (front ++ '#' :: left))).events := by
        rw [Reading.events, Reading.after, List.map_append, plain_append,
          ← Reading.events, ← Reading.events, plain_readStatement]
      refine ⟨c, start ++ (space ++ d :: front), ?_, hstart.1, hstart.2,
        fun returns hreturns => ?_⟩
      · rw [hcs, hrest, hmore]
        simp only [List.cons_append, List.append_assoc]
      · have hmore :=
          readStatements_cons hword hspace hnonempty ⟨hspaced, hhashed⟩
            (hgives returns hreturns)
        rw [hevents]
        simpa only [List.cons_append, List.append_assoc] using hmore

/-- A line without its comment has the same statements. A line with the comment
alone becomes blank. Otherwise the comment is behind statements. -/
theorem readLine_uncommented {line rest left : List Char} {text : String}
    (hstop : (readLine line).stop = .ok rest)
    (hmark : (.comment text, left) ∈ (readLine line).marks) :
    ∃ front, line = front ++ '#' :: left ∧ ∀ returns :
    List Char, Grammar.Space returns →
      Gives (readLine (front ++ returns))
        (plain (readLine line).events) [] := by
  obtain ⟨space, hspace, hline, hstops⟩ := skipSpace_sound line
  rw [readLine] at hstop hmark ⊢
  rcases hskip : skipSpace line with _ | ⟨c, more⟩
  · rw [hskip] at hmark
    cases hmark
  rw [hskip] at hline hstops hstop hmark
  dsimp only at hstop hmark ⊢
  by_cases hhash : c = '#'
  · rw [if_pos hhash] at hmark ⊢
    obtain rfl : left = more := congrArg Prod.snd (List.mem_singleton.1 hmark)
    refine ⟨space, hhash ▸ hline, fun returns hreturns => ?_⟩
    have hblank :=
      Grammar.Line.blank (List.forall_mem_append.2 ⟨hspace, hreturns⟩) .absent
    rw [List.append_nil] at hblank
    exact readLine_complete hblank
  · rw [if_neg hhash] at hstop hmark ⊢
    have hbehind : (.comment text, left)
        ∈ (readStatements (c :: more)).marks := by
      rcases List.mem_append.1 hmark with hmark | hmark
      · cases List.mem_singleton.1 hmark
      · exact hmark
    obtain ⟨c', front, hsplit, hspaced, -, hgives⟩ :=
      readStatements_uncommented hstop hbehind
    obtain ⟨rfl, rfl⟩ := List.cons.inj hsplit
    refine ⟨space ++ c :: front, ?_, fun returns hreturns => ?_⟩
    · rw [List.append_assoc]
      exact hline
    · have hmargin := margin_sound hspace hstops
      rw [← hline] at hmargin
      have hstops' : Stops isSpace (c :: (front ++ returns)) := fun d hd => by
        cases hd
        exact hspaced
      obtain ⟨-, hindent⟩ := margin_complete hmargin hstops'
      rw [List.append_assoc, List.cons_append, readLine,
        skipSpace_complete hspace hstops', hindent]
      dsimp only
      rw [if_neg hhash]
      exact (hgives returns hreturns).after _

/-- A line with its comment taken away gives the same plain events. -/
theorem readLine_shortened {line line' rest : List Char}
    (h : Shortened line line') (hstop : (readLine line).stop = .ok rest) :
    Gives (readLine line') (plain (readLine line).events) [] := by
  obtain ⟨hfound, htrailing⟩ := h
  obtain ⟨front, hsplit, hgives⟩ := readLine_uncommented hstop hfound
  obtain rfl := List.append_cancel_right hsplit
  exact hgives _ fun c hc => .inr (.inr (htrailing c hc))

/-- Without comments the events of a line are its plain ones. -/
theorem lineEvents_false (line : List Char) :
    lineEvents false line = plain (readLine line).events :=
  lineEvents_eq_filter false line

/-- A text without some of its comments is legible with the same statements. By
induction on the lines, each of them the same or shortened. -/
theorem legible_uncommented {text fewer : String} (h : Uncommented text fewer)
    (hlegible : Legible text) :
    Legible fewer ∧ events false fewer = events false text := by
  rw [Legible] at hlegible ⊢
  rw [events, events]
  rw [Uncommented] at h
  generalize splitLines text.toList = lines,
    splitLines fewer.toList = lines' at h hlegible ⊢
  induction h with
  | nil => exact ⟨hlegible, rfl⟩
  | @cons line line' lines lines' hline _ ih =>
      rw [List.forall_mem_cons] at hlegible ⊢
      obtain ⟨⟨rest, hstop⟩, hlines⟩ := hlegible
      obtain ⟨hlines', hevents⟩ := ih hlines
      rw [List.flatMap_cons, List.flatMap_cons, hevents]
      rcases hline with rfl | hshort
      · exact ⟨⟨⟨rest, hstop⟩, hlines'⟩, rfl⟩
      · obtain ⟨hstatements, hstop'⟩ := readLine_shortened hshort hstop
        have hsame : lineEvents false line' = lineEvents false line := by
          rw [lineEvents_false, lineEvents_false, hstatements]
          exact List.filter_filter.trans
            (congrArg (List.filter · _) (funext fun _ => Bool.and_self _))
        exact ⟨⟨⟨[], hstop'⟩, hlines'⟩, by rw [hsame]⟩

/-- A reading that comes to its end has told all events of the text. -/
theorem delivered_of_taken {comments : Bool} {handler : Handler σ ε}
    {text : String} {state : σ}
    (h : (read comments handler text state).2 = none) :
    delivered comments handler text state = events comments text := by
  rw [read, readLines_noting handler comments 1 _ state []] at h
  rw [delivered]
  exact ((listen_noting (read_eq_none_iff.1 (Prod.ext rfl h)).2).2)

/-- Someone who takes a text takes it without some of its comments, too, and is
told the same otherwise, if the comments are not told to them or are
overlooked. -/
theorem read_uncommented {comments : Bool} {handler : Handler σ ε} {start : σ}
    (h : comments = false ∨ handler.Overlooks start) {text fewer : String}
    (hfewer : Uncommented text fewer)
    (htaken : (read comments handler text start).2 = none) :
    (read comments handler fewer start).2 = none
      ∧ plain (delivered comments handler fewer start)
        = plain (delivered comments handler text start) := by
  obtain ⟨hlegible, hlisten⟩ := read_eq_none_iff.1 (Prod.ext rfl htaken)
  obtain ⟨hlegible', hsame⟩ := legible_uncommented hfewer hlegible
  have hplain : plain (events comments fewer) = plain (events comments text) :=
    (events_filter comments fewer).trans
      (hsame.trans (events_filter comments text).symm)
  have hlisten' : (listen handler (events comments fewer) start).2 = none := by
    rcases h with rfl | h
    · rw [hsame, hlisten]
    · rw [h, hplain, ← h, hlisten]
  have htaken' : (read comments handler fewer start).2 = none :=
    congrArg Prod.snd (read_eq_none_iff.2 ⟨hlegible', Prod.ext rfl hlisten'⟩)
  rw [delivered_of_taken htaken, delivered_of_taken htaken']
  exact ⟨htaken', hplain⟩

-- ============================================================= the handlers

/-- A handler overlooks comments if what it says depends on a part of its state
that comments do not touch. Two states with the same view, so that the induction
may run through a comment on one side only. -/
theorem overlooks_of_view {α : Type} {handler : Handler σ ε} (view : σ → α)
    (hcomment : ∀ text s,
      ∃ s', handler (.comment text) s = (s', none) ∧ view s' = view s)
    (hevent : ∀ event s t, view s = view t →
      Abreast (fun s t => view s = view t) (fun _ _ => True) (handler event s)
        (handler event t))
    (state : σ) : handler.Overlooks state := by
  intro es
  suffices hall : ∀ s t, view s = view t →
      (listen handler es s).2
        = (listen handler (plain es) t).2 from hall state state rfl
  induction es with
  | nil => exact fun _ _ _ => rfl
  | cons event es ih =>
      intro s t hview
      rw [← List.singleton_append, plain_append]
      cases hkind : event.isComment with
      | true =>
          obtain ⟨text, rfl⟩ : ∃ text, event = .comment text := by
            cases event <;> first | exact ⟨_, rfl⟩ | cases hkind
          obtain ⟨s', htaken, hview'⟩ := hcomment text s
          exact (congrArg Prod.snd (listen_cons_of_taken htaken)).trans
            (ih s' t (hview'.trans hview))
      | false =>
          have hstep := hevent event s t hview
          rw [plain_of_not_comment hkind, List.singleton_append,
            List.singleton_append, listen, listen]
          revert hstep
          generalize handler event s = x, handler event t = y
          intro hstep
          cases hstep with
          | going hview => exact ih _ _ hview
          | stopped => rfl

/-- A handler that accepts everything overlooks comments. -/
theorem Handler.indifferent_overlooks (ε : Type) :
    (Handler.indifferent ε).Overlooks () :=
  fun es => by rw [Handler.indifferent, listen_accepting, listen_accepting]

/-- Comments are kept beside the statements. What the collector says depends on
the statement that is open, and no comment opens or closes one. -/
theorem Lines.overlooks (kept : Lines) : Lines.handler.Overlooks kept := by
  refine overlooks_of_view Lines.current
    (fun text s => ⟨{ s with comments := s.comments.push text }, rfl, rfl⟩)
    (fun event s t hview => ?_) kept
  obtain ⟨lines, comments, current⟩ := s
  obtain ⟨lines', comments', current'⟩ := t
  obtain rfl : current = current' := hview
  cases event with
  | line | statement | endLine | comment => exact .going rfl
  | attr name value =>
      rcases current with _ | statement
      · exact .going rfl
      · rw [Lines.handler, Lines.handler]
        dsimp only
        rcases statement.addAttribute name value with fault | statement
        · exact .stopped trivial
        · exact .going rfl
  | endStatement =>
      rcases current with _ | statement
      · exact .going rfl
      · exact .going rfl

/-- A handler that overlooks comments meets the same, but for the comments,
whether they are reported or not, and the readings end with the same fault or
with none. A text describes the same tree, or has the same fault, whatever is
reported and logged. And who takes a text takes it without some of its comments,
with the same events otherwise, where the comments are not reported or are
overlooked; in any case there are no other events to be heard of it. -/
theorem read_comments {σ ε E T : Type} [Behavior E T] (handler : Handler σ ε)
    (state : σ) (text : String) (vocabulary : Vocabulary T) (shelf : Shelf T)
    (settings settings' : Settings) :
    (handler.Overlooks state →
      (read true handler text state).2 = (read false handler text state).2
        ∧ plain (delivered true handler text state)
          = delivered false handler text state)
      ∧ (Dialect.parse { vocabulary, shelf, settings } text).2
        = (Dialect.parse { vocabulary, shelf, settings := settings' } text).2
      ∧ ∀ comments fewer, Uncommented text fewer →
        (read comments handler text state).2 = none →
        (read comments (Handler.indifferent ε) fewer ()).2 = none
          ∧ plain (delivered comments (Handler.indifferent ε) fewer ())
            = plain (delivered comments handler text state)
          ∧ (comments = false ∨ handler.Overlooks state →
            (read comments handler fewer state).2 = none
              ∧ plain (delivered comments handler fewer state)
                = plain (delivered comments handler text state)) := by
  refine ⟨fun h => h.read_eq text,
    parse_settings vocabulary shelf settings settings' text, ?_⟩
  intro comments fewer hfewer htaken
  -- A text that was read to its end is legible, so that a handler which accepts
  -- everything reads it as well; what it hears is what the text has to say.
  have hlegible : Legible text := (read_eq_none_iff.1 (Prod.ext rfl htaken)).1
  have hindifferent : read comments (Handler.indifferent ε) text ()
      = ((), none) :=
    read_eq_none_iff.2 ⟨hlegible, listen_accepting _ _ _⟩
  have hheard : delivered comments (Handler.indifferent ε) text ()
      = delivered comments handler text state := by
    rw [delivered_of_taken htaken,
      delivered_of_taken (congrArg Prod.snd hindifferent)]
  obtain ⟨htaken', hsame⟩ :=
    read_uncommented (.inr (Handler.indifferent_overlooks ε)) hfewer
      (congrArg Prod.snd hindifferent)
  exact ⟨htaken', hheard ▸ hsame, fun h => read_uncommented h hfewer htaken⟩

/-- Comments on a line of their own, and behind a guard. -/
def annotatedText : String :=
  "# \"a\"\nsequence #b(\n\t?ready # c\r\n\t wait(seconds:1)\r"

/-- The text without two of its comments. -/
def clearedText : String := "\nsequence #b(\n\t?ready \r\n\t wait(seconds:1)\r"

/-- Two of the lines have a comment that goes. The number sign of the second
line belongs to a name, and stays. -/
theorem uncommented_cleared : Uncommented annotatedText clearedText := by
  have hlines : splitLines annotatedText.toList
      = ["# \"a\"".toList, "sequence #b(".toList,
      "\t?ready # c\r".toList, "\t wait(seconds:1)\r".toList] := by
    decide +kernel
  have hlines' : splitLines clearedText.toList = [[], "sequence #b(".toList,
      "\t?ready \r".toList, "\t wait(seconds:1)\r".toList] := by decide +kernel
  have hheader : Shortened "# \"a\"".toList [] :=
    @Shortened.mk [] " \"a\"".toList [] " \"a\""
      (List.mem_of_getElem? (i := 0) (by with_unfolding_all rfl)) nofun
  have hguard : Shortened "\t?ready # c\r".toList "\t?ready \r".toList :=
    @Shortened.mk "\t?ready ".toList " c".toList ['\r'] " c"
      (List.mem_of_getElem? (i := 3) (by with_unfolding_all rfl)) fun c =>
        List.mem_singleton.1
  rw [Uncommented, hlines, hlines']
  exact .cons (.inr hheader)
    (.cons (.inl rfl) (.cons (.inr hguard) (.cons (.inl rfl) .nil)))

/-- A text with comments of all kinds, for the collector of statements. -/
theorem read_comments_annotated :
    Lines.handler.Overlooks .empty ∧ Uncommented annotatedText clearedText
      ∧ (read true Lines.handler annotatedText .empty).2 = none
      ∧ (read false Lines.handler annotatedText .empty).2 = none
      ∧ plain (delivered true Lines.handler annotatedText .empty)
        = delivered false Lines.handler annotatedText .empty
      ∧ (read true Lines.handler clearedText .empty).2 = none
      ∧ plain (delivered true Lines.handler clearedText .empty)
        = plain (delivered true Lines.handler annotatedText .empty)
      ∧ ((Dialect.standard (id : Stock Unit Empty → _) .standard).parse
        annotatedText).2
        = ((Dialect.standard (id : Stock Unit Empty → _)
          { reportsComments := true, verbosity := .high }).parse
          annotatedText).2 := by
  have hoverlooks : Lines.handler.Overlooks .empty := Lines.overlooks .empty
  have htaken : (read true Lines.handler annotatedText .empty).2 = none := by
    with_unfolding_all rfl
  obtain ⟨hreports, hsettings, hfewer⟩ :=
    read_comments Lines.handler .empty annotatedText
      (Vocabulary.standard (id : Stock Unit Empty → _)) Roster.empty .standard
      { reportsComments := true, verbosity := .high }
  obtain ⟨hresult, hevents⟩ := hreports hoverlooks
  obtain ⟨-, -, hcleared⟩ := hfewer true clearedText uncommented_cleared htaken
  obtain ⟨htaken', hevents'⟩ := hcleared (.inr hoverlooks)
  exact ⟨hoverlooks, uncommented_cleared, htaken, hresult ▸ htaken, hevents,
    htaken', hevents', hsettings⟩

end TaskTree.Outline
