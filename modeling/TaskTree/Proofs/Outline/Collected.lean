/-
A document is put together from its lines and their statements.

The scaffold takes in events; `takeLines` takes in the lines that the
collector makes of the same events. The two keep in step: at every moment
the scaffold is the one that the lines met so far give, with the statement
that is not complete yet, and where the collector refuses an event the
scaffold refuses it too. So a document gives a tree exactly if the
collector accepts it and its lines give that tree.

`Lines.scaffold` is what ties them: the scaffold of the lines that were
kept, with the open statement beside it. One event is one step on both
sides (`scaffold_bind_accept`, `scaffold_bind_accept_of_refused`), a row of
events is settled by induction, and only the events before the first line
need a look of their own, since there is no line yet to which a statement
could belong (`acceptAll_cases`). The log of the handler and the comments
are left out at the end: nothing reads them.
-/
import TaskTree.Outline.Document
import TaskTree.Outline.Lines
import TaskTree.Proofs.Outline.Listening
import TaskTree.Proofs.Outline.Whole

namespace TaskTree.Outline

variable {E T : Type} [Behavior E T] {dialect : Dialect T}

namespace Scaffold

/-- Takes in a line with its statements. -/
def takeLine (dialect : Dialect T) (line : Line) (s : Scaffold T) :
    Except BuildFault (Scaffold T) :=
  line.statements.foldlM (fun s statement => s.take dialect statement)
    { s with indent := line.indent, placed := false }

/-- Takes in lines. -/
def takeLines (dialect : Dialect T) (lines : List Line) (s : Scaffold T) :
    Except BuildFault (Scaffold T) :=
  lines.foldlM (fun s line => s.takeLine dialect line) s

/-- Takes in events. -/
def acceptAll (dialect : Dialect T) (events : List Event) (s : Scaffold T) :
    Except BuildFault (Scaffold T) :=
  events.foldlM (fun s event => s.accept dialect event) s

/-- Writing the open statement once more changes nothing. -/
theorem withCurrent_self {s : Scaffold T} {current : Option Statement}
    (h : s.current = current) :
    { s with current } = s := by
  cases h
  rfl

/-- Making room touches the open tasks, and neither the line nor the
statement. -/
theorem makeRoom_keeps {s s' : Scaffold T} (h : s.makeRoom = .ok s') :
    s'.indent = s.indent ∧ s'.guard = s.guard ∧ s'.current = s.current
      ∧ s'.placed = true := by
  unfold makeRoom at h
  split at h
  · rename_i hplaced
    cases h
    exact ⟨rfl, rfl, rfl, hplaced⟩
  · split at h
    · cases h
    · cases h
      exact ⟨rfl, rfl, rfl, rfl⟩

/-- Nor does opening a task touch them. -/
theorem openTask_keeps {s s' : Scaffold T} {b : Blueprint T}
    (h : s.openTask b = .ok s') :
    s'.indent = s.indent ∧ s'.guard = s.guard ∧ s'.current = s.current
      ∧ s'.placed = s.placed := by
  unfold openTask at h
  dsimp only at h
  split at h
  · split at h
    · cases h
    · cases h
      exact ⟨rfl, rfl, rfl, rfl⟩
  · split at h
    · cases h
    · cases h
      exact ⟨rfl, rfl, rfl, rfl⟩

/-- Taking in a statement does not look at the one that is not complete yet,
and every task leaves the mark that its line has one. -/
theorem take_keeps {statement : Statement} {s s' : Scaffold T}
    (h : s.take dialect statement = .ok s') :
    s'.indent = s.indent ∧ s'.current = s.current
      ∧ s'.placed = (!statement.isGuard || s.placed) := by
  unfold take at h
  obtain ⟨built, -, h⟩ := bind_eq_ok h
  obtain ⟨node, -, h⟩ := bind_eq_ok h
  -- A guard waits for its task and is not placed.
  split at h
  · rename_i hguard
    obtain ⟨⟨⟩, -, h⟩ := bind_eq_ok h
    cases h
    rw [hguard]
    exact ⟨rfl, rfl, rfl⟩
  · rename_i htask
    obtain ⟨s₁, hroom, hopen⟩ := bind_eq_ok h
    obtain ⟨hindent, -, hcurrent, hplaced⟩ := makeRoom_keeps hroom
    obtain ⟨hindent', -, hcurrent', hplaced'⟩ := openTask_keeps hopen
    rw [eq_false_of_ne_true htask, hplaced', hplaced]
    exact ⟨hindent'.trans hindent, hcurrent'.trans hcurrent, rfl⟩

/-- The statements of a line are complete, so none is open behind them. -/
theorem takeLine_current {line : Line} {s s' : Scaffold T}
    (h : s.takeLine dialect line = .ok s') :
    s'.current = s.current :=
  foldlM_keeps (P := fun t => t.current = s.current)
    (fun _ _ _ hkept htake => (take_keeps htake).2.1.trans hkept) rfl h

/-- And so it is behind several lines. -/
theorem takeLines_current {lines : List Line} {s s' : Scaffold T}
    (h : s.takeLines dialect lines = .ok s') : s'.current = s.current :=
  foldlM_keeps (P := fun t => t.current = s.current)
    (fun _ _ _ hkept htake => (takeLine_current htake).trans hkept) rfl h

/-- A line with one more statement. -/
theorem takeLine_append (line : Line) (statement : Statement) (s : Scaffold T) :
    s.takeLine dialect
      { line with statements := line.statements ++ [statement] }
      = s.takeLine dialect line >>= fun s => s.take dialect statement := by
  unfold takeLine
  dsimp only
  rw [List.foldlM_append]
  congr 1
  funext s
  exact (List.foldlM_cons ..).trans (bind_pure _)

/-- A document with one more line. -/
theorem takeLines_append_singleton (lines : List Line) (line : Line)
    (s : Scaffold T) :
    s.takeLines dialect (lines ++ [line])
      = s.takeLines dialect lines >>= fun s => s.takeLine dialect line := by
  unfold takeLines
  rw [List.foldlM_append]
  congr 1
  funext s
  exact (List.foldlM_cons ..).trans (bind_pure _)

end Scaffold

-- ============================================================ the lines

namespace Lines

/-- The scaffold that the lines met so far give. -/
def scaffold (dialect : Dialect T) (kept : Lines) :
    Except BuildFault (Scaffold T) :=
  (Scaffold.empty.takeLines dialect kept.lines.toList).map fun s =>
    { s with current := kept.current }

/-- A statement that is added comes last in the last line. -/
theorem addStatement_lines {kept : Lines} {before : List Line} {line : Line}
    (h : kept.lines.toList = before ++ [line]) (statement : Statement) :
    (kept.addStatement statement).lines.toList
      = before
        ++ [{ line with statements := line.statements ++ [statement] }] := by
  have hsize : kept.lines.size - 1 = before.length + 0 := by
    have hlength := congrArg List.length h
    rw [Array.length_toList, List.length_append,
      List.length_singleton] at hlength
    omega
  rw [addStatement]
  dsimp only
  rw [Array.toList_modify, h, hsize]
  exact List.modifyTailIdx_add _ 0 before [line]

/-- A statement that is complete is taken in at the end of the last line. The
lines before the last one are taken as they were, and the last one with one
statement more. -/
theorem scaffold_bind_take {kept : Lines} {statement : Statement}
    (hlines : kept.lines ≠ #[]) (hcurrent : kept.current = some statement) :
    kept.scaffold dialect >>= (fun s => s.accept dialect .endStatement)
      = (({ kept with current := none } :
        Lines).addStatement statement).scaffold dialect := by
  unfold scaffold
  -- The statement belongs to the last line, so the lines before it are taken as
  -- they were.
  obtain ⟨before, line, hlast⟩ : ∃ before line,
      kept.lines.toList = before ++ [line] :=
    ⟨_, _,
      (List.dropLast_concat_getLast (mt Array.toList_eq_nil_iff.1 hlines)).symm⟩
  have hlonger :
      (({ kept with current := none } :
        Lines).addStatement statement).lines.toList
      = before
        ++ [{ line with statements := line.statements ++ [statement] }] :=
    addStatement_lines hlast statement
  rw [hlonger, hlast, hcurrent, Scaffold.takeLines_append_singleton,
    Scaffold.takeLines_append_singleton]
  cases hbefore : Scaffold.empty.takeLines dialect before with
  | error fault => rfl
  | ok s =>
      show ((s.takeLine dialect line).map _ >>= _)
          = (s.takeLine dialect _).map _
      -- The last line is taken with one statement more.
      rw [Scaffold.takeLine_append]
      cases hline : s.takeLine dialect line with
      | error fault => rfl
      | ok s₁ =>
          -- No statement is open within a line that was taken whole.
          have hnone : s₁.current = none :=
            (Scaffold.takeLine_current hline).trans
              (Scaffold.takeLines_current hbefore)
          show Scaffold.take dialect statement { s₁ with current := none }
            = (Scaffold.take dialect statement s₁).map fun s =>
              { s with current := none }
          rw [Scaffold.withCurrent_self hnone]
          cases htaken : s₁.take dialect statement with
          | error fault => rfl
          | ok s₂ =>
              have hstill := (Scaffold.take_keeps htaken).2.1.trans hnone
              exact congrArg Except.ok (Scaffold.withCurrent_self hstill).symm

/-- A collector that takes an event keeps in step with the scaffold. One case
per event. All but the end of a statement change only what is open, and the
taken lines are the same. An attribute goes to the open statement if its name is
new, and the scaffold asks the same; a statement is taken when it ends. -/
theorem scaffold_bind_accept {event : Event} {kept kept' : Lines}
    (hstarted : kept.current ≠ none → kept.lines ≠ #[])
    (h : Lines.handler event kept = (kept', none)) :
    kept.scaffold dialect >>= (fun s => s.accept dialect event)
      = kept'.scaffold dialect := by
  cases event with
  -- A new line has no statements yet, and taking it only notes its indentation.
  | line indent =>
      cases h
      unfold scaffold
      dsimp only
      rw [Array.toList_push, Scaffold.takeLines_append_singleton]
      cases Scaffold.empty.takeLines dialect kept.lines.toList with
      | error fault => rfl
      | ok s => rfl
  | statement name isReference isGuard =>
      cases h
      unfold scaffold
      cases Scaffold.empty.takeLines dialect kept.lines.toList with
      | error fault => rfl
      | ok s => rfl
  | attr name value =>
      unfold scaffold
      rw [Lines.handler] at h
      split at h
      · rename_i hcurrent
        cases h
        rw [hcurrent]
        cases Scaffold.empty.takeLines dialect kept.lines.toList with
        | error fault => rfl
        | ok s => rfl
      · rename_i statement hcurrent
        split at h
        · rename_i longer hlonger
          cases h
          rw [hcurrent]
          cases Scaffold.empty.takeLines dialect kept.lines.toList with
          | error fault => rfl
          | ok s =>
              simp only [Except.map, bind, Except.bind, Scaffold.accept,
                hlonger]
        · cases h
  | endStatement =>
      unfold scaffold
      rw [Lines.handler] at h
      split at h
      · rename_i hcurrent
        cases h
        rw [hcurrent]
        cases Scaffold.empty.takeLines dialect kept.lines.toList with
        | error fault => rfl
        | ok s => rfl
      · rename_i statement hcurrent
        cases h
        have hlines := hstarted (hcurrent ▸ Option.some_ne_none statement)
        exact scaffold_bind_take hlines hcurrent
  | endLine =>
      cases h
      unfold scaffold
      cases Scaffold.empty.takeLines dialect kept.lines.toList with
      | error fault => rfl
      | ok s => rfl
  | comment text =>
      cases h
      unfold scaffold
      cases Scaffold.empty.takeLines dialect kept.lines.toList with
      | error fault => rfl
      | ok s => rfl

/-- What the collector refuses, the scaffold refuses. Only an attribute can be
refused, and the scaffold refuses it for the same reason. -/
theorem scaffold_bind_accept_of_refused {event : Event} {kept kept' : Lines}
    {fault : BuildFault} (h : Lines.handler event kept = (kept', some fault))
    (s : Scaffold T) :
    kept.scaffold dialect >>= (fun s => s.accept dialect event) ≠ .ok s := by
  cases event with
  | attr name value =>
      unfold scaffold
      rw [Lines.handler] at h
      split at h
      · cases h
      · rename_i statement hcurrent
        split at h
        · cases h
        · rename_i cause hcause
          rw [hcurrent]
          cases Scaffold.empty.takeLines dialect kept.lines.toList with
          | error fault => exact nofun
          | ok s₁ =>
              simp only [Except.map, bind, Except.bind, Scaffold.accept, hcause]
              exact nofun
  | endStatement =>
      rw [Lines.handler] at h
      split at h
      · cases h
      · cases h
  | line | statement | endLine | comment => cases h

/-- Only a line adds a line, and none is ever lost. -/
theorem handler_lines_ne {event : Event} {kept kept' : Lines}
    (hlines : kept.lines ≠ #[]) (h : Lines.handler event kept = (kept', none)) :
    kept'.lines ≠ #[] := by
  cases event with
  | line indent =>
      cases h
      exact Array.push_ne_empty
  | attr name value =>
      rw [Lines.handler] at h
      split at h
      · cases h
        exact hlines
      · split at h
        · cases h
          exact hlines
        · cases h
  | endStatement =>
      rw [Lines.handler] at h
      split at h
      · cases h
        exact hlines
      -- A statement is added to the last one, and their number stays.
      · cases h
        intro hempty
        have hsize := congrArg Array.size hempty
        rw [addStatement, Array.size_modify] at hsize
        exact hlines (Array.eq_empty_of_size_eq_zero hsize)
  | statement | endLine | comment =>
      cases h
      exact hlines

/-- The scaffold of the lines goes along with the events. By induction on the
events, one step of both sides at a time. -/
theorem scaffold_bind_acceptAll {events : List Event} {kept kept' : Lines}
    (hlines : kept.lines ≠ #[])
    (h : listen Lines.handler events kept = (kept', none)) :
    kept.scaffold dialect >>= (fun s => s.acceptAll dialect events)
      = kept'.scaffold dialect := by
  induction events generalizing kept with
  | nil =>
      cases h
      exact bind_pure _
  | cons event events ih =>
      rcases hevent : Lines.handler event kept with ⟨kept₁, _ | fault⟩
      · rw [listen_cons_of_taken hevent] at h
        rw [← ih (handler_lines_ne hlines hevent) h,
          ← scaffold_bind_accept (fun _ => hlines) hevent, bind_assoc]
        rfl
      · rw [listen_cons_of_refused hevent] at h
        cases h

/-- And it refuses where the lines do. By induction along the events, as long as
the lines take them. -/
theorem scaffold_bind_acceptAll_of_refused {events : List Event}
    {kept kept' : Lines} {fault : BuildFault} (hlines : kept.lines ≠ #[])
    (h : listen Lines.handler events kept = (kept', some fault))
    (s : Scaffold T) :
    kept.scaffold dialect
      >>= (fun s => s.acceptAll dialect events) ≠ .ok s := by
  induction events generalizing kept with
  | nil => cases h
  | cons event events ih =>
      have hsplit :
          (kept.scaffold dialect >>= fun s =>
            s.acceptAll dialect (event :: events))
          = (kept.scaffold dialect >>= fun s => s.accept dialect event)
            >>= fun s => s.acceptAll dialect events := by
        rw [bind_assoc]
        rfl
      rw [hsplit]
      rcases hevent : Lines.handler event kept with ⟨kept₁, _ | cause⟩
      · rw [listen_cons_of_taken hevent] at h
        rw [scaffold_bind_accept (fun _ => hlines) hevent]
        exact ih (handler_lines_ne hlines hevent) h
      · intro hok
        obtain ⟨s₁, hs₁, -⟩ := bind_eq_ok hok
        exact scaffold_bind_accept_of_refused hevent s₁ hs₁

end Lines

-- ============================================================= the text

/-- Apart from comments, the first event opens a line. -/
inductive Headed : List Event → Prop where
  | nil : Headed []
  | comment {text : String} {rest : List Event} :
      Headed rest → Headed (.comment text :: rest)
  | line {indent : Nat} {rest : List Event} : Headed (.line indent :: rest)

/-- The events of a line are none, a comment, or those of its statements. -/
theorem Headed.lineEvents_append {comments : Bool} {line : List Char}
    {rest : List Event} (h : Headed rest) :
    Headed (lineEvents comments line ++ rest) := by
  unfold lineEvents readLine
  rcases hspace : skipSpace line with _ | ⟨c, more⟩
  · dsimp only
    cases comments <;> exact h
  · dsimp only
    by_cases hhash : c = '#'
    · rw [if_pos hhash]
      cases comments with
      | false => exact h
      | true => exact .comment h
    · rw [if_neg hhash]
      cases comments <;> exact .line

/-- The events of a text begin with a comment or a line. -/
theorem headed_events (comments : Bool) (text : String) :
    Headed (events comments text) := by
  unfold events
  induction splitLines text.toList with
  | nil => exact .nil
  | cons line lines ih =>
      rw [List.flatMap_cons]
      exact ih.lineEvents_append

variable (dialect) in
/-- The events of a document give the scaffold that its lines give, unless the
collector refuses one of them. Then the scaffold refuses one, too. -/
theorem acceptAll_cases {events : List Event} (h : Headed events) {kept : Lines}
    (hlines : kept.lines = #[]) (hcurrent : kept.current = none) :
    (∃ kept', listen Lines.handler events kept = (kept', none)
        ∧ Scaffold.empty.acceptAll dialect events = kept'.scaffold dialect)
      ∨ (∃ kept' fault, listen Lines.handler events kept = (kept', some fault))
        ∧ ∀ s, Scaffold.empty.acceptAll dialect events ≠ .ok s := by
  have hempty : kept.scaffold dialect = .ok (Scaffold.empty : Scaffold T) := by
    unfold Lines.scaffold
    rw [hlines, hcurrent]
    rfl
  -- Along the comments up to the first line: before it nothing is kept, and the
  -- scaffold is the empty one.
  induction h generalizing kept with
  | nil => exact .inl ⟨kept, rfl, hempty.symm⟩
  | comment hrest ih => exact ih hlines hcurrent hempty
  | @line indent rest =>
      have htaken : Lines.handler (.line indent) kept
          = ({ kept with
               lines := kept.lines.push { indent, statements := [] } },
                 none) := rfl
      have hfirst : kept.scaffold dialect
          >>= (fun s => s.accept dialect (.line indent))
          = ({ kept with
               lines := kept.lines.push { indent, statements := [] } } :
                 Lines).scaffold dialect :=
        Lines.scaffold_bind_accept (fun hne => absurd hcurrent hne) htaken
      rw [hempty] at hfirst
      -- From the first line on the lines are not empty, which is what the
      -- lemmas on single events ask for.
      have hsplit : Scaffold.empty.acceptAll dialect (.line indent :: rest)
          = (({ kept with
                lines := kept.lines.push { indent, statements := [] } } :
                  Lines).scaffold dialect
            >>= fun s => s.acceptAll dialect rest) := by
        rw [← hfirst, bind_assoc]
        rfl
      rw [hsplit, listen_cons_of_taken htaken]
      rcases hlisten : listen Lines.handler rest
          { kept with
            lines := kept.lines.push { indent, statements := [] } } with
              ⟨kept', _ | fault⟩
      · exact .inl ⟨kept', rfl,
          Lines.scaffold_bind_acceptAll Array.push_ne_empty hlisten⟩
      · exact .inr ⟨⟨kept', fault, rfl⟩,
          Lines.scaffold_bind_acceptAll_of_refused Array.push_ne_empty hlisten⟩

/-- The events of a document give the tree that its lines give. The lines have
taken all events, or one of them was refused, and then the scaffold has refused
it too. -/
theorem acceptAll_finish_eq_ok_iff {events : List Event} (h : Headed events)
    {root : Blueprint T} {kept : Lines} (hlines : kept.lines = #[])
    (hcurrent : kept.current = none) :
    Scaffold.empty.acceptAll dialect events >>= Scaffold.finish = .ok root ↔
      ∃ kept', listen Lines.handler events kept = (kept', none)
        ∧ kept'.scaffold dialect >>= Scaffold.finish = .ok root := by
  rcases acceptAll_cases dialect h hlines hcurrent with
    ⟨kept', hlisten, hscaffold⟩ | ⟨⟨kept', fault, hlisten⟩, hrefused⟩
  · rw [hlisten, hscaffold]
    constructor
    · intro hroot
      exact ⟨kept', rfl, hroot⟩
    · intro h
      obtain ⟨kept'', hkept'', hroot⟩ := h
      cases hkept''
      exact hroot
  · rw [hlisten]
    constructor
    · intro hroot
      obtain ⟨s, hs, -⟩ := bind_eq_ok hroot
      exact absurd hs (hrefused s)
    · intro h
      obtain ⟨kept'', hkept'', -⟩ := h
      cases hkept''

/-- What the scaffold accepts the handler takes, with an entry in its log. -/
theorem Dialect.handler_of_accept {event : Event} {s s' : Scaffold T}
    (log : List Record) (h : s.accept dialect event = .ok s') :
    dialect.handler event (s, log)
      = ((s', log ++ eventRecords dialect.settings.verbosity event s),
        none) := by
  unfold Dialect.handler
  dsimp only
  rw [h]

/-- What it refuses is refused. -/
theorem Dialect.handler_of_refuse {event : Event} {s : Scaffold T}
    (log : List Record) {fault : BuildFault}
    (h : s.accept dialect event = .error fault) :
    dialect.handler event (s, log)
      = ((s, log ++ eventRecords dialect.settings.verbosity event s),
        some fault) := by
  unfold Dialect.handler
  dsimp only
  rw [h]

/-- The log that is made beside a scaffold has no influence on it. By induction
along the events, with the log general: it is written and not read. -/
theorem listen_handler_eq_none_iff {events : List Event} {s s' : Scaffold T}
    {log : List Record} :
    (∃ log', listen dialect.handler events (s, log) = ((s', log'), none)) ↔
      s.acceptAll dialect events = .ok s' := by
  induction events generalizing s log with
  | nil =>
      constructor
      · intro h
        obtain ⟨log', h⟩ := h
        cases h
        rfl
      · intro h
        cases h
        exact ⟨log, rfl⟩
  | cons event events ih =>
      have hsplit : s.acceptAll dialect (event :: events)
          = (s.accept dialect event >>= fun s => s.acceptAll dialect events) :=
        rfl
      rw [hsplit]
      cases haccept : s.accept dialect event with
      | error fault =>
          rw [listen_cons_of_refused (Dialect.handler_of_refuse log haccept)]
          constructor
          · intro h
            obtain ⟨log', h⟩ := h
            cases h
          · intro h
            cases h
      | ok s₁ =>
          rw [listen_cons_of_taken (Dialect.handler_of_accept log haccept)]
          exact ih

/-- Comments have no influence on a scaffold. An event that is a comment leaves
the scaffold as it is. -/
theorem acceptAll_filter (events : List Event) (s : Scaffold T) :
    s.acceptAll dialect (events.filter fun event => !event.isComment)
      = s.acceptAll dialect events := by
  induction events generalizing s with
  | nil => rfl
  | cons event events ih =>
      cases event with
      | comment text => exact ih s
      | line | statement | attr | endStatement | endLine =>
          show (s.accept dialect _ >>= fun s => s.acceptAll dialect _)
              = s.accept dialect _ >>= _
          congr 1
          funext s
          exact ih s

/-- A text gives a tree exactly if it is read to its end and the scaffold holds
that tree then. The reading ends without a fault, and then the scaffold is
finished; or it ends with one. -/
theorem parse_eq_ok_iff_finish {text : String} {root : Blueprint T} :
    (dialect.parse text).2 = .ok root ↔
      ∃ s log, read dialect.settings.reportsComments dialect.handler text
        (Scaffold.empty, [])
        = ((s, log), none) ∧ s.finish = .ok root := by
  unfold Dialect.parse
  rcases read dialect.settings.reportsComments dialect.handler text
    (Scaffold.empty, []) with
      ⟨⟨s, log⟩, _ | fault⟩
  · dsimp only
    cases hfinish : s.finish with
    | error cause =>
        constructor
        · intro h
          cases h
        · intro h
          obtain ⟨s', log', hs', h⟩ := h
          cases hs'
          rw [hfinish] at h
          cases h
    | ok root' =>
        constructor
        · intro h
          cases h
          exact ⟨s, log, rfl, hfinish⟩
        · intro h
          obtain ⟨s', log', hs', h⟩ := h
          cases hs'
          rw [hfinish] at h
          cases h
          rfl
  · constructor
    · intro h
      cases h
    · intro h
      obtain ⟨s', log', hs', -⟩ := h
      cases hs'

/-- A statement that is not complete at the end is of no concern. The end of the
document looks at the open tasks and at the guard that waits only. -/
theorem Lines.scaffold_bind_finish (kept : Lines) :
    kept.scaffold dialect >>= Scaffold.finish
      = (Scaffold.empty.takeLines dialect kept.lines.toList >>= Scaffold.finish
          : Except BuildFault (Blueprint T)) := by
  unfold Lines.scaffold
  cases Scaffold.empty.takeLines dialect kept.lines.toList with
  | error fault => rfl
  | ok s => rfl

/-- A document gives a tree exactly if the collector accepts it and its lines
give that tree. Comments are nothing to the scaffold, so it makes no difference
whether they are told. -/
theorem parse_eq_ok_iff_takeLines (comments : Bool) {text : String}
    {root : Blueprint T} :
    (dialect.parse text).2 = .ok root ↔
      ∃ kept, read comments Lines.handler text Lines.empty = (kept, none)
        ∧ Scaffold.empty.takeLines dialect kept.lines.toList >>= Scaffold.finish
          = .ok root := by
  have hcomments : (Scaffold.empty : Scaffold T).acceptAll dialect
        (events dialect.settings.reportsComments text)
      = Scaffold.empty.acceptAll dialect (events comments text) := by
    rw [← acceptAll_filter, events_filter, ← events_filter comments,
      acceptAll_filter]
  -- The scaffold that accepts the events is that of the lines they are kept as.
  have hgives : Scaffold.empty.acceptAll dialect (events comments text)
      >>= Scaffold.finish
        = .ok root ↔
      ∃ kept, listen Lines.handler (events comments text) Lines.empty
        = (kept, none)
        ∧ kept.scaffold dialect >>= Scaffold.finish = .ok root :=
    acceptAll_finish_eq_ok_iff (headed_events _ text) rfl rfl
  rw [parse_eq_ok_iff_finish]
  -- Both ways the text has to be legible, and the rest is a matter of its
  -- events.
  constructor
  · intro h
    obtain ⟨s, log, hread, hs⟩ := h
    obtain ⟨hlegible, hlistened⟩ := read_eq_none_iff.1 hread
    have haccepted := listen_handler_eq_none_iff.1 ⟨log, hlistened⟩
    obtain ⟨kept, hkept, hroot⟩ :=
      hgives.1 (by rw [← hcomments, haccepted]; exact hs)
    rw [Lines.scaffold_bind_finish] at hroot
    exact ⟨kept, read_eq_none_iff.2 ⟨hlegible, hkept⟩, hroot⟩
  · intro h
    obtain ⟨kept, hread, hroot⟩ := h
    obtain ⟨hlegible, hlistened⟩ := read_eq_none_iff.1 hread
    obtain ⟨s, haccepted, hs⟩ :=
      bind_eq_ok
        (hgives.2 ⟨kept, hlistened, kept.scaffold_bind_finish.trans hroot⟩)
    obtain ⟨log, hlog⟩ :=
      listen_handler_eq_none_iff.2 (hcomments.trans haccepted)
    exact ⟨s, log, read_eq_none_iff.2 ⟨hlegible, hlog⟩, hs⟩

end TaskTree.Outline
