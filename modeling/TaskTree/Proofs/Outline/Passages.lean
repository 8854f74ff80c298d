/-
Lines of a text, read apart from the rest.

Nothing of a line outlives it: no statement is left incomplete at its end, and
what the collector adds to a line it adds to the last one that it has. So the
lines of a passage are collected in the middle of a text as they are by
themselves (`reads_append`), and a passage that is moved to the right gives the
same statements, on lines that are indented more (`Reads.deeper`).
-/
import TaskTree.Proofs.Outline.Collected
import TaskTree.Proofs.Outline.Derivation
import TaskTree.Proofs.Outline.Splicing

namespace TaskTree.Outline

open Grammar (Space Row)

/-- Lines that can be read, with the statements on them. -/
def Reads (lines : List (List Char)) (rows : List Line) : Prop :=
  ∃ kept, readLines true Lines.handler 1 lines Lines.empty = (kept, none)
    ∧ kept.lines.toList = rows

/-- Lines are read by reading each of them, and by telling a collector of their
events. -/
theorem reads_iff {lines : List (List Char)} {rows : List Line} :
    Reads lines rows ↔
      (∀ line ∈ lines, ∃ rest, (readLine line).stop = .ok rest)
        ∧ ∃ kept, listen Lines.handler (lines.flatMap (lineEvents true))
          Lines.empty = (kept, none)
          ∧ kept.lines.toList = rows := by
  unfold Reads
  constructor
  · intro h
    obtain ⟨kept, hread, hkept⟩ := h
    obtain ⟨hlegible, hlisten⟩ := readLines_eq_none_iff.1 hread
    exact ⟨hlegible, kept, hlisten, hkept⟩
  · intro h
    obtain ⟨hlegible, kept, hlisten, hkept⟩ := h
    exact ⟨kept, readLines_eq_none_iff.2 ⟨hlegible, hlisten⟩, hkept⟩

/-- What the grammar gives for a line is what its reading gives. -/
theorem lineEvents_of_line {line : List Char} {es : List Event}
    (h : Grammar.Line line es) :
    lineEvents true line = es := (readLine_complete h).events

/-- A line of the grammar is read to what a collector makes of its events. -/
theorem reads_of_line {line : List Char} {es : List Event}
    (h : Grammar.Line line es) {kept : Lines}
    (hlisten : listen Lines.handler es Lines.empty = (kept, none)) :
    Reads [line] kept.lines.toList := by
  refine reads_iff.2
    ⟨List.forall_mem_singleton.2 ⟨_, (readLine_complete h).stop⟩, kept, ?_, rfl⟩
  rw [List.flatMap_singleton, lineEvents_of_line h]
  exact hlisten

/-- The statements of lines are no others than these. -/
theorem Reads.unique {lines : List (List Char)} {rows rows' : List Line}
    (h : Reads lines rows) (h' : Reads lines rows') : rows = rows' := by
  obtain ⟨kept, hkept, rfl⟩ := h
  obtain ⟨kept', hkept', rfl⟩ := h'
  rw [hkept] at hkept'
  cases hkept'
  rfl

/-- A text gives a tree exactly if its lines can be read and their statements
give that tree. -/
theorem parse_eq_ok_iff_reads {E T : Type} [Behavior E T] {dialect : Dialect T}
    {text : String} {root : Blueprint T} :
    (dialect.parse text).2 = .ok root ↔
      ∃ rows, Reads (splitLines text.toList) rows
        ∧ Scaffold.empty.takeLines dialect rows >>= Scaffold.finish
          = .ok root := by
  rw [parse_eq_ok_iff_takeLines true]
  constructor
  · intro h
    obtain ⟨kept, hread, hroot⟩ := h
    exact ⟨_, ⟨kept, hread, rfl⟩, hroot⟩
  · intro h
    obtain ⟨_, ⟨kept, hread, rfl⟩, hroot⟩ := h
    exact ⟨kept, hread, hroot⟩

-- ====================================================== the events of lines

/-- An event of a line with more indentation. -/
def Event.deeper (depth : Nat) : Event → Event
  | .line indent => .line (depth + indent)
  | event => event

/-- No more indentation leaves a line as it is. -/
theorem Line.deeper_zero (line : Line) : line.deeper 0 = line :=
  congrArg (Line.mk · line.statements) (Nat.zero_add _)

/-- And an event. -/
theorem Event.deeper_zero (event : Event) : event.deeper 0 = event := by
  cases event with
  | line indent => exact congrArg Event.line (Nat.zero_add indent)
  | _ => rfl

/-- The events of lines begin with a line, but for comments. -/
theorem headed_flatMap (comments : Bool) (lines : List (List Char)) :
    Headed (lines.flatMap (lineEvents comments)) := by
  induction lines with
  | nil => exact .nil
  | cons line lines ih =>
      rw [List.flatMap_cons]
      exact ih.lineEvents_append

/-- A row of statements ends with the end of one. -/
theorem Grammar.Row.ends {cs : List Char} {es : List Event}
    (h : Row Grammar.Statement cs es) :
    ∃ before, es = before ++ [.endStatement] := by
  induction h with
  | one hfirst =>
      cases hfirst with
      | bare => exact ⟨[_], rfl⟩
      | listed => exact ⟨_ :: _, rfl⟩
  | more _ _ _ _ ih =>
      obtain ⟨before, rfl⟩ := ih
      exact ⟨_, (List.append_assoc ..).symm⟩

/-- The events of a statement do not depend on the indentation. -/
theorem Grammar.Row.deeper {Item : List Char → List Event → Prop}
    {cs : List Char} {es : List Event} (depth : Nat) (h : Row Item cs es)
    (hitem : ∀ word fs, Item word fs → fs.map (Event.deeper depth) = fs) :
    es.map (Event.deeper depth) = es := by
  induction h with
  | one hfirst => exact hitem _ _ hfirst
  | more hfirst _ _ _ ih => rw [List.map_append, hitem _ _ hfirst, ih]

/-- The same for a statement and its attributes. A statement has no event of a
line in it, and neither have its attributes. -/
theorem Grammar.Statement.deeper {cs : List Char} {es : List Event}
    (depth : Nat) (h : Grammar.Statement cs es) :
    es.map (Event.deeper depth) = es := by
  have hattribute : ∀ word fs, Grammar.Attribute word fs →
      fs.map (Event.deeper depth) = fs := by
    intro word fs hword
    cases hword
    rfl
  cases h with
  | bare => rfl
  | listed _ _ _ hattributes =>
      rw [List.map_cons, List.map_append]
      cases hattributes with
      | empty => rfl
      | row _ hrow =>
          rw [hrow.deeper depth hattribute]
          rfl

/-- A comment has none either. -/
theorem Grammar.Comment.deeper {cs : List Char} {es : List Event} (depth : Nat)
    (h : Grammar.Comment cs es) : es.map (Event.deeper depth) = es := by
  cases h <;> rfl

/-- A line with spaces in front is the same line with more indentation. Spaces
in front of a line are more of its margin, also when nothing but a comment
follows. -/
theorem Grammar.Line.deeper {cs : List Char} {es : List Event} (depth : Nat)
    (h : Grammar.Line cs es) :
    Grammar.Line (List.replicate depth ' ' ++ cs)
      (es.map (Event.deeper depth)) := by
  have hpad : ∀ c ∈ List.replicate depth ' ', c = ' ' :=
    fun c hc => List.eq_of_mem_replicate hc
  cases h with
  | @blank space comment es hspace hcomment =>
      rw [hcomment.deeper, ← List.append_assoc]
      refine .blank (List.forall_mem_append.2
          ⟨fun c hc => .inl (hpad c hc), hspace⟩) hcomment
  | @full margin row space comment indent es fs hmargin hrow hspace hcomment =>
      have hmargin' : Grammar.Margin (List.replicate depth ' ' ++ margin)
          (depth + indent) := by
        cases hmargin with
        | @mk indent space hindent hspace hstop =>
            have hindent' : ∀ c ∈ List.replicate depth ' ' ++ indent,
                Grammar.Indenting c :=
              List.forall_mem_append.2 ⟨fun c hc => .inl (hpad c hc), hindent⟩
            have hmore := Grammar.Margin.mk hindent' hspace hstop
            rw [List.length_append, List.length_replicate,
              List.append_assoc] at hmore
            exact hmore
      rw [List.map_cons, List.map_append, List.map_append, hcomment.deeper,
        hrow.deeper depth fun _ _ hword => hword.deeper depth,
        ← List.append_assoc]
      exact .full hmargin' hrow hspace hcomment

-- =========================================================== collecting

namespace Lines

/-- What is collected after other lines, with more indentation. -/
def among (before : Lines) (depth : Nat) (kept : Lines) : Lines :=
  { lines := before.lines ++ kept.lines.map (Line.deeper depth)
    comments := before.comments ++ kept.comments
    current := kept.current }

/-- A statement is added to the last line, which is one of the lines that were
collected after the others. -/
theorem among_addStatement (before : Lines) (depth : Nat) {kept : Lines}
    (hlines : kept.lines ≠ #[]) (s : Statement) :
    (before.among depth kept).addStatement s
      = before.among depth (kept.addStatement s) := by
  obtain ⟨others, line, hlast⟩ : ∃ others line,
      kept.lines.toList = others ++ [line] :=
    ⟨_, _,
      (List.dropLast_concat_getLast (mt Array.toList_eq_nil_iff.1 hlines)).symm⟩
  -- The last of all lines is the last of those after the others.
  have hlast' : (before.among depth kept).lines.toList
      = (before.lines.toList ++ others.map (Line.deeper depth))
        ++ [line.deeper depth] := by
    unfold among
    rw [Array.toList_append, Array.toList_map, hlast, List.map_append,
      List.append_assoc]
    rfl
  have hadded : ((before.among depth kept).addStatement s).lines
      = (before.among depth (kept.addStatement s)).lines := by
    refine Array.toList_inj.1 ?_
    rw [addStatement_lines hlast']
    unfold among
    rw [Array.toList_append, Array.toList_map, addStatement_lines hlast,
      List.map_append, List.append_assoc]
    rfl
  exact congrArg (Lines.mk · (before.comments ++ kept.comments) kept.current)
    hadded

/-- An event is collected after other lines as it is alone, if a statement that
is open has a line to stand on. Only a line and the end of a statement touch the
lines; the others depend on the open statement alone. -/
theorem among_handler (before : Lines) (depth : Nat) (event : Event)
    {kept : Lines} (hstarted : kept.current ≠ none → kept.lines ≠ #[]) :
    handler (event.deeper depth) (before.among depth kept)
      = (before.among depth (handler event kept).1,
        (handler event kept).2) := by
  cases event with
  | line indent =>
      have hpushed : (before.lines ++ kept.lines.map (Line.deeper depth)).push
            { indent := depth + indent, statements := [] }
          = before.lines ++ (kept.lines.push { indent, statements := [] }).map
            (Line.deeper depth) := by
        rw [Array.map_push, Array.append_push]
        rfl
      exact congrArg (fun lines => (Lines.mk lines _ kept.current, none))
        hpushed
  | statement name isReference isGuard => rfl
  | attr name value =>
      show handler (.attr name value) _ = _
      have hcurrent : (before.among depth kept).current = kept.current := rfl
      rw [handler, handler, hcurrent]
      cases hkept : kept.current with
      | none => rfl
      | some statement =>
          dsimp only
          cases statement.addAttribute name value <;> rfl
  | endStatement =>
      show handler .endStatement _ = _
      have hcurrent : (before.among depth kept).current = kept.current := rfl
      rw [handler, handler, hcurrent]
      cases hkept : kept.current with
      | none => rfl
      | some statement =>
          have hlines : ({ kept with current := none } : Lines).lines ≠ #[] :=
            hstarted (hkept ▸ Option.some_ne_none statement)
          exact congrArg (·, none)
            (among_addStatement before depth hlines statement)
  | endLine => rfl
  | comment text =>
      have hpushed : (before.comments ++ kept.comments).push text
          = before.comments ++ kept.comments.push text := Array.push_append
      exact congrArg (fun comments => (Lines.mk _ comments kept.current, none))
        hpushed

/-- Whether a collector can go on with events: a statement needs a line to
stand on. -/
def Ready (kept : Lines) (es : List Event) : Prop :=
  kept.lines ≠ #[] ∨ kept.current = none ∧ Headed es

/-- A collector that was told of one event can go on with the next. -/
theorem Ready.next {kept kept' : Lines} {event : Event} {es : List Event}
    (h : kept.Ready (event :: es))
    (htaken : handler event kept = (kept', none)) :
    kept'.Ready es := by
  rcases h with hlines | ⟨hnone, hheaded⟩
  · exact .inl (handler_lines_ne hlines htaken)
  · cases hheaded with
    | comment hrest =>
        cases htaken
        exact .inr ⟨hnone, hrest⟩
    | line =>
        cases htaken
        exact .inl Array.push_ne_empty

/-- Events of lines are collected after other lines as they are alone. By
induction on the events. Whatever the collector refuses alone it refuses after
other lines as well. -/
theorem among_listen (before : Lines) (depth : Nat) {es : List Event}
    {kept : Lines} (h : kept.Ready es) :
    listen handler (es.map (Event.deeper depth)) (before.among depth kept)
      = (before.among depth (listen handler es kept).1,
        (listen handler es kept).2) := by
  induction es generalizing kept with
  | nil => rfl
  | cons event es ih =>
      have hstarted : kept.current ≠ none → kept.lines ≠ #[] := by
        intro hcurrent
        rcases h with hlines | ⟨hnone, -⟩
        · exact hlines
        · exact absurd hnone hcurrent
      have hboth := among_handler before depth event hstarted
      rw [List.map_cons]
      rcases hevent : handler event kept with ⟨kept₁, _ | fault⟩
      · rw [hevent] at hboth
        rw [listen_cons_of_taken hboth, listen_cons_of_taken hevent]
        exact ih (h.next hevent)
      · rw [hevent] at hboth
        rw [listen_cons_of_refused hboth, listen_cons_of_refused hevent]

/-- The end of a statement leaves none open. -/
theorem current_of_endStatement {kept kept' : Lines}
    (h : listen handler [.endStatement] kept = (kept', none)) :
    kept'.current = none := by
  rw [listen, handler] at h
  cases hcurrent : kept.current with
  | none =>
      rw [hcurrent] at h
      cases h
      exact hcurrent
  | some statement =>
      rw [hcurrent] at h
      cases h
      rfl

/-- No statement is left incomplete at the end of a line. -/
theorem current_of_line {line : List Char} {es : List Event}
    (hline : Grammar.Line line es) {kept kept' : Lines}
    (hnone : kept.current = none) (h : listen handler es kept = (kept', none)) :
    kept'.current = none := by
  cases hline with
  | blank _ hcomment =>
      cases hcomment <;> (cases h; exact hnone)
  | @full _ _ _ _ indent es fs _ hrow _ hcomment =>
      obtain ⟨before, rfl⟩ := hrow.ends
      have h :
          listen handler ((.line indent :: before) ++ [.endStatement]
            ++ (fs ++ [.endLine])) kept
          = (kept', none) := h
      obtain ⟨kept₂, hstatements, hrest⟩ := listen_append_eq_none_iff.1 h
      obtain ⟨kept₁, -, hend⟩ := listen_append_eq_none_iff.1 hstatements
      have hnone₂ := current_of_endStatement hend
      cases hcomment <;> (cases hrest; exact hnone₂)

/-- Nor does the end of many lines. -/
theorem current_of_lines {lines : List (List Char)} {kept kept' : Lines}
    (hlegible : ∀ line ∈ lines, ∃ rest, (readLine line).stop = .ok rest)
    (hnone : kept.current = none)
    (h : listen handler (lines.flatMap (lineEvents true)) kept
      = (kept', none)) :
    kept'.current = none := by
  induction lines generalizing kept with
  | nil =>
      cases h
      exact hnone
  | cons line lines ih =>
      obtain ⟨⟨rest, hstop⟩, hlegible⟩ := List.forall_mem_cons.1 hlegible
      have hline := readLine_sound hstop
      rw [List.flatMap_cons, lineEvents_of_line hline] at h
      obtain ⟨kept₁, hkept₁, h⟩ := listen_append_eq_none_iff.1 h
      exact ih hlegible (current_of_line hline hnone hkept₁) h

/-- What was collected, and nothing after it. -/
theorem among_empty {before : Lines} (h : before.current = none) (depth : Nat) :
    before.among depth empty = before := by
  unfold among empty
  obtain ⟨lines, comments, current⟩ := before
  cases h
  simp

end Lines

-- ============================================================= passages

/-- The lines that were collected after others are behind them, with more
indentation. -/
theorem Lines.among_toList (before : Lines) (depth : Nat) (kept : Lines) :
    (before.among depth kept).lines.toList
      = before.lines.toList ++ kept.lines.toList.map (Line.deeper depth) := by
  unfold among
  rw [Array.toList_append, Array.toList_map]

/-- Without more indentation they are as they were. -/
theorem Lines.among_zero_toList (before kept : Lines) :
    (before.among 0 kept).lines.toList
      = before.lines.toList ++ kept.lines.toList := by
  rw [among_toList, List.map_congr_left fun line _ => line.deeper_zero,
    List.map_id']

/-- Lines are collected after others as they are alone. -/
theorem listen_after (lines : List (List Char)) {before : Lines}
    (h : before.current = none) :
    listen Lines.handler (lines.flatMap (lineEvents true)) before
      = (before.among 0
        (listen Lines.handler (lines.flatMap (lineEvents true)) Lines.empty).1,
        (listen Lines.handler (lines.flatMap (lineEvents true))
          Lines.empty).2) := by
  have hready : Lines.empty.Ready (lines.flatMap (lineEvents true)) :=
    .inr ⟨rfl, headed_flatMap true lines⟩
  have hlisten := Lines.among_listen before 0 hready
  rw [Lines.among_empty h, List.map_congr_left fun event _ => event.deeper_zero,
    List.map_id'] at hlisten
  exact hlisten

/-- An empty line has no statements. -/
theorem reads_blank : Reads [[]] [] := ⟨Lines.empty, rfl, rfl⟩

/-- The statements of two passages, one after the other. At the end of the first
lines no statement is open, so that the others are collected as they are alone.
-/
theorem reads_append {before after : List (List Char)} {rows : List Line} :
    Reads (before ++ after) rows ↔
      ∃ rows₁ rows₂, Reads before rows₁ ∧ Reads after rows₂
        ∧ rows = rows₁ ++ rows₂ := by
  simp only [reads_iff, List.forall_mem_append, List.flatMap_append,
    listen_append_eq_none_iff]
  constructor
  · intro h
    obtain ⟨⟨hbefore, hafter⟩, kept, ⟨kept₁, hkept₁, hkept⟩, rfl⟩ := h
    rw [listen_after after (Lines.current_of_lines hbefore rfl hkept₁)] at hkept
    obtain ⟨rfl, hkept₂⟩ := Prod.mk.inj hkept
    exact ⟨_, _, ⟨hbefore, kept₁, hkept₁, rfl⟩,
      ⟨hafter, _, Prod.ext rfl hkept₂, rfl⟩, Lines.among_zero_toList _ _⟩
  · intro h
    obtain ⟨_, _, ⟨hbefore, kept₁, hkept₁, rfl⟩, ⟨hafter, kept₂, hkept₂, rfl⟩,
      rfl⟩ := h
    have hkept := listen_after after (Lines.current_of_lines hbefore rfl hkept₁)
    rw [hkept₂] at hkept
    exact ⟨⟨hbefore, hafter⟩, _, ⟨kept₁, hkept₁, hkept⟩,
      Lines.among_zero_toList _ _⟩

/-- A text gives a tree with a passage in it exactly if it does so with the
statements of the passage. -/
theorem parse_eq_ok_iff_around {E T : Type} [Behavior E T] {dialect : Dialect T}
    {text : String} {root : Blueprint T}
    {before passage after : List (List Char)} {rows : List Line}
    (htext : splitLines text.toList = before ++ (passage ++ after))
    (hrows : Reads passage rows) :
    (dialect.parse text).2 = .ok root ↔
      ∃ rows₁ rows₂, Reads before rows₁ ∧ Reads after rows₂
        ∧ Scaffold.empty.takeLines dialect (rows₁ ++ (rows ++ rows₂))
          >>= Scaffold.finish
          = .ok root := by
  rw [parse_eq_ok_iff_reads, htext]
  constructor
  · intro h
    obtain ⟨_, hall, hroot⟩ := h
    obtain ⟨rows₁, _, hbefore, hrest, rfl⟩ := reads_append.1 hall
    obtain ⟨rows', rows₂, hpassage, hafter, rfl⟩ := reads_append.1 hrest
    cases hpassage.unique hrows
    exact ⟨rows₁, rows₂, hbefore, hafter, hroot⟩
  · intro h
    obtain ⟨rows₁, rows₂, hbefore, hafter, hroot⟩ := h
    have hrest := reads_append.2 ⟨rows, rows₂, hrows, hafter, rfl⟩
    exact ⟨_, reads_append.2 ⟨rows₁, _, hbefore, hrest, rfl⟩, hroot⟩

/-- A passage that is moved to the right. -/
theorem Reads.deeper {lines : List (List Char)} {rows : List Line} (depth : Nat)
    (h : Reads lines rows) :
    Reads (lines.map fun line => List.replicate depth ' ' ++ line)
      (rows.map (Line.deeper depth)) := by
  obtain ⟨hlegible, kept, hkept, rfl⟩ := reads_iff.1 h
  -- Every line, with the spaces in front of it, is a line of the grammar with
  -- the same events but for its indentation.
  have hline : ∀ line ∈ lines,
      Gives (readLine (List.replicate depth ' ' ++ line))
      ((lineEvents true line).map (Event.deeper depth)) [] := by
    intro line hmem
    obtain ⟨rest, hstop⟩ := hlegible line hmem
    exact readLine_complete ((readLine_sound hstop).deeper depth)
  have hevents :
      (lines.map fun line => List.replicate depth ' ' ++ line).flatMap
        (lineEvents true)
      = (lines.flatMap (lineEvents true)).map (Event.deeper depth) := by
    rw [List.flatMap_map, List.map_flatMap]
    exact List.flatMap_congr fun line hmem => (hline line hmem).events
  have hready : Lines.empty.Ready (lines.flatMap (lineEvents true)) :=
    .inr ⟨rfl, headed_flatMap true lines⟩
  have hlisten := Lines.among_listen Lines.empty depth hready
  rw [Lines.among_empty rfl, hkept, ← hevents] at hlisten
  refine reads_iff.2
    ⟨List.forall_mem_map.2 fun line hmem => ⟨_, (hline line hmem).stop⟩, _,
    hlisten, ?_⟩
  rw [Lines.among_toList]
  rfl

end TaskTree.Outline
