/-
The events of a text as a regular language.

A comment may stand alone on its line, and every other line with events is
one of statements: its beginning, one statement or more with their
attributes, possibly a comment, and its end. `Words.text` is the language
of such rows of lines. A text that can be read gives one of its words, and a
text with a fault of spelling gives what a word of it begins with
(`heard_stream`), since whatever has begun by then can be completed.
-/
import Mathlib.Computability.Language
import TaskTree.Proofs.Outline.Listening

namespace TaskTree.Outline

open scoped Computability

-- =============================================================== the words

namespace Words

/-- A comment. -/
def comment : Language Event := {es : List Event | ∃ text, es = [.comment text]}

/-- An attribute. -/
def attr : Language Event :=
  {es : List Event | ∃ name value, es = [.attr name value]}

/-- The beginning of a statement. -/
def opening : Language Event :=
  {es : List Event | ∃ name isReference isGuard,
      es = [.statement name isReference isGuard]}

/-- The beginning of a line. -/
def margin : Language Event := {es : List Event | ∃ indent, es = [.line indent]}

/-- A statement with its attributes. -/
def statement : Language Event := opening * attr∗ * {[.endStatement]}

/-- Statements up to the end of their line, at least one. -/
def statements : Language Event :=
  statement * (statement∗ * ((1 + comment) * {[.endLine]}))

/-- A line with statements. -/
def line : Language Event := margin * statements

/-- The events of a whole text. -/
def text : Language Event := (comment + line)∗

/-- The row of events begins a word, and is that word if it is complete. -/
def Begins (words : Language Event) (complete : Prop)
    (es : List Event) : Prop :=
  ∃ tail, es ++ tail ∈ words ∧ (complete → tail = [])

variable {words words' : Language Event} {complete complete' : Prop}
  {es fs : List Event}

/-- A whole word begins with itself. -/
theorem begins_of_mem (h : es ∈ words) (complete : Prop) :
    Begins words complete es :=
  ⟨[], (List.append_nil es).symm ▸ h, fun _ => rfl⟩

/-- Events that are complete are a word. -/
theorem Begins.mem (h : Begins words complete es) (hcomplete : complete) :
    es ∈ words := by
  obtain ⟨tail, hword, htail⟩ := h
  rw [htail hcomplete, List.append_nil] at hword
  exact hword

/-- After a whole word another one begins. -/
theorem Begins.after (h : Begins words complete fs) (hes : es ∈ words') :
    Begins (words' * words) complete (es ++ fs) := by
  obtain ⟨tail, hword, htail⟩ := h
  refine ⟨tail, ?_, htail⟩
  rw [List.append_assoc]
  exact Language.append_mem_mul hes hword

/-- What begins a word begins a longer one, too, of which it is not the
whole. -/
theorem Begins.before (h : Begins words complete es) (hfs : fs ∈ words')
    (hnot : ¬ complete') :
    Begins (words * words') complete' es := by
  obtain ⟨tail, hword, -⟩ := h
  refine ⟨tail ++ fs, ?_, fun hcomplete => absurd hcomplete hnot⟩
  rw [← List.append_assoc]
  exact Language.append_mem_mul hword hfs

/-- Words of repetitions joined are a word of repetitions. -/
theorem append_mem_kstar (hes : es ∈ words∗) (hfs : fs ∈ words∗) :
    es ++ fs ∈ words∗ := by
  rw [← kstar_mul_kstar]
  exact Language.append_mem_mul hes hfs

/-- One repetition is a word of repetitions. -/
theorem mem_kstar_of_mem (hes : es ∈ words) : es ∈ words∗ :=
  le_kstar (a := words) hes

-- ============================================================== statements

/-- One attribute is a word. -/
theorem attr_mem (name : String) (value : Literal) :
    [.attr name value] ∈ attr := ⟨name, value, rfl⟩

/-- The opening event of a statement is a word. -/
theorem opening_mem (name : String) (isReference isGuard : Bool) :
    [.statement name isReference isGuard] ∈ opening :=
  ⟨name, isReference, isGuard, rfl⟩

/-- The event of a line is a word. -/
theorem margin_mem (indent : Nat) : [.line indent] ∈ margin := ⟨indent, rfl⟩

/-- A line that has its statements may end, with its comment or without. -/
theorem ending_mem {cs : List Event} (hcs : cs = [] ∨ cs ∈ comment) :
    cs ++ [.endLine] ∈ statement∗ * ((1 + comment) * {[.endLine]}) :=
  Language.append_mem_mul (a := []) (Language.nil_mem_kstar statement)
    (Language.append_mem_mul ((Language.mem_add 1 comment cs).2 hcs) rfl)

/-- A name, its attributes and the end make a statement. -/
theorem statement_mem (name : String) (isReference isGuard : Bool)
    (hes : es ∈ attr∗) :
    .statement name isReference isGuard :: (es ++ [.endStatement])
      ∈ statement :=
  Language.append_mem_mul
    (Language.append_mem_mul (opening_mem name isReference isGuard) hes) rfl

/-- One more statement before others. -/
theorem Begins.statement_cons (h : Begins statements complete fs)
    (hes : es ∈ statement) :
    Begins statements complete (es ++ fs) := by
  obtain ⟨tail, hword, htail⟩ := h
  obtain ⟨first, hfirst, rest, hrest, hsplit⟩ := Language.mem_mul.1 hword
  obtain ⟨more, hmore, ending, hending, rfl⟩ := Language.mem_mul.1 hrest
  have hmore' : first ++ more ∈ statement∗ :=
    append_mem_kstar (mem_kstar_of_mem hfirst) hmore
  refine ⟨tail, ?_, htail⟩
  rw [List.append_assoc, ← hsplit, ← List.append_assoc first]
  exact Language.append_mem_mul hes (Language.append_mem_mul hmore' hending)

/-- No comment stands in a statement. -/
theorem not_isComment_of_statement (h : es ∈ statement) :
    ∀ e ∈ es, e.isComment = false := by
  -- The event is the opening, an attribute or the end.
  obtain ⟨front, hfront, ending, rfl, rfl⟩ := Language.mem_mul.1 h
  obtain ⟨first, ⟨name, isReference, isGuard, rfl⟩, attrs, hattrs, rfl⟩ :=
    Language.mem_mul.1 hfront
  obtain ⟨rows, rfl, hrows⟩ := Language.mem_kstar.1 hattrs
  intro e he
  rcases List.mem_append.1 he with he | he
  · rcases List.mem_append.1 he with he | he
    · rw [List.mem_singleton.1 he]
      rfl
    · obtain ⟨row, hrow, he⟩ := List.mem_flatten.1 he
      obtain ⟨name, value, rfl⟩ := hrows row hrow
      rw [List.mem_singleton.1 he]
      rfl
  · rw [List.mem_singleton.1 he]
    rfl

end Words

open Words

/-- Attributes are read one event at a time, and a fault among them leaves the
ones before it. -/
theorem readAttributes_stream (cs : List Char) :
    (readAttributes cs).events ∈ attr∗ := by
  fun_induction readAttributes cs with
  | case1 | case2 | case3 => exact Language.nil_mem_kstar attr
  | case4 | case6 => exact mem_kstar_of_mem (attr_mem _ _)
  | case5 =>
      rename_i ih
      exact append_mem_kstar (mem_kstar_of_mem (attr_mem _ _)) ih

/-- The events of a statement are a statement, up to the fault. -/
theorem readStatement_stream (cs : List Char) :
    Begins statement (∃ rest, (readStatement cs).stop = .ok rest)
      (readStatement cs).events := by
  -- The statement stops at its name, inside its parentheses, or not at all; an
  -- unfinished one lacks only its end.
  rw [readStatement]
  dsimp only
  split
  · exact ⟨_, statement_mem "" false false (Language.nil_mem_kstar attr),
      fun h => by
      obtain ⟨rest, hrest⟩ := h
      cases hrest⟩
  rename_i name rest _
  split
  · rename_i _ inner _
    have hbody :=
      statement_mem (String.ofList name)
        (readFlag ['-', '>'] (readFlag ['?'] cs).2).1 (readFlag ['?'] cs).1
        (readAttributes_stream inner)
    split
    · exact ⟨[.endStatement], hbody, fun h => by
        obtain ⟨rest, hrest⟩ := h
        cases hrest⟩
    · refine begins_of_mem ?_ _
      rw [Reading.events, List.map_append]
      exact hbody
  · exact begins_of_mem (statement_mem _ _ _ (Language.nil_mem_kstar attr)) _

/-- All events of a statement are told. -/
theorem told_of_readStatement (comments : Bool) {cs : List Char} {event : Event}
    (h : event ∈ (readStatement cs).events) : told comments event = true := by
  obtain ⟨tail, hword, -⟩ := readStatement_stream cs
  rw [told, not_isComment_of_statement hword event (List.mem_append_left _ h)]
  exact Bool.or_true comments

/-- Every event of a statement is told, whether comments are or not. -/
theorem readStatement_told (comments : Bool) (cs : List Char) :
    (readStatement cs).events.filter (told comments)
      = (readStatement cs).events :=
  List.filter_eq_self.2 fun _ h => told_of_readStatement comments h

-- =================================================================== lines

/-- The end of a line is always told. -/
theorem told_endLine (comments : Bool) :
    [Event.endLine].filter (told comments) = [.endLine] :=
  List.filter_cons_of_pos (Bool.or_true comments)

/-- A comment is told or left out. -/
theorem told_comment (comments : Bool) (text : String) :
    [Event.comment text].filter (told comments) = []
      ∨ [Event.comment text].filter (told comments) ∈ comment := by
  cases comments with
  | false => exact .inl rfl
  | true => exact .inr ⟨text, rfl⟩

theorem readStatements_stream (comments : Bool) (cs : List Char) :
    Begins statements (∃ rest, (readStatements cs).stop = .ok rest)
      ((readStatements cs).events.filter (told comments)) := by
  -- Along the recursion over the statements of a line; the five cases are a
  -- fault inside, the end of the line, a comment, a stray character and a
  -- further statement.
  fun_induction readStatements cs with
  | case1 cs first fault hfirst =>
      have hnot : ¬ ∃ rest, first.stop = .ok rest := by
        rw [hfirst]
        exact fun ⟨_, h⟩ => nomatch h
      rw [readStatement_told]
      exact (readStatement_stream cs).before (ending_mem (.inl rfl)) hnot
  | case2 cs first rest hfirst hend =>
      refine begins_of_mem ?_ _
      rw [Reading.events, List.map_append, List.filter_append, ← Reading.events,
        readStatement_told]
      exact Language.append_mem_mul
        ((readStatement_stream cs).mem ⟨rest, hfirst⟩)
        (told_endLine comments ▸ ending_mem (.inl rfl))
  | case3 cs first rest hfirst more hend =>
      refine begins_of_mem ?_ _
      rw [Reading.events, List.map_append, List.filter_append, ← Reading.events,
        readStatement_told]
      have hended :=
        ending_mem (told_comment comments (String.ofList (trimReturns more)))
      have hlast : ([commentMark more, (.endLine, [])].map (·.1)).filter
          (told comments)
          = [Event.comment (String.ofList (trimReturns more))].filter
            (told comments)
            ++ [.endLine] := by
        rw [← told_endLine comments, ← List.filter_append]
        rfl
      rw [hlast]
      exact Language.append_mem_mul
        ((readStatement_stream cs).mem ⟨rest, hfirst⟩) hended
  | case4 cs first rest hfirst c more hmore hhash hgap =>
      have hnot : ¬ ∃ rest : List Char,
          Except.error (SyntaxFault.strayChar c, c :: more) = .ok rest :=
        fun ⟨_, h⟩ => nomatch h
      have hbegins :=
        (readStatement_stream cs).before (ending_mem (.inl rfl)) hnot
      rw [← readStatement_told comments] at hbegins
      exact hbegins
  | case5 cs first rest hfirst c more hmore hhash hgap hlt ih =>
      rw [Reading.events, Reading.after, List.map_append, List.filter_append,
        ← Reading.events, ← Reading.events, readStatement_told]
      exact ih.statement_cons ((readStatement_stream cs).mem ⟨rest, hfirst⟩)

/-- The empty text is a word. -/
theorem nil_mem_text : [] ∈ Words.text :=
  Language.nil_mem_kstar (comment + line)

/-- The events of a line that can be read are a part of a text. The line has
nothing but blanks, a comment, or a margin with its statements. -/
theorem lineEvents_stream (comments : Bool) (line : List Char) :
    Begins Words.text (∃ rest, (readLine line).stop = .ok rest)
      (lineEvents comments line) := by
  rw [lineEvents_eq_filter, readLine]
  split
  · exact begins_of_mem nil_mem_text _
  rename_i c more hskip
  split
  · refine begins_of_mem ?_ _
    rcases told_comment comments (String.ofList (trimReturns more)) with hnone |
        hcomment
    · exact hnone ▸ nil_mem_text
    · exact mem_kstar_of_mem (.inl hcomment)
  · obtain ⟨tail, hword, htail⟩ :=
      (readStatements_stream comments (c :: more)).after
        (margin_mem (line.takeWhile isIndent).length)
    refine ⟨tail, mem_kstar_of_mem (.inr ?_), htail⟩
    have hmargin : [Event.line (line.takeWhile isIndent).length].filter
        (told comments)
        = [.line (line.takeWhile isIndent).length] :=
      List.filter_cons_of_pos (Bool.or_true comments)
    rw [← hmargin, ← List.filter_append] at hword
    exact hword

/-- The events of lines up to the first that cannot be read to its end. -/
def heard (comments : Bool) : List (List Char) → List Event
  | [] => []
  | line :: lines =>
    lineEvents comments line
      ++ match (readLine line).stop with
        | .ok _ => heard comments lines
        | .error _ => []

/-- What there is to be heard of a text is a word of the language, or the
beginning of one. -/
theorem heard_stream (comments : Bool) (lines : List (List Char)) :
    ∃ word ∈ Words.text, heard comments lines <+: word := by
  induction lines with
  | nil => exact ⟨[], nil_mem_text, List.prefix_refl _⟩
  | cons line lines ih =>
      have hline := lineEvents_stream comments line
      rw [heard]
      split
      · rename_i rest hstop
        obtain ⟨word, hword, hbegins⟩ := ih
        exact ⟨_, append_mem_kstar (hline.mem ⟨rest, hstop⟩) hword,
          (List.prefix_append_right_inj _).2 hbegins⟩
      · obtain ⟨tail, hword, -⟩ := hline
        rw [List.append_nil]
        exact ⟨_, hword, List.prefix_append _ tail⟩

end TaskTree.Outline
