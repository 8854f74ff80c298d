/-
What is left of a line when an event comes up.

Every event of a line stands for a piece of it (`Spells`): the margin for
the beginning of the line, the marks and the name for the beginning of a
statement, and so on, each with the separators before it. The pieces follow
one another without a gap, from the beginning of the line (`Unread`). So the
text that comes with an event is what follows its piece, and that holds for
the events before a fault of spelling as well, which no rule of the grammar
derives.

What an event stands for depends on the one before it: the bracket that
opens a list of attributes belongs to the first of them, or to the end of
the statement if there is none. With the event before it at hand no two
pieces of a line fit one event, so that a line and its events leave one text
only (`Unread.unique`).
-/
import TaskTree.Proofs.Outline.Derivation
import TaskTree.Proofs.Outline.Stream

namespace TaskTree.Outline

open Grammar (Space)

-- ================================================================= pieces

/-- What has to be opened after an event before an attribute or the end of a
list can come: behind the name of a statement its bracket, behind another
attribute nothing. -/
inductive Opening : Option Event → List Char → Prop where
  | name {name : String} {isReference isGuard : Bool} :
      Opening (some (.statement name isReference isGuard)) ['(']
  | attr {name : String} {value : Literal} :
      Opening (some (.attr name value)) []

/-- The piece of a line that is read for an event, and what follows it. The
first argument is the event before, if there is one. -/
inductive Spells : Option Event → Event → List Char → List Char → Prop where
  /-- A margin, up to the first character that is no space. -/
  | line {last : Option Event} {margin rest : List Char} {indent : Nat}
      (before : Grammar.Margin margin indent) (stop : Stops isSpace rest) :
      Spells last (.line indent) margin rest
  /-- The head of a statement, as far as its name goes. -/
  | statement {last : Option Event}
      {space guard reference name rest : List Char} {isReference isGuard : Bool}
      (apart : Space space) (guarded : Grammar.Flag ['?'] guard isGuard)
      (referred : Grammar.Flag ['-', '>'] reference isReference)
      (named : Grammar.Name name) (stop : Stops isNameChar rest) :
      Spells last (.statement (String.ofList name) isReference isGuard)
        (space ++ (guard ++ (reference ++ name))) rest
  /-- A bare value goes on as far as it can, a quoted one ends with its
  quote. -/
  | attr {last : Option Event} {opening space word rest : List Char}
      {name : String} {value : Literal} (listed : Opening last opening)
      (apart : Space space)
      (written : Grammar.Attribute word [.attr name value])
      (stop : EndsValue rest ∨ ∃ text, value = .text text) :
      Spells last (.attr name value) (opening ++ (space ++ word)) rest
  /-- A statement without brackets ends behind its name. -/
  | bare {name : String} {isReference isGuard : Bool} {rest : List Char}
      (stop : rest.head? ≠ some '(') :
      Spells (some (.statement name isReference isGuard)) .endStatement [] rest
  /-- A statement with brackets ends behind the closing one. -/
  | closed {last : Option Event} {opening space rest : List Char}
      (listed : Opening last opening) (apart : Space space) :
      Spells last .endStatement (opening ++ (space ++ [')'])) rest
  /-- A comment comes up before its text is passed over. -/
  | comment {last : Option Event} {space text returns : List Char}
      (apart : Space space) (ends : text.getLast? ≠ some '\r')
      (trailing : ∀ c ∈ returns, c = '\r') :
      Spells last (.comment (String.ofList text)) (space ++ ['#'])
      (text ++ returns)
  /-- At its end nothing is left of a line. -/
  | endLine {last : Option Event} {piece : List Char} :
      Spells last .endLine piece []

/-- Of a line that goes on with `cs` after the event `last` and then gives
some events, `rest` is left when the last of these comes up. -/
inductive Unread :
    Option Event → List Char → List Event → List Char → Prop where
  | nil {last : Option Event} {cs : List Char} : Unread last cs [] cs
  | cons {last : Option Event} {event : Event} {piece between rest : List Char}
      {es : List Event} (spells : Spells last event piece between)
      (unread : Unread (some event) between es rest) :
      Unread last (piece ++ between) (event :: es) rest

/-- Every event of a row of marks comes up with the text that is left then. -/
def Accurate (last : Option Event) (cs : List Char)
    (marks : List Mark) : Prop :=
  ∀ before event rest after, marks = before ++ (event, rest) :: after →
    Unread last cs (before.map (·.1) ++ [event]) rest

-- ============================================================= uniqueness

/-- What has to be opened is told by the event before. -/
theorem Opening.unique {last : Option Event} {opening opening' : List Char}
    (h : Opening last opening) (h' : Opening last opening') :
    opening = opening' := by
  cases h <;> cases h' <;> rfl

/-- Two texts behind separators are the same if neither begins with one. -/
theorem Grammar.Space.append_inj {space space' rest rest' : List Char}
    (hspace : Space space) (hspace' : Space space') (hrest : Stops isSpace rest)
    (hrest' : Stops isSpace rest') (h : space ++ rest = space' ++ rest') :
    rest = rest' := by
  rw [← skipSpace_complete hspace hrest, h, skipSpace_complete hspace' hrest']

/-- A flag is told by its presence. -/
theorem Grammar.Flag.unique {word flag flag' : List Char} {present : Bool}
    (h : Grammar.Flag word flag present)
    (h' : Grammar.Flag word flag' present) :
    flag = flag' := by
  cases h <;> cases h' <;> rfl

/-- The head of a statement does not begin with a separator. -/
theorem stops_head {guard reference name : List Char}
    {isGuard isReference : Bool} (hguard : Grammar.Flag ['?'] guard isGuard)
    (hreference : Grammar.Flag ['-', '>'] reference isReference)
    (hname : Grammar.Name name) (rest : List Char) :
    Stops isSpace (guard ++ (reference ++ name) ++ rest) := by
  -- The first character is that of a mark or of the name.
  intro c hc
  cases hguard with
  | present =>
      cases hc
      rfl
  | absent =>
      cases hreference with
      | present =>
          cases hc
          rfl
      | absent =>
          cases hname with
          | mk hstart =>
              cases hc
              exact not_isSpace_of_nameStart hstart

/-- An attribute does not begin with a separator. -/
theorem Grammar.Attribute.stops {word : List Char} {es : List Event}
    (h : Grammar.Attribute word es) (rest : List Char) :
    Stops isSpace (word ++ rest) := by
  obtain ⟨c, more, rfl, hstart⟩ := h.start
  intro d hd
  cases hd
  exact not_isSpace_of_nameStart hstart

/-- After the event before it an event stands for one piece only of what is left
of a line. One case per event. In each both pieces have the same form, and what
follows the form cannot begin like it, so the texts split in the same place. -/
theorem Spells.unique {last : Option Event} {event : Event}
    {piece piece' rest rest' : List Char} (h : Spells last event piece rest)
    (h' : Spells last event piece' rest')
    (hsame : piece ++ rest = piece' ++ rest') :
    rest = rest' := by
  cases h with
  | line hbefore hstop =>
      cases h' with
      | line hbefore' hstop' =>
          exact Grammar.Space.append_inj (margin_complete hbefore hstop).1
            (margin_complete hbefore' hstop').1 hstop hstop' hsame
  | @statement _ space guard reference name _ _ _ hspace hguard hreference
        hname =>
      generalize hword : String.ofList name = word at h'
      cases h' with
      | @statement _ space' _ _ name' _ _ _ hspace' hguard' hreference'
            hname' =>
          obtain rfl := String.ofList_injective hword
          obtain rfl := hguard.unique hguard'
          obtain rfl := hreference.unique hreference'
          rw [List.append_assoc space, List.append_assoc space'] at hsame
          have htails := Grammar.Space.append_inj hspace hspace'
            (stops_head hguard hreference hname rest)
            (stops_head hguard hreference hname rest') hsame
          exact List.append_cancel_left htails
  | @attr _ opening space word _ name value hlisted hspace hword hstop =>
      cases h' with
      | @attr _ opening' space' word' _ _ _ hlisted' hspace' hword' hstop' =>
          obtain rfl := hlisted.unique hlisted'
          simp only [List.append_assoc, List.append_cancel_left_eq] at hsame
          have htails :=
            Grammar.Space.append_inj hspace hspace' (hword.stops rest)
              (hword'.stops rest') hsame
          -- Both are what the reader of attributes leaves of the same text.
          have hread := readAttribute_complete hword hstop
          rw [htails, readAttribute_complete hword' hstop'] at hread
          cases hread
          rfl
  | bare hbare =>
      cases h' with
      | bare => exact hsame
      | closed hlisted' =>
          -- A bracket that is due would be the first of what is left.
          cases hlisted'
          rw [List.nil_append] at hsame
          exact absurd (congrArg List.head? hsame) hbare
  | @closed _ opening space _ hlisted hspace =>
      cases h' with
      | bare hbare' =>
          cases hlisted
          rw [List.nil_append] at hsame
          exact absurd (congrArg List.head? hsame.symm) hbare'
      | @closed _ opening' space' _ hlisted' hspace' =>
          obtain rfl := hlisted.unique hlisted'
          simp only [List.append_assoc, List.append_cancel_left_eq,
            List.singleton_append] at hsame
          exact (List.cons.inj (Grammar.Space.append_inj hspace hspace'
            (stops_cons rfl rest) (stops_cons rfl rest') hsame)).2
  | comment hspace =>
      generalize htext : Event.comment _ = event at h'
      cases h' with
      | comment hspace' =>
          simp only [List.append_assoc, List.singleton_append] at hsame
          exact (List.cons.inj (Grammar.Space.append_inj hspace hspace'
            (stops_cons rfl _) (stops_cons rfl _) hsame)).2
      | _ => cases htext
  | endLine =>
      cases h'
      rfl

/-- What is left of a line after some of its events is determined by the line
and the events. -/
theorem Unread.unique {last : Option Event} {cs rest rest' : List Char}
    {es : List Event} (h : Unread last cs es rest)
    (h' : Unread last cs es rest') : rest = rest' := by
  induction h with
  | nil =>
      cases h'
      rfl
  | @cons last event piece between rest es spells unread ih =>
      generalize hwhole : piece ++ between = whole at h'
      cases h' with
      | cons spells' unread' =>
          obtain rfl := spells.unique spells' hwhole
          exact ih unread'

-- ================================================================== marks

/-- Marks whose events spell a line that goes on with `cs` after the event
`last`, until `left` is left after the event `final`. -/
inductive Spelt :
    Option Event → List Char → List Mark → Option Event → List Char → Prop where
  | nil {last : Option Event} {cs : List Char} : Spelt last cs [] last cs
  | cons {last final : Option Event} {event : Event}
      {piece rest left : List Char} {marks : List Mark}
      (spells : Spells last event piece rest)
      (spelt : Spelt (some event) rest marks final left) :
      Spelt last (piece ++ rest) ((event, rest) :: marks) final left

variable {last mid final : Option Event}

/-- One piece and its mark. -/
theorem Spells.spelt {event : Event} {piece rest : List Char}
    (h : Spells last event piece rest) :
    Spelt last (piece ++ rest) [(event, rest)] (some event) rest :=
  .cons h .nil

/-- Two stretches that are spelt one behind the other are one. -/
theorem Spelt.append {cs between left : List Char} {marks marks' : List Mark}
    (h : Spelt last cs marks mid between)
    (h' : Spelt mid between marks' final left) :
    Spelt last cs (marks ++ marks') final left := by
  induction h with
  | nil => exact h'
  | cons spells _ ih => exact .cons spells (ih h')

/-- The text of every mark is what the pieces up to its event leave. -/
theorem Spelt.accurate {cs left : List Char} {marks : List Mark}
    (h : Spelt last cs marks final left) : Accurate last cs marks := by
  induction h with
  | nil =>
      intro before event rest after heq
      cases before <;> cases heq
  | cons spells _ ih =>
      intro before event rest after heq
      cases before with
      | nil =>
          cases heq
          exact .cons spells .nil
      | cons first before =>
          obtain ⟨rfl, hrest⟩ := List.cons.inj heq
          exact .cons spells (ih before event rest after hrest)

/-- The end of a line, with nothing left. -/
theorem spelt_endLine (last : Option Event) (cs : List Char) :
    Spelt last cs [(.endLine, [])] (some .endLine) [] := by
  have hend : Spelt last (cs ++ []) [(.endLine, [])] (some .endLine) [] :=
    Spells.endLine.spelt
  rw [List.append_nil] at hend
  exact hend

/-- A comment is spelt by its mark; the text of it is left. -/
theorem spelt_comment (last : Option Event) {space : List Char}
    (hspace : Space space) (cs : List Char) :
    Spelt last (space ++ '#' :: cs) [commentMark cs]
      (some (commentMark cs).1) cs := by
  obtain ⟨returns, hreturns, hcs, hlast⟩ := trimReturns_sound cs
  have hspells : Spells last (commentMark cs).1 (space ++ ['#']) cs := by
    have hcomment : Spells last (commentMark cs).1 (space ++ ['#'])
        (trimReturns cs ++ returns) := .comment hspace hlast hreturns
    rw [← hcs] at hcomment
    exact hcomment
  have hmark := hspells.spelt
  rw [List.append_assoc] at hmark
  exact hmark

-- ============================================================ the readers

/-- A value that is not quoted goes on as far as it can. -/
theorem readValue_stops {name cs rest : List Char} {value : Literal}
    (h : readValue name cs = .ok (value, rest)) :
    EndsValue rest ∨ ∃ text, value = .text text := by
  cases cs with
  | nil => cases h
  | cons c more =>
      -- The value is a quoted text, or a token that goes on as far as it can.
      rw [readValue] at h
      split at h
      · cases h
      split at h
      · split at h
        · cases h
        · cases h
          exact .inr ⟨_, rfl⟩
      split at h
      · cases h
      rw [readToken] at h
      split at h
      · cases h
        refine .inl fun d hd => ?_
        have hstop := stops_dropWhile (fun d => !endsToken d) (c :: more) d hd
        rw [Bool.not_eq_false'] at hstop
        exact hstop
      · cases h

/-- What follows an attribute cannot belong to its value. -/
theorem readAttribute_stops {cs rest : List Char} {pair : List Char × Literal}
    (h : readAttribute cs = .ok (pair, rest)) :
    EndsValue rest ∨ ∃ text, pair.2 = .text text := by
  rw [readAttribute] at h
  split at h
  · cases h
  split at h
  · cases h
  split at h
  · split at h
    · cases h
    · rename_i hvalue
      cases h
      exact readValue_stops hvalue
  · cases h

/-- A name is read as far as it goes. -/
theorem readName_stops {cs name rest : List Char}
    (h : readName cs = .ok (name, rest)) :
    Stops isNameChar rest := by
  cases cs with
  | nil => cases h
  | cons c more =>
      rw [readName] at h
      split at h
      · cases h
        exact stops_dropWhile isNameChar more
      · cases h

/-- An attribute, with the bracket and the separators before it. -/
theorem spelt_attribute {opening cs after : List Char}
    (hopening : Opening last opening) {name : List Char} {value : Literal}
    {c : Char} {more : List Char} (hskip : skipSpace cs = c :: more)
    (hread : readAttribute (c :: more) = .ok ((name, value), after)) :
    Spelt last (opening ++ cs) [(.attr (String.ofList name) value, after)]
      (some (.attr (String.ofList name) value)) after := by
  obtain ⟨space, hspace, hcs, -⟩ := skipSpace_sound cs
  obtain ⟨word, hword, hmore⟩ := readAttribute_sound hread
  have hmark :=
    (Spells.attr hopening hspace hword (readAttribute_stops hread)).spelt
  rw [hcs, hskip, hmore]
  simpa only [List.append_assoc] using hmark

/-- The attributes of a list come up with what is left of the line. After them
the bracket that closes the list is left, and before it, if there are none, the
one that opens it. By induction along the attributes. The bracket opens the
first of them, so it is part of what the first event spells, or of the end if
there is none. -/
theorem readAttributes_spelt (cs : List Char) {opening : List Char}
    (hopening : Opening last opening) :
    ∃ final left, Spelt last (opening ++ cs)
      (readAttributes cs).marks final left
      ∧ ∀ rest, (readAttributes cs).stop = .ok rest →
        ∃ opening space, Opening final opening ∧ Space space
          ∧ left = opening ++ (space ++ ')' :: rest) := by
  have hstopped : ∀ {fault : SyntaxFault × List Char} {rest : List Char},
      Except.error fault ≠ .ok rest := nofun
  fun_induction readAttributes cs generalizing last opening with
  | case1 | case3 => exact ⟨_, _, .nil, fun _ h => absurd h hstopped⟩
  | case2 cs more hskip =>
      obtain ⟨space, hspace, hcs, -⟩ := skipSpace_sound cs
      refine ⟨_, _, .nil,
        fun rest hrest => ⟨opening, space, hopening, hspace, ?_⟩⟩
      cases hrest
      rw [hcs, hskip]
  | case4 cs c more hskip hclose name value hread =>
      exact ⟨_, _, spelt_attribute hopening hskip hread,
        fun _ h => absurd h hstopped⟩
  | case5 cs c more hskip hclose name value d after hread =>
      -- Behind an attribute nothing has to be opened for the next one.
      rename_i ih
      have hnext : Opening (some (.attr (String.ofList name) value)) [] := .attr
      obtain ⟨final, left, hspelt, hleft⟩ := ih hnext
      exact ⟨final, left, (spelt_attribute hopening hskip hread).append hspelt,
        hleft⟩
  | case6 cs c more hskip hclose name value d after hread =>
      exact ⟨_, _, spelt_attribute hopening hskip hread,
        fun _ h => absurd h hstopped⟩

/-- A statement, with the separators before it. With a bracket behind the name
there are attributes, and the closing bracket belongs to the end of the
statement. -/
theorem readStatement_spelt (last : Option Event) {space : List Char}
    (hspace : Space space) (cs : List Char) :
    ∃ final left, Spelt last (space ++ cs) (readStatement cs).marks final left
      ∧ ∀ rest, (readStatement cs).stop = .ok rest → left = rest := by
  obtain ⟨guard, hguard, hcs⟩ := readFlag_sound ['?'] cs
  obtain ⟨reference, hreference, hcs'⟩ :=
    readFlag_sound ['-', '>'] (readFlag ['?'] cs).2
  rw [readStatement]
  dsimp only
  split
  · exact ⟨_, _, .nil, fun _ h => nomatch h⟩
  rename_i name rest hname
  obtain ⟨hword, hrest⟩ := readName_sound hname
  have hspells : Spells last
      (.statement (String.ofList name)
        (readFlag ['-', '>'] (readFlag ['?'] cs).2).1 (readFlag ['?'] cs).1)
      (space ++ (guard ++ (reference ++ name))) rest :=
    .statement hspace hguard hreference hword (readName_stops hname)
  have hhead := hspells.spelt
  have hwhole : space ++ cs
      = space ++ (guard ++ (reference ++ name)) ++ rest := by
    conv_lhs => rw [hcs, hcs', hrest]
    simp only [List.append_assoc]
  rw [← hwhole] at hhead
  split
  · rename_i inner
    obtain ⟨final, left, hspelt, hleft⟩ :=
      readAttributes_spelt inner Opening.name
    have hbody := hhead.append hspelt
    split
    · exact ⟨final, left, hbody, fun _ h => nomatch h⟩
    · rename_i after hstop
      obtain ⟨opening, gap, hlisted, hgap, rfl⟩ := hleft after hstop
      have hspells' : Spells final .endStatement (opening ++ (gap ++ [')']))
          after := .closed hlisted hgap
      have hclose := hspells'.spelt
      simp only [List.append_assoc, List.singleton_append] at hclose
      refine ⟨_, after, hbody.append hclose, fun rest h => ?_⟩
      cases h
      rfl
  · rename_i hbare
    have hopen : rest.head? ≠ some '(' := fun h => by
      obtain ⟨inner, hinner⟩ := List.head?_eq_some_iff.1 h
      exact hbare inner hinner
    refine ⟨_, rest, hhead.append (Spells.bare hopen).spelt, fun rest' h => ?_⟩
    cases h
    rfl

-- ================================================================== lines

/-- All marks of a statement are told. -/
theorem readStatement_offered (comments : Bool) (cs : List Char) :
    (readStatement cs).marks.filter (fun mark => told comments mark.1)
      = (readStatement cs).marks :=
  List.filter_eq_self.2 fun _ h =>
    told_of_readStatement comments (List.mem_map_of_mem h)

/-- And so is the end of a line. -/
theorem told_endLine_mark (comments : Bool) :
    [((Event.endLine, []) : Mark)].filter (fun mark => told comments mark.1)
      = [(.endLine, [])] :=
  List.filter_cons_of_pos (Bool.or_true comments)

/-- The end of a line that has a comment, whether or not the comment is told. -/
theorem spelt_ending (comments : Bool) (last : Option Event) {space : List Char}
    (hspace : Space space) (cs : List Char) :
    Spelt last (space ++ '#' :: cs)
      ([commentMark cs, (.endLine, [])].filter fun mark => told comments mark.1)
      (some .endLine) [] := by
  cases comments with
  | true => exact (spelt_comment last hspace cs).append (spelt_endLine _ cs)
  | false => exact spelt_endLine _ _

/-- The statements of a line, with the separators before them. By induction
along the statements of the line, with the event before general: the space
between two of them belongs to the second. -/
theorem readStatements_spelt (comments : Bool) (last : Option Event)
    {space : List Char} (hspace : Space space) (cs : List Char) :
    ∃ final left, Spelt last (space ++ cs)
      ((readStatements cs).marks.filter fun mark => told comments mark.1)
      final left := by
  fun_induction readStatements cs generalizing last space with
  | case1 cs =>
      obtain ⟨final, left, hspelt, -⟩ := readStatement_spelt last hspace cs
      rw [readStatement_offered]
      exact ⟨final, left, hspelt⟩
  | case2 cs first rest hfirst =>
      rename_i hend
      obtain ⟨final, left, hspelt, hleft⟩ := readStatement_spelt last hspace cs
      obtain rfl := hleft rest hfirst
      rw [List.filter_append, readStatement_offered, told_endLine_mark]
      exact ⟨_, [], hspelt.append (spelt_endLine final left)⟩
  | case3 cs first rest hfirst more =>
      rename_i hend
      obtain ⟨final, left, hspelt, hleft⟩ := readStatement_spelt last hspace cs
      obtain rfl := hleft rest hfirst
      obtain ⟨gap, hgap, hsplit, -⟩ := skipSpace_sound left
      rw [hend] at hsplit
      rw [List.filter_append, readStatement_offered]
      exact ⟨_, [],
        hspelt.append (hsplit ▸ spelt_ending comments final hgap more)⟩
  | case4 cs =>
      obtain ⟨final, left, hspelt, -⟩ := readStatement_spelt last hspace cs
      rw [readStatement_offered]
      exact ⟨final, left, hspelt⟩
  | case5 cs first rest hfirst c more hmore =>
      rename_i ih
      obtain ⟨final, left, hspelt, hleft⟩ := readStatement_spelt last hspace cs
      obtain rfl := hleft rest hfirst
      obtain ⟨gap, hgap, hsplit, -⟩ := skipSpace_sound left
      obtain ⟨final', left', hspelt'⟩ := ih final hgap
      rw [hmore] at hsplit
      rw [← hsplit] at hspelt'
      rw [Reading.after, List.filter_append, readStatement_offered]
      exact ⟨final', left', hspelt.append hspelt'⟩

/-- Whatever a line is like, its events come up with what is then left of it. -/
theorem readLine_accurate (comments : Bool) (line : List Char) :
    Accurate none line ((readLine line).offered comments) := by
  suffices hspelt : ∃ final left,
      Spelt none line ((readLine line).offered comments) final left by
    obtain ⟨final, left, hspelt⟩ := hspelt
    exact hspelt.accurate
  obtain ⟨space, hspace, hline, hstop⟩ := skipSpace_sound line
  -- A blank line, a comment, or a margin and its statements.
  rw [Reading.offered_eq_filter, readLine]
  split
  · exact ⟨none, line, .nil⟩
  rename_i c more hskip
  rw [hskip] at hline hstop
  split
  · rename_i hhash
    rw [hhash] at hline
    cases comments with
    | true => exact ⟨_, more, hline ▸ spelt_comment none hspace more⟩
    | false => exact ⟨none, line, .nil⟩
  · have hnone : Space [] := fun _ h => nomatch h
    -- The margin is the piece of the first event, and leaves the statements.
    have hmargin := margin_sound hspace hstop
    rw [← hline] at hmargin
    have hspells : Spells none (.line (line.takeWhile isIndent).length) space
        (c :: more) := .line hmargin hstop
    have hbegins := hspells.spelt
    rw [← hline] at hbegins
    obtain ⟨final, left, hspelt⟩ :=
      readStatements_spelt comments (some (.line _)) hnone (c :: more)
    rw [Reading.after, List.filter_append]
    refine ⟨final, left, Spelt.append ?_ hspelt⟩
    rw [List.filter_cons_of_pos (by exact Bool.or_true comments)]
    exact hbegins

/-- Behind the last attribute of a statement its closing bracket is read, and
nothing is left of this line. -/
example {rest : List Char} (h : Unread none "a(x:1)".toList
    [.line 0, .statement "a" false false, .attr "x" (.int 1), .endStatement]
    rest) :
    rest = [] := by
  have hmarks : (readLine "a(x:1)".toList).offered true
      = [(.line 0, "a(x:1)".toList),
          (.statement "a" false false, "(x:1)".toList),
          (.attr "x" (.int 1), [')'])] ++ (.endStatement, [])
        :: [(.endLine, [])] := by
    with_unfolding_all rfl
  exact h.unique (readLine_accurate true _ _ _ _ _ hmarks)

end TaskTree.Outline
