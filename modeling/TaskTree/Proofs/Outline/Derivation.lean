/-
The reader derives lines by the grammar, and only so.

As for words, every reader of a stretch of a line has two facts: what it
takes is derived by the grammar, with the events that it gives (`_sound`),
and what the grammar derives it takes, with these events (`_complete`). A
text is then legible exactly if all its lines are derived, and its events
are those of the derivation.

Soundness follows the recursion of the reader, and completeness that of the
grammar. What decides between them is what comes next on the line: a name
goes on as far as it can, so a derivation has to say that no name character
follows (`EndsStatement`, `Stops`), and two statements have something
between them, or the reader would refuse the second one.
-/
import TaskTree.Proofs.Outline.Listening
import TaskTree.Proofs.Outline.Spelling

namespace TaskTree.Outline

open Grammar (Separating Indenting NameStart Space Row)

/-- A reading that comes to its end with some events and the text that is
left. -/
structure Gives (reading : Reading) (es : List Event)
    (rest : List Char) : Prop where
  events : reading.events = es
  stop : reading.stop = .ok rest

/-- What a reading gives behind other marks has their events in front. -/
theorem Gives.after {reading : Reading} {es : List Event} {rest : List Char}
    (h : Gives reading es rest) (marks : List Mark) :
    Gives (reading.after marks) (marks.map (·.1) ++ es) rest := by
  refine ⟨?_, h.stop⟩
  rw [← h.events]
  exact List.map_append

-- ============================================================ attributes

/-- A row begins as its first item does. -/
theorem Grammar.Row.start {Item : List Char → List Event → Prop}
    {p : Char → Prop}
    (hitem : ∀ word es, Item word es → ∃ c more, word = c :: more ∧ p c)
    {cs : List Char} {es : List Event} (h : Row Item cs es) :
    ∃ c more, cs = c :: more ∧ p c := by
  cases h with
  | one hfirst => exact hitem _ _ hfirst
  | more hfirst =>
      obtain ⟨c, more, rfl, hc⟩ := hitem _ _ hfirst
      exact ⟨c, _, List.cons_append, hc⟩

/-- Nothing that ends an attribute can begin a name. -/
theorem not_nameStart_of_ends {c : Char}
    (h : (isSpace c || decide (c = ')')) = true) :
    ¬ NameStart c := by
  intro hstart
  rw [not_isSpace_of_nameStart hstart, Bool.false_or, decide_eq_true_eq] at h
  rw [h] at hstart
  exact absurd (startsName_iff.2 hstart) (by decide)

/-- An attribute before others, which do not touch it. -/
theorem Grammar.Attributes.cons {space word more : List Char}
    {es fs : List Event} (hspace : Space space)
    (hword : Grammar.Attribute word es) (hmore : Grammar.Attributes more fs)
    (happart : ∀ c, more.head? = some c → ¬ NameStart c) :
    Grammar.Attributes (space ++ (word ++ more)) (es ++ fs) := by
  cases hmore with
  | empty hafter =>
      rw [List.append_nil]
      exact .row hspace (.one hword) hafter
  | @row before cs after fs hbefore hrow hafter =>
      -- Two attributes have something between them, since what follows the
      -- first one cannot begin the second.
      have hnonempty : before ≠ [] := by
        intro hnil
        obtain ⟨c, rest, hcs, hstart⟩ := hrow.start fun _ _ h => h.start
        refine happart c ?_ hstart
        rw [hnil, hcs]
        rfl
      -- The attributes in a row are one word, with the spaces behind them.
      have hjoin : word ++ (before ++ (cs ++ after))
          = word ++ (before ++ cs) ++ after := by
        simp only [List.append_assoc]
      rw [hjoin]
      exact .row hspace (.more hword hbefore hnonempty hrow) hafter

/-- A list of attributes that is read to its bracket is one of the grammar, and
gives its events. By induction along the recursion of the reader. It comes to an
end at the closing bracket, at once or behind an attribute. -/
theorem readAttributes_sound {cs rest : List Char}
    (h : (readAttributes cs).stop = .ok rest) :
    ∃ word, Grammar.Attributes word (readAttributes cs).events
      ∧ cs = word ++ ')' :: rest := by
  fun_induction readAttributes cs with
  | case1 => cases h
  | case2 cs more hs =>
      cases h
      obtain ⟨space, hspace, hcs, -⟩ := skipSpace_sound cs
      rw [hs] at hcs
      exact ⟨space, .empty hspace, hcs⟩
  | case3 => cases h
  | case4 => cases h
  | case5 cs c more hs hclose name value d after hread hends hlt _ mark ih =>
      obtain ⟨space, hspace, hcs, -⟩ := skipSpace_sound cs
      obtain ⟨word, hword, hmore⟩ := readAttribute_sound hread
      obtain ⟨others, hothers, hafter⟩ := ih h
      refine ⟨space ++ (word ++ others),
        -- What follows an attribute is a separator or the bracket, and neither
        -- of them begins a name.
        .cons hspace hword hothers fun e he => ?_, ?_⟩
      · cases others with
        | nil => cases he
        | cons e others =>
            cases he
            cases hafter
            exact not_nameStart_of_ends hends
      · rw [hcs, hs, hmore, hafter]
        simp only [List.append_assoc]
  | case6 => cases h

/-- An attribute is read before what follows it. -/
theorem readAttributes_attribute {space word rest : List Char} {c : Char}
    {es : List Event} (hspace : Space space) (hword : Grammar.Attribute word es)
    (hends : (isSpace c || decide (c = ')')) = true) :
    ∃ mark : Mark, es = [mark.1]
      ∧ readAttributes (space ++ (word ++ c :: rest))
        = (readAttributes (c :: rest)).after [mark] := by
  -- A separator or a bracket ends the value.
  have hvalue : EndsValue (c :: rest) := fun d hd => by
    cases hd
    unfold endsToken
    rw [Bool.or_eq_true, decide_eq_true_eq] at hends
    rcases hends with hends | rfl
    · rw [hends, Bool.or_true]
    · rfl
  obtain ⟨name, value, rfl⟩ := hword.event
  have hread := readAttribute_complete hword (.inl hvalue)
  obtain ⟨d, more, rfl, hstart⟩ := hword.start
  -- An attribute begins with its name, and no name begins with a bracket.
  have hclose : d ≠ ')' := fun hd => by
    rw [hd] at hstart
    exact absurd (startsName_iff.2 hstart) (by decide)
  -- What stands before the name is skipped.
  have hskip : skipSpace (space ++ (d :: more ++ c :: rest))
      = d :: (more ++ c :: rest) :=
    skipSpace_complete hspace fun e he => by
      cases he
      exact not_isSpace_of_nameStart hstart
  rw [List.cons_append] at hread
  refine ⟨(.attr name value, c :: rest), rfl, ?_⟩
  rw [readAttributes]
  -- No branch of the reader but one is open: something is there, it is no
  -- bracket, it is an attribute, and it is ended.
  split
  · rename_i hnil
    rw [hskip] at hnil
    cases hnil
  · rename_i d' more' hcons
    obtain ⟨rfl, rfl⟩ := List.cons.inj (hskip.symm.trans hcons)
    rw [if_neg hclose]
    split
    · rename_i fault hfault
      rw [hread] at hfault
      cases hfault
    · rename_i name' value' after hread'
      rw [hread] at hread'
      cases hread'
      dsimp only
      rw [if_pos hends, String.ofList_toList]

/-- An attribute at the front of the others is read first. -/
theorem readAttributes_cons {space word rest rest' : List Char}
    {es fs : List Event} (hspace : Space space)
    (hword : Grammar.Attribute word es)
    (hends : ∀ c, rest.head? = some c → (isSpace c || decide (c = ')')) = true)
    (hrest : Gives (readAttributes rest) fs rest') :
    Gives (readAttributes (space ++ (word ++ rest))) (es ++ fs) rest' := by
  cases rest with
  | nil =>
      have hstop := hrest.stop
      rw [readAttributes] at hstop
      cases hstop
  | cons c rest =>
      obtain ⟨mark, rfl, hread⟩ :=
        readAttributes_attribute hspace hword (hends c rfl)
      rw [hread]
      exact hrest.after [mark]

/-- Nothing but separators before the bracket is the end of the list. -/
theorem readAttributes_space {space : List Char} (h : Space space)
    (rest : List Char) :
    Gives (readAttributes (space ++ ')' :: rest)) [] rest := by
  have hskip : skipSpace (space ++ ')' :: rest) = ')' :: rest :=
    skipSpace_complete h fun c hc => by
      cases hc
      rfl
  rw [readAttributes]
  split
  · rename_i hnil
    rw [hskip] at hnil
    cases hnil
  · rename_i c more hcons
    rw [hskip] at hcons
    cases hcons
    exact ⟨rfl, rfl⟩

/-- Attributes in a row are read one by one, whatever separators are around
them. By induction on the row. The separators before it change from one
attribute to the next, so they are left open. -/
theorem readAttributes_row {cs : List Char} {es : List Event}
    (h : Row Grammar.Attribute cs es) {before after : List Char}
    (hbefore : Space before) (hafter : Space after) (rest : List Char) :
    Gives (readAttributes (before ++ (cs ++ (after ++ ')' :: rest)))) es
      rest := by
  induction h generalizing before with
  | one hword =>
      -- The last attribute ends at a separator or at the bracket.
      have hends : ∀ c, (after ++ ')' :: rest).head? = some c →
          (isSpace c || decide (c = ')')) = true := by
        intro c hc
        cases after with
        | nil =>
            cases hc
            rfl
        | cons d after =>
            cases hc
            rw [isSpace_iff.2 (hafter c List.mem_cons_self), Bool.true_or]
      have hgives :=
        readAttributes_cons hbefore hword hends
          (readAttributes_space hafter rest)
      rw [List.append_nil] at hgives
      exact hgives
  | @more cs space others es fs hword hspace hnonempty hrow ih =>
      -- Any other one ends at the separator that the grammar puts behind it.
      have hends : ∀ c,
          (space ++ (others ++ (after ++ ')' :: rest))).head? = some c →
          (isSpace c || decide (c = ')')) = true := by
        intro c hc
        cases space with
        | nil => exact absurd rfl hnonempty
        | cons d space =>
            cases hc
            rw [isSpace_iff.2 (hspace c List.mem_cons_self), Bool.true_or]
      have hgives := readAttributes_cons hbefore hword hends (ih hspace)
      simp only [List.append_assoc] at hgives ⊢
      exact hgives

/-- A list of attributes of the grammar is read to its bracket. -/
theorem readAttributes_complete {word : List Char} {es : List Event}
    (h : Grammar.Attributes word es) (rest : List Char) :
    Gives (readAttributes (word ++ ')' :: rest)) es rest := by
  cases h with
  | empty hspace => exact readAttributes_space hspace rest
  | row hbefore hrow hafter =>
      have hgives := readAttributes_row hrow hbefore hafter rest
      simp only [List.append_assoc] at hgives ⊢
      exact hgives

-- ============================================================ statements

/-- A flag is there or not; either way it is spelt as the grammar says. -/
theorem readFlag_sound (word cs : List Char) :
    ∃ flag, Grammar.Flag word flag (readFlag word cs).1
      ∧ cs = flag ++ (readFlag word cs).2 := by
  unfold readFlag
  by_cases hprefix : word.isPrefixOf cs = true
  · rw [if_pos hprefix]
    refine ⟨word, .present, ?_⟩
    exact (List.prefix_iff_eq_append.1
        (List.isPrefixOf_iff_prefix.1 hprefix)).symm
  · rw [if_neg hprefix]
    exact ⟨[], .absent, rfl⟩

/-- A flag that is there is found, and one that is not there is not, if what
follows does not begin like it. -/
theorem readFlag_complete {c : Char} {more flag rest : List Char}
    {present : Bool} (h : Grammar.Flag (c :: more) flag present)
    (hrest : rest.head? ≠ some c) :
    readFlag (c :: more) (flag ++ rest) = (present, rest) := by
  unfold readFlag
  cases h with
  | present =>
      rw [if_pos (List.isPrefixOf_iff_prefix.2 (List.prefix_append _ _)),
        List.drop_left]
  | absent =>
      have hnot : ¬ (c :: more).isPrefixOf ([] ++ rest) = true := by
        intro hprefix
        obtain ⟨after, hafter⟩ := List.isPrefixOf_iff_prefix.1 hprefix
        rw [List.nil_append] at hafter
        rw [← hafter] at hrest
        exact hrest rfl
      rw [if_neg hnot]
      rfl

/-- A name does not begin as a mark does. -/
theorem Grammar.Name.head?_ne {name : List Char} (h : Grammar.Name name)
    (rest : List Char) {c : Char} (hc : startsName c = false) :
    (name ++ rest).head? ≠ some c := by
  cases h with
  | mk hstart =>
      intro hhead
      cases hhead
      rw [startsName_iff.2 hstart] at hc
      cases hc

/-- A statement that is read is one of the grammar, and gives its events. The
marks and the name come first, and then it is seen whether a list of attributes
follows. -/
theorem readStatement_sound {cs rest : List Char}
    (h : (readStatement cs).stop = .ok rest) :
    ∃ word, Grammar.Statement word (readStatement cs).events
      ∧ cs = word ++ rest := by
  obtain ⟨guard, hguard, hcs⟩ := readFlag_sound ['?'] cs
  obtain ⟨reference, hreference, hcs'⟩ :=
    readFlag_sound ['-', '>'] (readFlag ['?'] cs).2
  rw [readStatement] at h ⊢
  dsimp only at h ⊢
  -- The name decides first, then whether a list of attributes follows it.
  split at h
  · cases h
  · rename_i name after hname
    obtain ⟨hword, hafter⟩ := readName_sound hname
    split at h
    -- A bracket opens the list, and what is in it is read up to the closing
    -- one.
    · rename_i inner
      split at h
      · cases h
      · rename_i after hbody
        cases h
        obtain ⟨body, hattributes, hinner⟩ := readAttributes_sound hbody
        refine ⟨guard ++ (reference ++ (name ++ '(' :: (body ++ [')']))), ?_,
          ?_⟩
        · unfold Reading.events
          rw [List.map_append]
          exact .listed hguard hreference hword hattributes
        · rw [hcs, hcs', hafter, hinner]
          simp only [List.append_assoc, List.cons_append, List.nil_append]
    · cases h
      refine ⟨_, .bare hguard hreference hword, ?_⟩
      rw [List.append_assoc, List.append_assoc, ← hafter, ← hcs']
      exact hcs

/-- What may come after a statement. -/
def EndsStatement (rest : List Char) : Prop :=
  ∀ c, rest.head? = some c → isNameChar c = false ∧ c ≠ '('

/-- The marks of a statement are read off before its name. -/
theorem readFlags_complete {guard reference name : List Char}
    {isGuard isReference : Bool} (hguard : Grammar.Flag ['?'] guard isGuard)
    (hreference : Grammar.Flag ['-', '>'] reference isReference)
    (hname : Grammar.Name name) (rest : List Char) :
    readFlag ['?'] (guard ++ (reference ++ (name ++ rest)))
        = (isGuard, reference ++ (name ++ rest))
      ∧ readFlag ['-', '>'] (reference ++ (name ++ rest))
        = (isReference, name ++ rest) := by
  refine ⟨readFlag_complete hguard ?_,
    readFlag_complete hreference (hname.head?_ne rest rfl)⟩
  cases hreference with
  | present => exact nofun
  | absent => exact hname.head?_ne rest rfl

/-- A statement of the grammar is read whole, if nothing follows it that could
carry its name on or open a list. Without a list the end of the name has to be
seen in what follows. With one the bracket ends the name. -/
theorem readStatement_complete {word rest : List Char} {es : List Event}
    (h : Grammar.Statement word es) (hrest : EndsStatement rest) :
    Gives (readStatement (word ++ rest)) es rest := by
  cases h with
  | @bare guard reference name isGuard isReference hguard hreference hname =>
      have hsplit : guard ++ (reference ++ name) ++ rest
          = guard ++ (reference ++ (name ++ rest)) := by
        simp only [List.append_assoc]
      obtain ⟨hguard', hreference'⟩ :=
        readFlags_complete hguard hreference hname rest
      have hread := readName_complete hname fun c hc => (hrest c hc).1
      rw [hsplit, readStatement, hguard']
      dsimp only
      rw [hreference']
      dsimp only
      rw [hread]
      dsimp only
      split
      · exact absurd rfl (hrest '(' rfl).2
      · exact ⟨rfl, rfl⟩
  | @listed guard reference name cs isGuard isReference es hguard hreference
        hname hattributes =>
      have hsplit : guard
          ++ (reference ++ (name ++ '(' :: (cs ++ [')']))) ++ rest
          = guard ++ (reference ++ (name ++ '(' :: (cs ++ ')' :: rest))) := by
        simp only [List.append_assoc, List.cons_append, List.nil_append]
      obtain ⟨hguard', hreference'⟩ :=
        readFlags_complete hguard hreference hname ('(' :: (cs ++ ')' :: rest))
      have hread : readName (name ++ '(' :: (cs ++ ')' :: rest))
          = .ok (name, '(' :: (cs ++ ')' :: rest)) :=
        readName_complete hname fun c hc => by
          cases hc
          rfl
      obtain ⟨hevents, hstop⟩ := readAttributes_complete hattributes rest
      rw [hsplit, readStatement, hguard']
      dsimp only
      rw [hreference']
      dsimp only
      rw [hread]
      dsimp only
      split
      · rename_i inner hinner
        cases hinner
        rw [hstop]
        refine ⟨?_, rfl⟩
        unfold Reading.events
        rw [List.map_append, ← hevents]
        rfl
      · rename_i hnone
        exact absurd rfl (hnone _)

-- ============================================================== comments

/-- The carriage returns at the end of a comment are split off, all of them. -/
theorem trimReturns_sound (cs : List Char) :
    ∃ returns, (∀ c ∈ returns, c = '\r') ∧ cs = trimReturns cs ++ returns
      ∧ (trimReturns cs).getLast? ≠ some '\r' := by
  refine ⟨(cs.reverse.takeWhile (· = '\r')).reverse, fun c hc => ?_, ?_,
    fun hlast => ?_⟩
  · exact of_decide_eq_true (mem_takeWhile c (List.mem_reverse.1 hc))
  · unfold trimReturns
    rw [← List.reverse_append, List.takeWhile_append_dropWhile,
      List.reverse_reverse]
  · unfold trimReturns at hlast
    rw [List.getLast?_reverse] at hlast
    exact absurd (stops_dropWhile _ _ '\r' hlast) (by decide)

/-- What a fault shows of the rest of a line is all of it but the carriage
returns at its end. -/
theorem near_shows (rest : List Char) :
    ∃ returns, rest = (near rest).toList ++ returns ∧ (∀ c ∈ returns, c = '\r')
      ∧ (near rest).toList.getLast? ≠ some '\r' := by
  obtain ⟨returns, hreturns, hrest, hlast⟩ := trimReturns_sound rest
  rw [near, String.toList_ofList]
  exact ⟨returns, hrest, hreturns, hlast⟩

/-- A text that does not end in a carriage return is what is left of it. -/
theorem trimReturns_complete {text returns : List Char}
    (htext : text.getLast? ≠ some '\r') (hreturns : ∀ c ∈ returns, c = '\r') :
    trimReturns (text ++ returns) = text := by
  have hstop : Stops (· = '\r') text.reverse := fun c hc => by
    rw [List.head?_reverse] at hc
    exact decide_eq_false fun h => htext (h ▸ hc)
  unfold trimReturns
  rw [List.reverse_append, dropWhile_append
    (fun c hc => decide_eq_true (hreturns c (List.mem_reverse.1 hc))) hstop,
    List.reverse_reverse]

/-- A comment that is read is one of the grammar. -/
theorem commentMark_sound (cs : List Char) :
    Grammar.Comment ('#' :: cs) [(commentMark cs).1] := by
  obtain ⟨returns, hreturns, hcs, hlast⟩ := trimReturns_sound cs
  have hcomment := Grammar.Comment.present hlast hreturns
  rw [← hcs] at hcomment
  exact hcomment

/-- What stands after a `#` is a comment whatever it is. -/
theorem Grammar.Comment.eq {comment : List Char} {es : List Event}
    (h : Grammar.Comment comment es) :
    (comment = [] ∧ es = [])
      ∨ ∃ cs, comment = '#' :: cs ∧ es = [(commentMark cs).1] := by
  cases h with
  | absent => exact .inl ⟨rfl, rfl⟩
  | present htext hreturns =>
      refine .inr ⟨_, rfl, ?_⟩
      unfold commentMark
      rw [trimReturns_complete htext hreturns]

-- ================================================================= lines

/-- What the first character of a statement is not. -/
theorem Grammar.Statement.start {word : List Char} {es : List Event}
    (h : Grammar.Statement word es) :
    ∃ c more, word = c :: more ∧ isSpace c = false ∧ c ≠ '#' := by
  have hmarked :
      ∀ {guard reference name : List Char} {isGuard isReference : Bool} (after :
        List Char),
      Grammar.Flag ['?'] guard isGuard →
        Grammar.Flag ['-', '>'] reference isReference →
      Grammar.Name name →
      ∃ c more, guard ++ (reference ++ (name ++ after)) = c :: more
        ∧ isSpace c = false ∧ c ≠ '#' := by
    -- Whichever of the two flags is there, its first sign begins the statement;
    -- without them the name does.
    intro guard reference name isGuard isReference after hguard hreference hname
    cases hguard with
    | present => exact ⟨'?', _, rfl, rfl, by decide⟩
    | absent =>
        cases hreference with
        | present => exact ⟨'-', _, rfl, rfl, by decide⟩
        | absent =>
            cases hname with
            | @mk c more hstart =>
                refine ⟨c, _, rfl, not_isSpace_of_nameStart hstart,
                  fun hc => ?_⟩
                rw [hc] at hstart
                exact absurd (startsName_iff.2 hstart) (by decide)
  -- Both forms of a statement begin with the marks and the name.
  cases h with
  | bare hguard hreference hname =>
      have h := hmarked [] hguard hreference hname
      rw [List.append_nil] at h
      exact h
  | listed hguard hreference hname => exact hmarked _ hguard hreference hname

/-- A row of statements with what ends its line. -/
inductive Grammar.Ended : List Char → List Event → Prop where
  | mk {cs space comment : List Char} {es fs : List Event} :
      Row Statement cs es → Space space → Comment comment fs →
      Ended (cs ++ (space ++ comment)) (es ++ (fs ++ [.endLine]))

/-- A statement in front of others on a line. -/
theorem Grammar.Ended.cons {word space rest : List Char} {es fs : List Event}
    (hword : Grammar.Statement word es) (hspace : Space space)
    (hnonempty : space ≠ []) (hrest : Grammar.Ended rest fs) :
    Grammar.Ended (word ++ (space ++ rest)) (es ++ fs) := by
  cases hrest with
  | @mk cs after comment fs gs hrow hafter hcomment =>
      have hended :=
        Grammar.Ended.mk (.more hword hspace hnonempty hrow) hafter hcomment
      simp only [List.append_assoc] at hended ⊢
      exact hended

/-- The rest of a line that is read to its end consists of statements with
separators between them, and perhaps a comment. By induction along the recursion
of the reader: a fault, the end of the line, a comment, a statement that touches
the one before it, or the next statement. -/
theorem readStatements_sound {cs rest : List Char}
    (h : (readStatements cs).stop = .ok rest) :
    Grammar.Ended cs (readStatements cs).events := by
  fun_induction readStatements cs with
  | case1 cs first fault hfirst =>
      rw [hfirst] at h
      cases h
  | case2 cs first after hfirst hend =>
      obtain ⟨word, hword, hcs⟩ := readStatement_sound hfirst
      obtain ⟨space, hspace, hafter, -⟩ := skipSpace_sound after
      have hended := Grammar.Ended.mk (.one hword) hspace .absent
      rw [← hend, ← hafter, ← hcs] at hended
      unfold Reading.events
      rw [List.map_append]
      exact hended
  | case3 cs first after hfirst more hend =>
      obtain ⟨word, hword, hcs⟩ := readStatement_sound hfirst
      obtain ⟨space, hspace, hafter, -⟩ := skipSpace_sound after
      have hended :=
        Grammar.Ended.mk (.one hword) hspace (commentMark_sound more)
      rw [← hend, ← hafter, ← hcs] at hended
      unfold Reading.events
      rw [List.map_append]
      exact hended
  | case4 => cases h
  | case5 cs first after hfirst c more hmore hhash hgap hlt ih =>
      obtain ⟨word, hword, hcs⟩ := readStatement_sound hfirst
      obtain ⟨space, hspace, hafter, -⟩ := skipSpace_sound after
      -- Something is between the two statements, or the reader would have
      -- refused the second one.
      have hnonempty : space ≠ [] := fun hnil => by
        rw [hnil, hmore, List.nil_append] at hafter
        exact hgap (congrArg List.length hafter)
      have hended := Grammar.Ended.cons hword hspace hnonempty (ih h)
      have hwhole : cs = word ++ (space ++ c :: more) := by
        rw [hcs, ← hmore, ← hafter]
      rw [← hwhole] at hended
      unfold Reading.events Reading.after
      dsimp only
      rw [List.map_append]
      exact hended

/-- Separators end a statement, and so does what ends it without them. -/
theorem endsStatement_append {space rest : List Char} (hspace : Space space)
    (hrest : space = [] → EndsStatement rest) :
    EndsStatement (space ++ rest) := by
  cases space with
  | nil => exact hrest rfl
  | cons c space =>
      intro d hd
      cases hd
      have hc := hspace c List.mem_cons_self
      refine ⟨not_isNameChar_of_separating c hc, ?_⟩
      rcases hc with rfl | rfl | rfl <;> decide

/-- The last statement of a line is read to the end of the line. -/
theorem readStatements_last {word space comment : List Char}
    {es fs : List Event} (hword : Grammar.Statement word es)
    (hspace : Space space) (hcomment : Grammar.Comment comment fs) :
    Gives (readStatements (word ++ (space ++ comment)))
      (es ++ (fs ++ [.endLine])) [] := by
  -- Neither a separator nor the sign of a comment carries the statement on.
  have hends : EndsStatement (space ++ comment) := by
    refine endsStatement_append hspace fun _ c hc => ?_
    rcases hcomment.eq with ⟨rfl, -⟩ | ⟨cs, rfl, -⟩
    · cases hc
    · cases hc
      exact ⟨rfl, by decide⟩
  -- Nothing but the comment is left behind the separators.
  have hskip : skipSpace (space ++ comment) = comment := by
    refine skipSpace_complete hspace fun c hc => ?_
    rcases hcomment.eq with ⟨rfl, -⟩ | ⟨cs, rfl, -⟩
    · cases hc
    · cases hc
      rfl
  obtain ⟨hevents, hstop⟩ := readStatement_complete hword hends
  rw [readStatements]
  dsimp only
  -- The statement is read, so only the two cases of the grammar's comment are
  -- left: none, or one.
  split
  · rename_i fault hfault
    rw [hstop] at hfault
    cases hfault
  · rename_i rest hrest
    obtain rfl : space ++ comment = rest :=
      Except.ok.inj (hstop.symm.trans hrest)
    rcases hcomment.eq with ⟨rfl, rfl⟩ | ⟨cs, rfl, rfl⟩
    · split
      · refine ⟨?_, rfl⟩
        rw [← hevents]
        exact List.map_append
      · rename_i c more hmore
        rw [hskip] at hmore
        cases hmore
    · split
      · rename_i hnil
        rw [hskip] at hnil
        cases hnil
      · rename_i c more hmore
        rw [hskip] at hmore
        cases hmore
        rw [if_pos rfl]
        refine ⟨?_, rfl⟩
        rw [← hevents]
        exact List.map_append

/-- A statement before others is read first. -/
theorem readStatements_cons {word space rest rest' : List Char} {c : Char}
    {es fs : List Event} (hword : Grammar.Statement word es)
    (hspace : Space space) (hnonempty : space ≠ [])
    (hstart : isSpace c = false ∧ c ≠ '#')
    (hrest : Gives (readStatements (c :: rest)) fs rest') :
    Gives (readStatements (word ++ (space ++ c :: rest))) (es ++ fs) rest' := by
  have hends : EndsStatement (space ++ c :: rest) :=
    endsStatement_append hspace fun hnil => absurd hnil hnonempty
  have hskip : skipSpace (space ++ c :: rest) = c :: rest :=
    skipSpace_complete hspace fun d hd => by
      cases hd
      exact hstart.1
  -- The separators in between are counted by their length.
  have hgap : (space ++ c :: rest).length ≠ (c :: rest).length :=
    fun hlength => by
      rw [List.length_append] at hlength
      have hpos := List.length_pos_of_ne_nil hnonempty
      omega
  obtain ⟨hevents, hstop⟩ := readStatement_complete hword hends
  rw [readStatements]
  dsimp only
  -- Only the branch of a next statement is open.
  split
  · rename_i fault hfault
    rw [hstop] at hfault
    cases hfault
  · rename_i after hafter
    obtain rfl : space ++ c :: rest = after :=
      Except.ok.inj (hstop.symm.trans hafter)
    split
    · rename_i hnil
      rw [hskip] at hnil
      cases hnil
    · rename_i c' more hmore
      rw [hskip] at hmore
      cases hmore
      rw [if_neg hstart.2, if_neg hgap, ← hevents]
      exact hrest.after _

/-- Statements of the grammar are read to the end of their line. -/
theorem readStatements_complete {cs : List Char} {es : List Event}
    (h : Grammar.Ended cs es) :
    Gives (readStatements cs) es [] := by
  cases h with
  | @mk row space comment es fs hrow hspace hcomment =>
      induction hrow with
      | one hword => exact readStatements_last hword hspace hcomment
      | more hword hbetween hnonempty hrow ih =>
          obtain ⟨c, more, rfl, hstart⟩ := hrow.start fun _ _ h => h.start
          have hgives := readStatements_cons hword hbetween hnonempty hstart ih
          simp only [List.append_assoc] at hgives ⊢
          exact hgives

/-- What does not separate does not indent. -/
theorem isIndent_of_isSpace {c : Char} (h : isSpace c = false) :
    isIndent c = false := by
  refine eq_false_of_ne_true fun hindent => ?_
  rcases isIndent_iff.1 hindent with rfl | rfl <;> cases h

/-- Spaces before a statement are a margin. -/
theorem margin_sound {space rest : List Char} (hspace : Space space)
    (hrest : Stops isSpace rest) :
    Grammar.Margin space ((space ++ rest).takeWhile isIndent).length := by
  have hsplit : space = space.takeWhile isIndent ++ space.dropWhile isIndent :=
    List.takeWhile_append_dropWhile.symm
  -- The first character that does not indent is among the separators, or the
  -- first one behind them.
  have hstop : Stops isIndent (space.dropWhile isIndent ++ rest) := by
    have hdropped := stops_dropWhile isIndent space
    cases hdrop : space.dropWhile isIndent with
    | nil => exact fun c hc => isIndent_of_isSpace (hrest c hc)
    | cons c more =>
        intro d hd
        cases hd
        exact hdropped c (by rw [hdrop]; rfl)
  have hindent : (space ++ rest).takeWhile isIndent
      = space.takeWhile isIndent := by
    conv_lhs => rw [hsplit, List.append_assoc]
    exact takeWhile_append mem_takeWhile hstop
  -- The indentation ends where the grammar says: no separator behind it can
  -- indent.
  have hmargin :
      Grammar.Margin (space.takeWhile isIndent ++ space.dropWhile isIndent)
      (space.takeWhile isIndent).length := by
    refine .mk (fun c hc => isIndent_iff.1 (mem_takeWhile c hc))
      (fun c hc => ?_) fun c hc => ?_
    · exact hspace c ((List.dropWhile_sublist _).subset hc)
    · rw [← isIndent_iff, stops_dropWhile isIndent space c hc]
      exact Bool.false_ne_true
  rw [hindent]
  rw [← hsplit] at hmargin
  exact hmargin

/-- The margin of the grammar is skipped, and its indentation is counted. -/
theorem margin_complete {margin rest : List Char} {indent : Nat}
    (h : Grammar.Margin margin indent) (hrest : Stops isSpace rest) :
    Space margin ∧ ((margin ++ rest).takeWhile isIndent).length = indent := by
  cases h with
  | @mk indents space hindents hspace hmax =>
      -- Behind the indentation no character can indent.
      have hstop : Stops isIndent (space ++ rest) := by
        cases space with
        | nil => exact fun c hc => isIndent_of_isSpace (hrest c hc)
        | cons c space =>
            intro d hd
            cases hd
            exact eq_false_of_ne_true fun hindent =>
              hmax c rfl (isIndent_iff.1 hindent)
      refine ⟨fun c hc => ?_, ?_⟩
      · rcases List.mem_append.1 hc with hc | hc
        · rcases hindents c hc with rfl | rfl
          · exact .inl rfl
          · exact .inr (.inl rfl)
        · exact hspace c hc
      · rw [List.append_assoc,
          takeWhile_append (fun c hc => isIndent_iff.2 (hindents c hc)) hstop]

/-- A row of statements behind its margin makes a line. -/
theorem Grammar.Ended.line {margin cs : List Char} {indent : Nat}
    {es : List Event} (h : Grammar.Ended cs es)
    (hmargin : Grammar.Margin margin indent) :
    Grammar.Line (margin ++ cs) (.line indent :: es) := by
  cases h with
  | mk hrow hspace hcomment => exact .full hmargin hrow hspace hcomment

/-- A line that is read to its end is one of the grammar. It is blank, a comment
alone, or has statements behind a margin. -/
theorem readLine_sound {cs rest : List Char}
    (h : (readLine cs).stop = .ok rest) :
    Grammar.Line cs (readLine cs).events := by
  obtain ⟨space, hspace, hcs, hstop⟩ := skipSpace_sound cs
  rw [readLine] at h ⊢
  rcases hskip : skipSpace cs with _ | ⟨c, more⟩
  · rw [hskip] at hcs
    rw [hcs]
    exact .blank hspace .absent
  · rw [hskip] at h hcs hstop
    dsimp only at h ⊢
    by_cases hhash : c = '#'
    · rw [if_pos hhash]
      rw [hhash] at hcs
      rw [hcs]
      exact .blank hspace (commentMark_sound more)
    · rw [if_neg hhash] at h ⊢
      have hline := (readStatements_sound h).line (margin_sound hspace hstop)
      rw [← hcs] at hline
      exact hline

/-- A line of the grammar is read to its end. -/
theorem readLine_complete {cs : List Char} {es : List Event}
    (h : Grammar.Line cs es) :
    Gives (readLine cs) es [] := by
  cases h with
  | @blank space comment es hspace hcomment =>
      rw [readLine]
      rcases hcomment.eq with ⟨rfl, rfl⟩ | ⟨cs, rfl, rfl⟩
      · have hskip : skipSpace (space ++ []) = [] :=
          skipSpace_complete hspace fun c hc => by cases hc
        rw [hskip]
        exact ⟨rfl, rfl⟩
      · have hskip : skipSpace (space ++ '#' :: cs) = '#' :: cs :=
          skipSpace_complete hspace fun c hc => by
            cases hc
            rfl
        rw [hskip]
        dsimp only
        rw [if_pos rfl]
        exact ⟨rfl, rfl⟩
  | @full margin row space comment indent es fs hmargin hrow hspace hcomment =>
      -- The first statement begins with something that is no separator and no
      -- comment sign, so the line is not blank.
      obtain ⟨c, more, hstart, hseparating, hhash⟩ :=
        hrow.start fun _ _ h => h.start
      have hended := Grammar.Ended.mk hrow hspace hcomment
      have hcs : row ++ (space ++ comment)
          = c :: (more ++ (space ++ comment)) := by
        rw [hstart, List.cons_append]
      rw [hcs] at hended ⊢
      have hstop : Stops isSpace (c :: (more ++ (space ++ comment))) :=
        fun d hd => by
          cases hd
          exact hseparating
      obtain ⟨hmargins, hindent⟩ := margin_complete hmargin hstop
      rw [readLine, skipSpace_complete hmargins hstop, hindent]
      dsimp only
      rw [if_neg hhash]
      exact (readStatements_complete hended).after _

-- ================================================================= texts

/-- Lines are split as the core library splits a list. -/
theorem splitLines_eq_splitOn (cs : List Char) :
    splitLines cs = cs.splitOn '\n' := by
  induction cs with
  | nil => rfl
  | cons c cs ih =>
      rw [splitLines, List.splitOn_cons_eq_if_modifyHead, ih]
      by_cases hline : c = '\n'
      · rw [if_pos hline, if_pos (beq_iff_eq.2 hline)]
      · rw [if_neg hline, if_neg (mt beq_iff_eq.1 hline)]
        cases hsplit : cs.splitOn '\n' with
        | nil => exact absurd hsplit (List.splitOn_ne_nil _ _)
        | cons line lines => rfl

/-- Lines are derived exactly if they can be read, with the events that they
give. By induction on the lines; each line and its row of events by soundness
and completeness of reading one. -/
theorem forall₂_line_iff {lines : List (List Char)} {rows : List (List Event)} :
    List.Forall₂ Grammar.Line lines rows ↔
      (∀ line ∈ lines, ∃ rest, (readLine line).stop = .ok rest)
        ∧ rows = lines.map fun line => (readLine line).events := by
  induction lines generalizing rows with
  | nil =>
      rw [List.forall₂_nil_left_iff]
      exact ⟨fun h => ⟨fun line hline => absurd hline List.not_mem_nil, h⟩,
        fun h => h.2⟩
  | cons line lines ih =>
      rw [List.forall₂_cons_left_iff, List.forall_mem_cons, List.map_cons]
      constructor
      · intro h
        obtain ⟨es, rows, hline, hrows, rfl⟩ := h
        obtain ⟨hevents, hstop⟩ := readLine_complete hline
        obtain ⟨hlegible, rfl⟩ := ih.1 hrows
        rw [hevents]
        exact ⟨⟨⟨[], hstop⟩, hlegible⟩, rfl⟩
      · intro h
        obtain ⟨⟨⟨rest, hstop⟩, hlegible⟩, rfl⟩ := h
        exact ⟨_, _, readLine_sound hstop, ih.2 ⟨hlegible, rfl⟩, rfl⟩

/-- A handler that refuses nothing. -/
def accepting {σ ε : Type} (f : Event → σ → σ) : Handler σ ε :=
  fun event state => (f event state, none)

/-- A handler that accepts everything is told of all events, in order. -/
theorem listen_accepting {σ ε : Type} (f : Event → σ → σ) (es : List Event)
    (s : σ) :
    listen (accepting f : Handler σ ε) es s
      = (es.foldl (fun s event => f event s) s, none) := by
  induction es generalizing s with
  | nil => rfl
  | cons event es ih => exact ih (f event s)

/-- A handler that refuses nothing gets a text to read exactly if the grammar
derives it, and is told of the events of the derivation, in their order. -/
theorem read_accepting_eq_none_iff {σ ε : Type} (f : Event → σ → σ)
    (comments : Bool) (text : String) (s s' : σ) :
    read comments (accepting f : Handler σ ε) text s = (s', none) ↔
      ∃ es, Grammar.Text text es
        ∧ (es.filter (told comments)).foldl
          (fun s event => f event s) s = s' := by
  rw [read_eq_none_iff, listen_accepting, events_eq_filter]
  unfold Grammar.Text Legible
  rw [← splitLines_eq_splitOn]
  constructor
  · intro h
    obtain ⟨hlegible, hfold⟩ := h
    exact ⟨_, ⟨_, forall₂_line_iff.2 ⟨hlegible, rfl⟩, rfl⟩,
      (Prod.mk.inj hfold).1⟩
  · intro h
    obtain ⟨es, ⟨rows, hrows, rfl⟩, rfl⟩ := h
    obtain ⟨hlegible, rfl⟩ := forall₂_line_iff.1 hrows
    exact ⟨hlegible, rfl⟩

end TaskTree.Outline
