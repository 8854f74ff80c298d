/-
A fault of spelling points at the text that is at fault.

A fault comes with the rest of its line from some place on. What stands at
that place depends on the fault, and nothing else decides it: a character
that cannot stand there stands there, an open list has nothing left, a text
without an end begins there, and so on (`SyntaxFault.PointsAt`). Every reader
of a stretch of a line finds its faults at a place of that stretch, or at
the quote of the text that it is in (`Found`).

`read_malformed` says it of whole texts, where the place has the number of
the first line that the grammar does not derive.
-/
import TaskTree.Proofs.Outline.Refusal

namespace TaskTree.Outline

open Grammar (Separating)

-- ========================================================= unclosed texts

/-- The number of backslashes at the end of a text. -/
def backslashes (cs : List Char) : Nat :=
  (cs.reverse.takeWhile (· = '\\')).length

/-- Every quote in a text is escaped: it stands behind an odd number of
backslashes. -/
def Unclosed (cs : List Char) : Prop :=
  ∀ before after, cs = before ++ '"' :: after → backslashes before % 2 = 1

/-- A backslash at the end counts up to the last character that is none. -/
theorem backslashes_cons {c : Char} (h : c ≠ '\\') (cs : List Char) :
    backslashes (c :: cs) = backslashes cs := by
  unfold backslashes
  rw [List.reverse_cons, List.takeWhile_append]
  split
  · rename_i hall
    rw [List.takeWhile_cons_of_neg (by rw [decide_eq_true_eq]; exact h),
      List.append_nil, hall]
  · rfl

/-- What an escape begins with does not change which quotes are escaped. -/
theorem backslashes_escape (c : Char) (cs : List Char) :
    backslashes ('\\' :: c :: cs) % 2 = backslashes cs % 2 := by
  -- Read from the end: the run of backslashes either stops before the two
  -- characters or takes both of them, or only the first.
  have hsplit : ('\\' :: c :: cs).reverse = cs.reverse ++ [c, '\\'] := by
    rw [List.reverse_cons, List.reverse_cons, List.append_assoc]
    rfl
  unfold backslashes
  rw [hsplit, List.takeWhile_append]
  split
  · rename_i hall
    by_cases hc : c = '\\'
    · subst hc
      rw [List.length_append, hall]
      exact Nat.add_mod_right _ 2
    · rw [List.takeWhile_cons_of_neg (by rw [decide_eq_true_eq]; exact hc),
        List.append_nil, hall]
  · rfl

/-- Nothing does not close. -/
theorem unclosed_nil : Unclosed [] := fun before after h => by
  cases before <;> cases h

/-- A character that neither closes nor escapes makes no difference. -/
theorem Unclosed.cons {c : Char} {cs : List Char} (h : Unclosed cs)
    (hquote : c ≠ '"') (hbackslash : c ≠ '\\') : Unclosed (c :: cs) := by
  intro before after hsplit
  cases before with
  | nil =>
      cases hsplit
      exact absurd rfl hquote
  | cons d before =>
      obtain ⟨rfl, hrest⟩ := List.cons.inj hsplit
      rw [backslashes_cons hbackslash]
      exact h before after hrest

/-- A single backslash does not close. -/
theorem unclosed_backslash : Unclosed ['\\'] := by
  intro before after hsplit
  rcases before with _ | ⟨d, _ | ⟨e, before⟩⟩ <;> cases hsplit

/-- An escaped character does not close, whichever it is. -/
theorem Unclosed.escape {cs : List Char} (h : Unclosed cs) (c : Char) :
    Unclosed ('\\' :: c :: cs) := by
  intro before after hsplit
  rcases before with _ | ⟨d, _ | ⟨e, before⟩⟩
  · cases hsplit
  · cases hsplit
    rfl
  · cases hsplit
    rw [backslashes_escape]
    exact h before after rfl

/-- Digits of an escape do not close. -/
theorem Unclosed.append {cs : List Char} (h : Unclosed cs) {ds : List Char}
    (hds : ∀ d ∈ ds, Grammar.HexDigit d) : Unclosed (ds ++ cs) := by
  induction ds with
  | nil => exact h
  | cons d ds ih =>
      obtain ⟨hd, hrest⟩ := List.forall_mem_cons.1 hds
      rw [List.cons_append]
      refine (ih hrest).cons ?_ ?_
        <;> (rintro rfl; exact absurd (isHex_iff.2 hd) (by decide))

/-- An escape closes nothing. -/
theorem Unclosed.pass {es cs : List Char} {value : Char}
    (hes : Grammar.Escape es value) (h : Unclosed cs) :
    Unclosed ('\\' :: (es ++ cs)) := by
  cases hes with
  | short => exact h.escape _
  | unicode hcode => exact (h.append hcode.hex).escape 'u'
  | pair hcode _ hcode' =>
      have hlow := (h.append hcode'.hex).escape 'u'
      have hboth := (hlow.append hcode.hex).escape 'u'
      simpa only [List.cons_append, List.append_assoc] using hboth

-- ============================================================== the faults

/-- What has to stand at the place of a fault, where `rest` is left of the
line. -/
def SyntaxFault.PointsAt : SyntaxFault → List Char → Prop
  | .strayChar c, rest => rest.head? = some c
  | .endOfLine, rest => rest = []
  | .openText, rest => ∃ body, rest = '"' :: body ∧ Unclosed body
  | .openList, rest => rest = []
  | .noValue _, rest => rest = [] ∨ rest.head? = some ')'
  | .badToken token, rest => token ≠ "" ∧ ∃ after, rest = token.toList ++ after
    ∧ ∀ c, after.head? = some c → c = '(' ∨ c = ')' ∨ Separating c
  | .badEscape c, rest => ['\\', c] <+: rest
  | .badCodePoint escape, rest =>
    ['\\', 'u'] <+: escape.toList ∧ escape.toList <+: rest

/-- A fault found in a stretch of a line points at a place in it. -/
structure Found (cs : List Char) (fault : SyntaxFault × List Char) : Prop where
  inside : fault.2 <:+ cs
  points : fault.1.PointsAt fault.2

/-- What is found in a part of the line is found in the line. -/
theorem Found.mono {cs cs' : List Char} {fault : SyntaxFault × List Char}
    (h : Found cs fault) (hsuffix : cs <:+ cs') : Found cs' fault :=
  ⟨h.inside.trans hsuffix, h.points⟩

/-- A fault at the very beginning. -/
theorem Found.here {cs : List Char} {cause : SyntaxFault}
    (h : cause.PointsAt cs) :
    Found cs (cause, cs) := ⟨List.suffix_refl cs, h⟩

/-- A character where none of its kind may stand is found where it stands. -/
theorem Found.stray (c : Char) (rest : List Char) :
    Found (c :: rest) (.strayChar c, c :: rest) :=
  .here rfl

/-- A fault at the end. -/
theorem Found.atEnd (cs : List Char) {cause : SyntaxFault}
    (h : cause.PointsAt []) :
    Found cs (cause, []) := ⟨List.nil_suffix, h⟩

-- ================================================================== words

/-- What keeps a name from being read is the character at its place, or the end
of the line. -/
theorem readName_found {cs : List Char} {fault : SyntaxFault × List Char}
    (h : readName cs = .error fault) : Found cs fault := by
  cases cs with
  | nil =>
      cases h
      exact .here rfl
  | cons c rest =>
      rw [readName] at h
      split at h
      · cases h
      · cases h
        exact .stray c rest

/-- What is wrong with a token is the whole of it, up to its end. -/
theorem readToken_found {c : Char} {rest : List Char} (hc : endsToken c = false)
    {fault : SyntaxFault × List Char}
    (h : readToken (c :: rest) = .error fault) :
    Found (c :: rest) fault := by
  have hsplit : c :: rest = (c :: rest).takeWhile (fun d => !endsToken d)
      ++ (c :: rest).dropWhile fun d => !endsToken d :=
    List.takeWhile_append_dropWhile.symm
  -- The token is not empty.
  have hnonempty : (c :: rest).takeWhile (fun d => !endsToken d) ≠ [] := by
    rw [List.takeWhile_cons_of_pos (by rw [hc]; rfl)]
    exact List.cons_ne_nil _ _
  rw [readToken] at h
  split at h
  · cases h
  · cases h
    -- The text shown is the token, and it ends where the grammar ends one.
    refine .here ⟨fun hempty => hnonempty ?_,
      (c :: rest).dropWhile fun d => !endsToken d, ?_, fun d hd => ?_⟩
    · rw [← String.toList_ofList
          (l := (c :: rest).takeWhile fun d => !endsToken d), hempty]
      rfl
    · rw [String.toList_ofList]
      exact hsplit
    · have hends := stops_dropWhile (fun d => !endsToken d) (c :: rest) d hd
      rw [Bool.not_eq_false'] at hends
      simpa only [endsToken, Bool.or_eq_true, decide_eq_true_eq, isSpace_iff,
        or_assoc] using hends

namespace Quoted

/-- The digits taken and the rest are the text. -/
theorem fourHex_append (cs : List Char) :
    cs = (fourHex cs).1 ++ (fourHex cs).2 :=
  (fourHex_sound cs).1

/-- An escape that denotes nothing is shown as far as it was read. -/
theorem readUnicode_found {cs : List Char} {fault : SyntaxFault × List Char}
    (h : readUnicode cs = .error fault) : Found ('\\' :: 'u' :: cs) fault := by
  -- Every fault of an escape points at its backslash, with the part that was
  -- taken.
  have hfound : ∀ taken after : List Char, cs = taken ++ after →
      (badEscape taken cs : Scan Char) = .error fault →
        Found ('\\' :: 'u' :: cs) fault := by
    intro taken after hsplit hfault
    cases hfault
    refine .here ⟨?_, after, ?_⟩
    · rw [String.toList_ofList]
      exact ⟨taken, rfl⟩
    · rw [String.toList_ofList, hsplit]
      rfl
  have hfirst := fourHex_append cs
  rw [readUnicode] at h
  dsimp only at h
  -- Too few digits, a first half without a second one, or a second half alone;
  -- the taken part is the digits of one code or of two.
  split at h
  · exact hfound _ _ hfirst h
  split at h
  · split at h
    · rename_i more hmore
      split at h
      · refine hfound _ (fourHex more).2 ?_ h
        rw [List.append_assoc, List.cons_append, List.cons_append,
          ← fourHex_append more, ← hmore]
        exact hfirst
      · cases h
    · exact hfound _ _ hfirst h
  split at h
  · exact hfound _ _ hfirst h
  · cases h

/-- An escape is cut off with the text that it is in, or is at fault itself. -/
theorem readEscape_found {whole cs : List Char}
    {fault : SyntaxFault × List Char} (h : readEscape whole cs = .error fault) :
    (cs = [] ∧ fault = (.openText, whole)) ∨ Found ('\\' :: cs) fault := by
  cases cs with
  | nil =>
      cases h
      exact .inl ⟨rfl, rfl⟩
  | cons c rest =>
      refine .inr ?_
      -- A letter for the code, a short escape, or one that there is not.
      rw [readEscape] at h
      split at h
      · cases h
      split at h
      · rename_i hu
        subst hu
        exact readUnicode_found h
      · cases h
        exact .here ⟨rest, rfl⟩

/-- A quoted text without an end is unclosed; any other fault is that of an
escape in it. By induction along the recursion of the reader; it fails at the
end of the line, in an escape, or further on. -/
theorem read_found {whole cs : List Char} {fault : SyntaxFault × List Char}
    (h : read whole cs = .error fault) :
    (Unclosed cs ∧ fault = (.openText, whole)) ∨ Found cs fault := by
  fun_induction read whole cs with
  | case1 =>
      cases h
      exact .inl ⟨unclosed_nil, rfl⟩
  | case2 => cases h
  | case3 rest fault' hread =>
      cases h
      rcases readEscape_found hread with ⟨rfl, rfl⟩ | hfound
      · exact .inl ⟨unclosed_backslash, rfl⟩
      · exact .inr hfound
  | case4 rest value after hread hlt fault' hmore hquote ih =>
      cases h
      obtain ⟨es, hescape, rfl⟩ := readEscape_sound hread
      rcases ih hmore with ⟨hunclosed, rfl⟩ | hfound
      · exact .inl ⟨hunclosed.pass hescape, rfl⟩
      · exact .inr (hfound.mono
            ((List.suffix_append es after).trans (List.suffix_cons _ _)))
  | case5 => cases h
  | case6 c rest hquote hbackslash fault' hmore ih =>
      cases h
      rcases ih hmore with ⟨hunclosed, rfl⟩ | hfound
      · exact .inl ⟨hunclosed.cons hquote hbackslash, rfl⟩
      · exact .inr (hfound.mono (List.suffix_cons _ _))
  | case7 => cases h

end Quoted

-- ============================================================== attributes

/-- What is wrong with a value is found at its beginning or inside. -/
theorem readValue_found {name cs : List Char} (hcs : Stops isSpace cs)
    {fault : SyntaxFault × List Char} (h : readValue name cs = .error fault) :
    Found cs fault := by
  cases cs with
  | nil =>
      cases h
      exact .here (.inl rfl)
  | cons c rest =>
      rw [readValue] at h
      -- The cases of the first character: the bracket, a quote, a sign that
      -- cannot stand there, or a token.
      split at h
      · rename_i hclose
        cases h
        exact .here (.inr (congrArg some hclose))
      rename_i hclose
      split at h
      · rename_i hquote
        subst hquote
        split at h
        · rename_i fault' hread
          cases h
          rcases Quoted.read_found hread with ⟨hunclosed, rfl⟩ | hfound
          · exact .here ⟨rest, rfl, hunclosed⟩
          · exact hfound.mono (List.suffix_cons _ _)
        · cases h
      split at h
      · cases h
        exact .stray c rest
      · rename_i hstray
        refine readToken_found ?_ h
        rw [not_or, not_or] at hstray
        rw [endsToken, hcs c rfl, decide_eq_false hclose,
          decide_eq_false hstray.2.2]
        rfl

/-- What is left behind separators is the end of the text. -/
theorem skipSpace_suffix (cs : List Char) : skipSpace cs <:+ cs :=
  List.dropWhile_suffix isSpace

/-- No separator is in front of it. -/
theorem stops_skipSpace (cs : List Char) : Stops isSpace (skipSpace cs) :=
  stops_dropWhile isSpace cs

/-- What is left behind a name is the end of the text. -/
theorem readName_suffix {cs name rest : List Char}
    (h : readName cs = .ok (name, rest)) :
    rest <:+ cs := ⟨name, (readName_sound h).2.symm⟩

/-- What is wrong with an attribute is in its name, in front of its colon, or in
its value. -/
theorem readAttribute_found {cs : List Char} {fault : SyntaxFault × List Char}
    (h : readAttribute cs = .error fault) : Found cs fault := by
  rw [readAttribute] at h
  split at h
  · rename_i hname
    cases h
    exact readName_found hname
  rename_i name afterName hname
  -- What is left after each part is an end of the text, so that the place found
  -- in it is one in the text.
  have hskip := (skipSpace_suffix afterName).trans (readName_suffix hname)
  split at h
  · cases h
    exact .atEnd cs rfl
  rename_i c rest hafter
  rw [hafter] at hskip
  split at h
  · split at h
    · rename_i hvalue
      cases h
      exact (readValue_found (stops_skipSpace rest) hvalue).mono
        ((skipSpace_suffix rest).trans ((List.suffix_cons c rest).trans hskip))
    · cases h
  · cases h
    exact (Found.stray _ _).mono hskip

/-- What is wrong with a list of attributes is found in it, or at the end of the
line when it is open. -/
theorem readAttributes_found {cs : List Char} {fault : SyntaxFault × List Char}
    (h : (readAttributes cs).stop = .error fault) : Found cs fault := by
  fun_induction readAttributes cs with
  | case1 =>
      cases h
      exact .atEnd _ rfl
  | case2 => cases h
  | case3 cs c rest hskip hclose fault' hread =>
      cases h
      exact (readAttribute_found hread).mono (hskip ▸ skipSpace_suffix cs)
  | case4 =>
      cases h
      exact .atEnd _ rfl
  | case5 cs c rest hskip hclose name value d more hread hends hlt _ mark ih =>
      obtain ⟨word, -, hword⟩ := readAttribute_sound hread
      exact (ih h).mono
        (.trans ⟨word, hword.symm⟩ (hskip ▸ skipSpace_suffix cs))
  | case6 cs c rest hskip hclose name value d more hread =>
      cases h
      obtain ⟨word, -, hword⟩ := readAttribute_sound hread
      exact (Found.stray _ _).mono
        (.trans ⟨word, hword.symm⟩ (hskip ▸ skipSpace_suffix cs))

-- ============================================================== statements

/-- What is left behind a flag is the end of the text. -/
theorem readFlag_suffix (word cs : List Char) :
    (readFlag word cs).2 <:+ cs := by
  obtain ⟨flag, -, hflag⟩ := readFlag_sound word cs
  exact ⟨flag, hflag.symm⟩

/-- What is wrong with a statement is in its name or in its list. -/
theorem readStatement_found {cs : List Char} {fault : SyntaxFault × List Char}
    (h : (readStatement cs).stop = .error fault) : Found cs fault := by
  have hflags :=
    (readFlag_suffix ['-', '>'] (readFlag ['?'] cs).2).trans
      (readFlag_suffix ['?'] cs)
  rw [readStatement] at h
  dsimp only at h
  split at h
  · rename_i hname
    cases h
    exact (readName_found hname).mono hflags
  rename_i name rest hname
  have hrest := (readName_suffix hname).trans hflags
  split at h
  · rename_i inner
    split at h
    · rename_i hbody
      cases h
      exact (readAttributes_found hbody).mono
        ((List.suffix_cons '(' inner).trans hrest)
    · cases h
  · cases h

/-- What is wrong with the statements of a line is in one of them, or is a
character that touches the one before it. -/
theorem readStatements_found {cs : List Char} {fault : SyntaxFault × List Char}
    (h : (readStatements cs).stop = .error fault) : Found cs fault := by
  fun_induction readStatements cs with
  | case1 cs first fault' hfirst => exact readStatement_found h
  | case2 | case3 => cases h
  | case4 cs first rest hfirst c more hmore =>
      cases h
      obtain ⟨word, -, hword⟩ := readStatement_sound hfirst
      exact (Found.stray _ _).mono
        (.trans (hmore ▸ skipSpace_suffix rest) ⟨word, hword.symm⟩)
  | case5 cs first rest hfirst c more hmore hhash hgap hlt ih =>
      obtain ⟨word, -, hword⟩ := readStatement_sound hfirst
      exact (ih h).mono
        (.trans (hmore ▸ skipSpace_suffix rest) ⟨word, hword.symm⟩)

/-- A fault of a line points at a place in it. -/
theorem readLine_found {line : List Char} {fault : SyntaxFault × List Char}
    (h : (readLine line).stop = .error fault) : Found line fault := by
  have hskip := skipSpace_suffix line
  rw [readLine] at h
  split at h
  · cases h
  · rename_i c rest hcons
    rw [hcons] at hskip
    split at h
    · cases h
    · exact (readStatements_found h).mono hskip

-- =================================================================== texts

/-- A line of a text, with what stands before it and behind it. -/
structure LineAt (cs before line after : List Char) : Prop where
  split : cs = before ++ (line ++ after)
  begins : before = [] ∨ before.getLast? = some '\n'
  ends : after = [] ∨ after.head? = some '\n'
  whole : '\n' ∉ line

/-- The first line of a text that the grammar does not derive. -/
structure FailsAt (text : String) (before line : List Char) : Prop where
  placed : ∃ after, LineAt text.toList before line after
  derived : ∃ es, Grammar.Text (String.ofList before) es
  underived : ¬ ∃ es, Grammar.Line line es

/-- A text without a line feed is one line. -/
theorem splitLines_of_not_mem {line : List Char} (h : '\n' ∉ line) :
    splitLines line = [line] := by
  rw [splitLines_eq_splitOn]
  exact List.splitOn_eq_singleton h

/-- A line feed ends the first line. -/
theorem splitLines_append {line : List Char} (h : '\n' ∉ line)
    (rest : List Char) :
    splitLines (line ++ '\n' :: rest) = line :: splitLines rest := by
  rw [splitLines_eq_splitOn, splitLines_eq_splitOn]
  exact List.splitOn_append_cons_self_of_not_mem h rest

/-- A text is one line, or one line before others. -/
theorem line_cases (cs : List Char) :
    '\n' ∉ cs ∨ ∃ line rest, '\n' ∉ line ∧ cs = line ++ '\n' :: rest := by
  by_cases h : '\n' ∈ cs
  · obtain ⟨line, rest, hcs, hline⟩ := List.eq_append_cons_of_mem h
    exact .inr ⟨line, rest, hline, hcs⟩
  · exact .inl h

/-- A line among the others stands in the text, behind as many line feeds as
there are lines before it. By induction on the lines before the one that is
looked for. -/
theorem lineAt_of_splitLines {cs line : List Char}
    {earlier later : List (List Char)}
    (h : splitLines cs = earlier ++ line :: later) :
    ∃ before after, LineAt cs before line after
      ∧ splitLines before = earlier ++ [[]]
      ∧ before.count '\n' = earlier.length := by
  induction earlier generalizing cs with
  | nil =>
      refine ⟨[], ?_⟩
      -- The line is the first one: it is the whole text, or what stands before
      -- the first line feed.
      rcases line_cases cs with hcs | ⟨first, rest, hfirst, rfl⟩
      · rw [splitLines_of_not_mem hcs] at h
        cases h
        exact ⟨[], ⟨(List.append_nil _).symm, .inl rfl, .inl rfl, hcs⟩, rfl,
          rfl⟩
      · rw [splitLines_append hfirst] at h
        cases h
        exact ⟨'\n' :: rest, ⟨rfl, .inl rfl, .inr rfl, hfirst⟩, rfl, rfl⟩
  | cons first earlier ih =>
      -- There is a line before it, so the text has a line feed, and what is
      -- behind it has the line by induction.
      rcases line_cases cs with hcs | ⟨first', rest, hfirst, rfl⟩
      · rw [splitLines_of_not_mem hcs] at h
        obtain ⟨-, hnil⟩ := List.cons.inj h
        exact absurd hnil.symm
          (List.append_ne_nil_of_right_ne_nil _ (List.cons_ne_nil _ _))
      · rw [splitLines_append hfirst] at h
        obtain ⟨rfl, hrest⟩ := List.cons.inj h
        obtain ⟨before, after, hline, hlines, hcount⟩ := ih hrest
        refine ⟨first' ++ '\n' :: before, after,
          ⟨?_, .inr ?_, hline.ends, hline.whole⟩, ?_, ?_⟩
        · rw [hline.split, List.append_assoc, List.cons_append]
        -- What is before the line ends in the line feed in front of it, also
        -- when the line follows at once.
        · rw [List.getLast?_append_cons]
          rcases hline.begins with rfl | hlast
          · rfl
          · rw [List.getLast?_cons, hlast]
            rfl
        · rw [splitLines_append hfirst, hlines]
          rfl
        · rw [List.count_append, List.count_eq_zero.2 hfirst,
            List.count_cons_self, hcount, Nat.zero_add]
          rfl

-- ============================================================== the reader

variable {σ ε : Type}

/-- The verdict on lines is the fault of the first that cannot be read. By
induction on the lines; the first one that cannot be read is the one. -/
theorem verdict_malformed {number place : Nat} {lines : List (List Char)}
    {shown : String} {cause : SyntaxFault}
    (h : verdict ε number lines = some (.malformed place shown cause)) :
    ∃ earlier line later rest, lines = earlier ++ line :: later
      ∧ (∀ line' ∈ earlier, ∃ left, (readLine line').stop = .ok left)
      ∧ (readLine line).stop = .error (cause, rest)
      ∧ place = number + earlier.length ∧ shown = near rest := by
  induction lines generalizing number with
  | nil => cases h
  | cons first lines ih =>
      rw [verdict] at h
      split at h
      · rename_i hstop
        cases h
        exact ⟨[], first, lines, _, rfl, List.forall_mem_nil _, hstop, rfl, rfl⟩
      · rename_i left hstop
        obtain ⟨earlier, line, later, rest, rfl, hearlier, hline, rfl,
          hshown⟩ := ih h
        refine ⟨first :: earlier, line, later, rest, rfl,
          List.forall_mem_cons.2 ⟨⟨left, hstop⟩, hearlier⟩, hline, ?_, hshown⟩
        rw [List.length_cons, Nat.add_right_comm, Nat.add_assoc]

/-- Lines of a text that can be read one by one derive it. -/
theorem derived_of_lines {cs : List Char}
    (h : ∀ line ∈ splitLines cs, ∃ rest, (readLine line).stop = .ok rest) :
    ∃ es, Grammar.Text (String.ofList cs) es := by
  refine ⟨_, (splitLines cs).map fun line => (readLine line).events, ?_, rfl⟩
  rw [String.toList_ofList, ← splitLines_eq_splitOn]
  exact forall₂_line_iff.2 ⟨h, rfl⟩

/-- A line at which the reading stops is not one of the grammar, since a line of
the grammar is read to its end. -/
theorem underived_of_error {line : List Char} {fault : SyntaxFault × List Char}
    (h : (readLine line).stop = .error fault) :
    ¬ ∃ es, Grammar.Line line es := by
  rintro ⟨es, hes⟩
  rw [(readLine_complete hes).stop] at h
  cases h

/-- A fault of spelling lies on the first line that the grammar does not derive,
and has its number, one more than the line feeds before it. It shows the rest of
that line from some place on, up to the carriage returns at its end, and what
stands at this place is what the fault says. -/
theorem read_malformed {comments : Bool} {handler : Handler σ ε} {text : String}
    {state : σ} {number : Nat} {shown : String} {cause : SyntaxFault}
    (h : (read comments handler text state).2
      = some (.malformed number shown cause)) :
    ∃ before line rest,
      FailsAt text before line ∧ number = before.count '\n' + 1
      ∧ rest <:+ line
      ∧ (∃ returns, rest = shown.toList ++ returns ∧ (∀ c ∈ returns, c = '\r')
        ∧ shown.toList.getLast? ≠ some '\r')
      ∧ cause.PointsAt rest := by
  -- The fault of the reading is that of the text, because the handler did not
  -- refuse an event before it.
  have hverdict : verdict ε 1 (splitLines text.toList)
      = some (.malformed number shown cause) := by
    have hhears := read_hears comments handler text state
    generalize delivered comments handler text state = told at hhears
    generalize read comments handler text state = result at hhears h
    cases hhears with
    | all => exact h
    | refusal => cases h
  obtain ⟨earlier, line, later, rest, hlines, hearlier, hstop, rfl, rfl⟩ :=
    verdict_malformed hverdict
  obtain ⟨before, after, hline, hbefore, hcount⟩ := lineAt_of_splitLines hlines
  obtain ⟨hinside, hpoints⟩ := readLine_found hstop
  -- The text before the line is made of the lines before it and the empty line
  -- behind its last line feed.
  have hderived : ∃ es, Grammar.Text (String.ofList before) es := by
    refine derived_of_lines fun line' hline' => ?_
    rw [hbefore] at hline'
    rcases List.mem_append.1 hline' with hline' | hline'
    · exact hearlier line' hline'
    · rw [List.mem_singleton.1 hline']
      exact ⟨[], rfl⟩
  refine ⟨before, line, rest,
    ⟨⟨after, hline⟩, hderived, underived_of_error hstop⟩, ?_, hinside,
    near_shows rest, hpoints⟩
  rw [hcount, Nat.add_comm]

/-- A high surrogate without its low one, on the third line. -/
def halvedText : String := "a\nb(x:1)\r\n  c(s:\"\\uD83D\\u0041\" y:1)\r\n"

/-- A first half of a pair without a second one, on the third line of a text. It
is shown from its backslash on. -/
theorem read_malformed_halved :
    (read true (Handler.indifferent Unit) halvedText ()).2
        = some (.malformed 3
          "\\uD83D\\u0041\" y:1)" (.badCodePoint "\\uD83D\\u0041"))
      ∧ ∃ before line rest,
        FailsAt halvedText before line ∧ 3 = before.count '\n' + 1
        ∧ rest <:+ line
        ∧ (∃ returns, rest = "\\uD83D\\u0041\" y:1)".toList ++ returns
          ∧ (∀ c ∈ returns, c = '\r')
          ∧ "\\uD83D\\u0041\" y:1)".toList.getLast? ≠ some '\r')
        ∧ (SyntaxFault.badCodePoint "\\uD83D\\u0041").PointsAt rest := by
  have hread : (read true (Handler.indifferent Unit) halvedText ()).2
      = some (.malformed 3
        "\\uD83D\\u0041\" y:1)" (.badCodePoint "\\uD83D\\u0041")) := by
    with_unfolding_all rfl
  exact ⟨hread, read_malformed hread⟩

end TaskTree.Outline
