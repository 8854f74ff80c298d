/-
A carriage return before every line feed changes nothing.

Lines end at line feeds, so the carriage return of such an ending is the last
character of its line, and what reads the line meets it wherever the line
breaks off: after a name, a bare value or a space, in a comment, or in the
middle of a list of attributes, a quoted text or an escape. Nowhere does it
give another event. Every reader of a stretch of a line reads the same with
one more carriage return at the end of the line, and leaves it, or finds a
fault with it and without it (`Agree`); the faults need not be the same, since
a line that broke off now goes on with a character that cannot stand there.

So a handler is told the same, up to the same line (`read_crlf`).
-/
import Mathlib.Data.List.TakeWhile
import TaskTree.Outline.Document
import TaskTree.Proofs.Outline.Listening

namespace TaskTree.Outline

-- =============================================================== the texts

/-- A text with a carriage return before every line feed. -/
def withReturns (cs : List Char) : List Char :=
  cs.flatMap fun c => if c = '\n' then ['\r', '\n'] else [c]

/-- The same text with the other line endings. -/
def crlf (text : String) : String := String.ofList (withReturns text.toList)

/-- The lines of a text with a carriage return behind all but the last. -/
def returned : List (List Char) → List (List Char)
  | line :: next :: lines => (line ++ ['\r']) :: returned (next :: lines)
  | lines => lines

/-- A text has a line at least, perhaps an empty one. -/
theorem splitLines_ne_nil (cs : List Char) : splitLines cs ≠ [] := by
  cases cs with
  | nil => exact List.cons_ne_nil _ _
  | cons c rest =>
      rw [splitLines]
      split
      · exact List.cons_ne_nil _ _
      · split <;> exact List.cons_ne_nil _ _

/-- With a carriage return before every line feed, every line but the last ends
in one. By induction on the text. Its lines are built from the end, so what a
character adds to the first line of the rest is all that there is to see. -/
theorem splitLines_withReturns (cs : List Char) :
    splitLines (withReturns cs) = returned (splitLines cs) := by
  induction cs with
  | nil => rfl
  | cons c rest ih =>
      by_cases hc : c = '\n'
      · subst hc
        -- A line feed ends an empty line in front of the others, and the
        -- carriage return then stands in that line.
        obtain ⟨line, lines, hlines⟩ : ∃ line lines,
            splitLines rest = line :: lines :=
          List.exists_cons_of_ne_nil (splitLines_ne_nil rest)
        have hcs : withReturns ('\n' :: rest)
            = '\r' :: '\n' :: withReturns rest := rfl
        rw [hcs, splitLines, if_neg (by decide), splitLines, if_pos rfl,
          splitLines, if_pos rfl, ih, hlines]
        rfl
      · have hcs : withReturns (c :: rest) = c :: withReturns rest := by
          rw [withReturns, List.flatMap_cons, if_neg hc]
          rfl
        rw [hcs, splitLines, if_neg hc, splitLines, if_neg hc, ih]
        rcases splitLines rest with _ | ⟨line, _ | ⟨next, lines⟩⟩ <;> rfl

-- ================================================================ the words

/-- Both readings come to an end, with what `R` relates, or neither does. -/
inductive Agree {F α : Type} (R : α → α → Prop) :
    Except F α → Except F α → Prop where
  | ok {x x' : α} (h : R x x') : Agree R (.ok x) (.ok x')
  | error (fault fault' : F) : Agree R (.error fault) (.error fault')

/-- Readings one after another agree, if the second ones do wherever the first
ones come to an end. -/
theorem Agree.bind {F α β : Type} {R : α → α → Prop} {S : β → β → Prop}
    {x x' : Except F α} {f f' : α → Except F β} (h : Agree R x x')
    (hf : ∀ v v', x = .ok v → R v v' → Agree S (f v) (f' v')) :
    Agree S (x.bind f) (x'.bind f') := by
  cases h with
  | ok h => exact hf _ _ rfl h
  | error => exact .error _ _

/-- The same value is read, and the carriage return is left. -/
inductive LeavesBehind {α : Type} : α × List Char → α × List Char → Prop where
  | mk (value : α) (rest : List Char) :
      LeavesBehind (value, rest) (value, rest ++ ['\r'])

/-- Agreement taken apart: two faults, or one value and a rest with the carriage
return behind it. -/
theorem Agree.elim {α : Type} {x x' : Scan α} (h : Agree LeavesBehind x x') :
    (∃ fault fault', x = .error fault ∧ x' = .error fault')
      ∨ ∃ value rest, x = .ok (value, rest)
      ∧ x' = .ok (value, rest ++ ['\r']) := by
  cases h with
  | ok h =>
      cases h with
      | mk value rest => exact .inr ⟨value, rest, rfl, rfl⟩
  | error fault fault' => exact .inl ⟨fault, fault', rfl, rfl⟩

/-- What is made of the value alone. -/
theorem Agree.map {α β : Type} {x x' : Scan α} (h : Agree LeavesBehind x x')
    (f : α → β) :
    Agree LeavesBehind (x.map fun y => (f y.1, y.2))
      (x'.map fun y => (f y.1, y.2)) := by
  rcases h.elim with ⟨fault, fault', rfl, rfl⟩ | ⟨value, rest, rfl, rfl⟩
  · exact .error _ _
  · exact .ok (.mk _ _)

section

variable {p : Char → Bool} (h : p '\r' = false) (cs : List Char)

include h

/-- A word that a carriage return cannot carry on is not made longer by one. -/
theorem takeWhile_return : (cs ++ ['\r']).takeWhile p = cs.takeWhile p := by
  induction cs with
  | nil => simp [h]
  | cons c rest ih =>
      rw [List.cons_append, List.takeWhile_cons, List.takeWhile_cons, ih]

/-- What is behind such a word has the carriage return at its end. -/
theorem dropWhile_return :
    (cs ++ ['\r']).dropWhile p = cs.dropWhile p ++ ['\r'] := by
  induction cs with
  | nil => simp [h]
  | cons c rest ih =>
      rw [List.cons_append, List.dropWhile_cons, List.dropWhile_cons, ih]
      split <;> rfl

end

/-- Where nothing but separators is left, the carriage return is one more of
them. -/
theorem skipSpace_return_nil {cs : List Char} (h : skipSpace cs = []) :
    skipSpace (cs ++ ['\r']) = [] := by
  have hall : ∀ c ∈ cs, isSpace c = true := List.dropWhile_eq_nil_iff.1 h
  rw [skipSpace, List.dropWhile_append_of_pos hall]
  rfl

/-- Where something else is left, the carriage return is behind it. -/
theorem skipSpace_return_cons {cs rest : List Char} {c : Char}
    (h : skipSpace cs = c :: rest) :
    skipSpace (cs ++ ['\r']) = c :: (rest ++ ['\r']) := by
  rw [skipSpace] at h
  rw [skipSpace, List.dropWhile_append, h]
  rfl

/-- A carriage return is not part of a name. -/
theorem readName_return (cs : List Char) :
    Agree LeavesBehind (readName cs) (readName (cs ++ ['\r'])) := by
  cases cs with
  | nil => exact .error _ _
  | cons c rest =>
      rw [List.cons_append, readName, readName]
      split
      · rw [takeWhile_return rfl, dropWhile_return rfl]
        exact .ok (.mk _ _)
      · exact .error _ _

/-- A carriage return is not part of a token. -/
theorem readToken_return (cs : List Char) :
    Agree LeavesBehind (readToken cs) (readToken (cs ++ ['\r'])) := by
  have hword : (!endsToken '\r') = false := rfl
  rw [readToken, readToken, takeWhile_return hword, dropWhile_return hword]
  split
  · exact .ok (.mk _ _)
  · exact .error _ _

-- ========================================================== the quoted texts

namespace Quoted

/-- A carriage return is no hexadecimal digit, so it is left behind the digits,
also when they are fewer than four. -/
theorem fourHex_return (cs : List Char) :
    fourHex (cs ++ ['\r']) = ((fourHex cs).1, (fourHex cs).2 ++ ['\r']) := by
  have hrun : ((cs ++ ['\r']).take 4).takeWhile isHex
      = (cs.take 4).takeWhile isHex := by
    rw [List.take_append]
    -- Where the text is too short for four digits, the carriage return is among
    -- the characters looked at.
    cases hleft : 4 - cs.length with
    | zero => rw [List.take_zero, List.append_nil]
    | succ n =>
        rw [List.take_succ_cons, List.take_nil]
        exact takeWhile_return (p := isHex) (by decide) _
  have hle : ((cs.take 4).takeWhile isHex).length ≤ cs.length :=
    ((List.takeWhile_sublist _).trans (List.take_sublist _ _)).length_le
  rw [fourHex, hrun, List.drop_append_of_le_length hle]
  rfl

/-- An escape by code leaves the carriage return behind. By the cases of the
code: too few digits, a first half and what follows it, a second half on its
own, or a plain code. -/
theorem readUnicode_return (cs : List Char) :
    Agree LeavesBehind (readUnicode cs) (readUnicode (cs ++ ['\r'])) := by
  rw [readUnicode, readUnicode, fourHex_return]
  obtain ⟨first, rest⟩ := fourHex cs
  dsimp only
  split
  · exact .error _ _
  · split
    · split
      · rename_i more
        rw [List.cons_append, List.cons_append]
        simp only [fourHex_return]
        split
        · exact .error _ _
        · exact .ok (.mk _ _)
      · -- the carriage return does not begin the second half of a pair
        rename_i hnone
        split
        · rename_i more heq
          rcases rest with _ | ⟨c, _ | ⟨d, rest⟩⟩
          · cases heq
          · cases heq
          · cases heq
            exact absurd rfl (hnone rest)
        · exact .error _ _
    · split
      · exact .error _ _
      · exact .ok (.mk _ _)

/-- So does every other escape. -/
theorem readEscape_return (whole whole' cs : List Char) :
    Agree LeavesBehind (readEscape whole cs)
      (readEscape whole' (cs ++ ['\r'])) := by
  cases cs with
  | nil => exact .error _ _
  | cons c rest =>
      rw [List.cons_append, readEscape, readEscape]
      split
      · exact .ok (.mk _ _)
      · split
        · exact readUnicode_return rest
        · exact .error _ _

/-- Reading a quoted text behind a backslash: one escape, then the rest. -/
theorem read_backslash (whole rest : List Char) :
    read whole ('\\' :: rest) = (readEscape whole rest).bind fun x =>
      (read whole x.2).map fun y => (x.1 :: y.1, y.2) := by
  rw [read, if_neg (by decide), if_pos rfl]
  split
  · rename_i hread
    rw [hread]
    rfl
  · rename_i value after hread
    simp only [hread, Except.bind]
    cases read whole after <;> rfl

/-- Reading it behind any other character that does not close it. -/
theorem read_raw {c : Char} (hquote : c ≠ '"') (hbackslash : c ≠ '\\')
    (whole rest : List Char) :
    read whole (c :: rest) = (read whole rest).map fun y =>
      (c :: y.1, y.2) := by
  rw [read, if_neg hquote, if_neg hbackslash]
  cases read whole rest <;> rfl

/-- A quoted text that is closed is closed before the carriage return, and one
that is open stays open. The two readings may show different texts in their
faults, which is left out here. -/
theorem read_return (whole whole' cs : List Char) :
    Agree LeavesBehind (read whole cs) (read whole' (cs ++ ['\r'])) := by
  match cs with
  -- The text ends open. The carriage return is read as a character of it, and
  -- then it ends open as well.
  | [] =>
      rw [List.nil_append, read_raw (by decide) (by decide), read, read]
      exact .error _ _
  | c :: rest =>
      rw [List.cons_append]
      by_cases hquote : c = '"'
      · rw [read, read, if_pos hquote, if_pos hquote]
        exact .ok (.mk _ _)
      by_cases hbackslash : c = '\\'
      · rw [hbackslash, read_backslash, read_backslash]
        refine (readEscape_return whole whole' rest).bind fun x x' hread hx =>
          ?_
        cases hx with
        | mk value after =>
            have hlt := readEscape_length hread
            exact (read_return whole whole' after).map (value :: ·)
      · rw [read_raw hquote hbackslash, read_raw hquote hbackslash]
        exact (read_return whole whole' rest).map (c :: ·)
termination_by cs.length

end Quoted

-- ============================================================= the attributes

/-- A value leaves the carriage return behind: a quoted text is closed before
it, and a token ends at it. -/
theorem readValue_return (name cs : List Char) :
    Agree LeavesBehind (readValue name cs) (readValue name (cs ++ ['\r'])) := by
  cases cs with
  | nil => exact .error _ _
  | cons c rest =>
      rw [List.cons_append, readValue, readValue]
      split
      · exact .error _ _
      · split
        · have hread :=
            Quoted.read_return (c :: rest) (c :: (rest ++ ['\r'])) rest
          rcases hread.elim with ⟨fault, fault', h, h'⟩ | ⟨value, after, h, h'⟩
          · rw [h, h']
            exact .error _ _
          · rw [h, h']
            exact .ok (.mk _ _)
        · split
          · exact .error _ _
          · exact readToken_return (c :: rest)

/-- What is left of an attribute after its name. -/
theorem readAttribute_eq (cs : List Char) :
    readAttribute cs = (readName cs).bind fun x =>
      match skipSpace x.2 with
      | [] => .error (.openList, [])
      | c :: rest =>
        if c = ':' then (readValue x.1 (skipSpace rest)).map fun y =>
          ((x.1, y.1), y.2)
        else .error (.strayChar c, c :: rest) := by
  rw [readAttribute]
  cases readName cs with
  | error => rfl
  | ok x =>
      dsimp only [Except.bind]
      cases skipSpace x.2 with
      | nil => rfl
      | cons c rest =>
          dsimp only
          split
          · cases readValue x.1 (skipSpace rest) <;> rfl
          · rfl

/-- An attribute leaves the carriage return behind. Its name, the separators,
the colon and its value each do. -/
theorem readAttribute_return (cs : List Char) :
    Agree LeavesBehind (readAttribute cs) (readAttribute (cs ++ ['\r'])) := by
  rw [readAttribute_eq, readAttribute_eq]
  refine (readName_return cs).bind fun x x' _ hx => ?_
  cases hx with
  | mk name after =>
      dsimp only
      cases hskip : skipSpace after with
      | nil =>
          rw [skipSpace_return_nil hskip]
          exact .error _ _
      | cons c rest =>
          rw [skipSpace_return_cons hskip]
          dsimp only
          split
          -- Without a value both lists are open; otherwise the value is the
          -- same.
          · have hvalue : Agree LeavesBehind (readValue name (skipSpace rest))
                (readValue name (skipSpace (rest ++ ['\r']))) := by
              cases hrest : skipSpace rest with
              | nil =>
                  rw [skipSpace_return_nil hrest]
                  exact .error _ _
              | cons d more =>
                  rw [skipSpace_return_cons hrest]
                  exact readValue_return name (d :: more)
            exact hvalue.map (name, ·)
          · exact .error _ _

/-- The same events are met, and both readings come to an end, with what `R`
relates, or neither does. -/
structure Alike (R : List Char → List Char → Prop)
    (reading reading' : Reading) : Prop where
  events : reading'.events = reading.events
  stop : Agree R reading.stop reading'.stop

/-- The carriage return is left behind the rest. -/
def Leaves (rest rest' : List Char) : Prop := rest' = rest ++ ['\r']

/-- Two readings of a line that are alike end in two faults, or with what the
relation holds of. -/
theorem Alike.elim {R : List Char → List Char → Prop}
    {reading reading' : Reading} (h : Alike R reading reading') :
    (∃ fault fault',
      reading.stop = .error fault ∧ reading'.stop = .error fault')
      ∨ ∃ rest rest', reading.stop = .ok rest ∧ reading'.stop = .ok rest'
      ∧ R rest rest' := by
  obtain ⟨-, hstop⟩ := h
  generalize reading.stop = x, reading'.stop = x' at hstop
  cases hstop with
  | ok h => exact .inr ⟨_, _, rfl, rfl, h⟩
  | error => exact .inl ⟨_, _, rfl, rfl⟩

/-- Readings stay alike behind the same events. -/
theorem Alike.after {R : List Char → List Char → Prop}
    {reading reading' : Reading} (h : Alike R reading reading')
    {marks marks' : List Mark} (hmarks : marks'.map (·.1) = marks.map (·.1)) :
    Alike R (reading.after marks) (reading'.after marks') := by
  refine ⟨?_, h.stop⟩
  have hevents : reading'.marks.map (·.1) = reading.marks.map (·.1) := h.events
  rw [Reading.events, Reading.events, Reading.after, Reading.after,
    List.map_append, List.map_append, hmarks, hevents]

section

variable {cs rest : List Char} {c : Char}

/-- A list of attributes where the line ends is open. -/
theorem readAttributes_of_open (h : skipSpace cs = []) :
    readAttributes cs = { marks := [], stop := .error (.openList, []) } := by
  rw [readAttributes]
  split
  · rfl
  · rename_i hcons
    cases h.symm.trans hcons

/-- The list goes on with a character that is no space. -/
theorem readAttributes_of_cons (h : skipSpace cs = c :: rest) :
    readAttributes cs =
      if c = ')' then { marks := [], stop := .ok rest }
      else
        match readAttribute (c :: rest) with
        | .error fault => { marks := [], stop := .error fault }
        | .ok ((name, value), []) =>
          { marks := [(.attr (String.ofList name) value, [])],
            stop := .error (.openList, []) }
        | .ok ((name, value), d :: more) =>
          if isSpace d || d = ')' then
            (readAttributes (d :: more)).after
              [(.attr (String.ofList name) value, d :: more)]
          else
            { marks := [(.attr (String.ofList name) value, d :: more)]
              stop := .error (.strayChar d, d :: more) } := by
  rw [readAttributes]
  split
  · rename_i hnil
    cases h.symm.trans hnil
  · rename_i c' rest' hcons
    obtain ⟨rfl, rfl⟩ := List.cons.inj (h.symm.trans hcons)
    split
    · rfl
    · split
      · rename_i hread
        rw [hread]
      · rename_i after hread
        simp only [hread]
        cases after <;> rfl

end

/-- The carriage return of a line is behind its list of attributes, or the list
is open and stays so. -/
theorem readAttributes_return (cs : List Char) :
    Alike Leaves (readAttributes cs) (readAttributes (cs ++ ['\r'])) := by
  cases hskip : skipSpace cs with
  | nil =>
      rw [readAttributes_of_open hskip,
        readAttributes_of_open (skipSpace_return_nil hskip)]
      exact ⟨rfl, .error _ _⟩
  | cons c rest =>
      rw [readAttributes_of_cons hskip,
        readAttributes_of_cons (skipSpace_return_cons hskip)]
      split
      · exact ⟨rfl, .ok rfl⟩
      · have hread := readAttribute_return (c :: rest)
        rw [List.cons_append] at hread
        rcases hread.elim with ⟨fault, fault', h, h'⟩ |
            ⟨⟨name, value⟩, after, h, h'⟩
        · rw [h, h']
          exact ⟨rfl, .error _ _⟩
        · rw [h, h']
          cases after with
          | nil =>
              -- the carriage return behind the value is a space, and the list
              -- is as open
              rw [List.nil_append]
              dsimp only
              rw [if_pos (by decide), readAttributes_of_open rfl]
              exact ⟨rfl, .error _ _⟩
          | cons d more =>
              rw [List.cons_append]
              dsimp only
              split
              -- The value came before something, so less is left for the
              -- recursion.
              · have hlt : (d :: more).length < cs.length := by
                  have hafter := readAttribute_length h
                  have hrest := skipSpace_length cs
                  rw [hskip] at hrest
                  omega
                exact (readAttributes_return (d :: more)).after rfl
              · exact ⟨rfl, .error _ _⟩
termination_by cs.length

-- ============================================================= the statements

/-- A flag has no carriage return in it, so it is there or not as before. -/
theorem readFlag_return {word : List Char} (hword : '\r' ∉ word)
    (cs : List Char) :
    readFlag word (cs ++ ['\r'])
      = ((readFlag word cs).1, (readFlag word cs).2 ++ ['\r']) := by
  -- The flag cannot end with the carriage return.
  have hprefix : word.isPrefixOf (cs ++ ['\r']) = word.isPrefixOf cs := by
    rw [Bool.eq_iff_iff, List.isPrefixOf_iff_prefix, List.isPrefixOf_iff_prefix,
      List.prefix_concat_iff]
    refine ⟨fun h => h.resolve_left fun heq => hword ?_, .inr⟩
    rw [heq]
    exact List.mem_append_right _ List.mem_cons_self
  rw [readFlag, readFlag, hprefix]
  split
  · rename_i hpresent
    have hle := (List.isPrefixOf_iff_prefix.1 hpresent).length_le
    rw [List.drop_append_of_le_length hle]
  · rfl

/-- A statement leaves the carriage return behind it, with its attributes or
without. -/
theorem readStatement_return (cs : List Char) :
    Alike Leaves (readStatement cs) (readStatement (cs ++ ['\r'])) := by
  rw [readStatement, readStatement, readFlag_return (by decide)]
  dsimp only
  rw [readFlag_return (by decide)]
  dsimp only
  rcases (readName_return _).elim with ⟨fault, fault', h, h'⟩ |
      ⟨name, rest, h, h'⟩
  · rw [h, h']
    exact ⟨rfl, .error _ _⟩
  · rw [h, h']
    dsimp only
    -- The attributes follow the name at once, or there are none.
    split
    · rename_i inner
      have hbody := readAttributes_return inner
      have hevents : (readAttributes (inner ++ ['\r'])).marks.map (·.1)
          = (readAttributes inner).marks.map (·.1) := hbody.events
      rcases hbody.elim with ⟨fault, fault', hstop, hstop'⟩ |
          ⟨after, _, hstop, hstop', rfl⟩
      · simp only [List.cons_append, hstop, hstop']
        refine ⟨?_, .error _ _⟩
        simp only [Reading.events, List.map_cons, hevents]
      · simp only [List.cons_append, hstop, hstop']
        refine ⟨?_, .ok rfl⟩
        simp only [Reading.events, List.map_cons, List.map_append, List.map_nil,
          hevents]
    · rename_i hbare
      split
      · -- the bracket was there before
        rename_i inner heq
        cases rest with
        | nil => cases heq
        | cons c rest =>
            cases heq
            exact absurd rfl (hbare rest)
      · exact ⟨rfl, .ok rfl⟩

-- =================================================================== the lines

/-- Both readings come to an end or neither does, whatever is left. -/
def Anyhow (_ _ : List Char) : Prop := True

/-- The carriage returns at the end of a comment are not part of it. -/
theorem commentMark_return (cs : List Char) :
    (commentMark (cs ++ ['\r'])).1 = (commentMark cs).1 := by
  have htrim : trimReturns (cs ++ ['\r']) = trimReturns cs := by
    rw [trimReturns, trimReturns, List.reverse_append]
    rfl
  rw [commentMark, commentMark, htrim]

/-- What becomes of the statements after the first one. -/
theorem readStatements_eq (cs : List Char) :
    readStatements cs =
      match (readStatement cs).stop with
      | .error _ => readStatement cs
      | .ok rest =>
        match skipSpace rest with
        | [] =>
            { marks := (readStatement cs).marks ++ [(.endLine, [])],
              stop := .ok [] }
        | c :: more =>
          if c = '#' then
            { marks := (readStatement cs).marks
                ++ [commentMark more, (.endLine, [])], stop := .ok [] }
          else if rest.length = (c :: more).length then
            { marks := (readStatement cs).marks,
              stop := .error (.strayChar c, c :: more) }
          else (readStatements (c :: more)).after (readStatement cs).marks := by
  rw [readStatements]
  dsimp only
  split
  · rename_i hfirst
    simp only [hfirst]
  · rename_i rest hfirst
    simp only [hfirst]
    split
    · rename_i hnil
      simp only [hnil]
    · rename_i c more hcons
      simp only [hcons]

/-- The statements of a line are the same with a carriage return at its end. -/
theorem readStatements_return (cs : List Char) :
    Alike Anyhow (readStatements cs) (readStatements (cs ++ ['\r'])) := by
  have hfirst := readStatement_return cs
  -- Behind the first statement is the end of the line, a comment, or another
  -- statement with a separator before it.
  have hevents : (readStatement (cs ++ ['\r'])).marks.map (·.1)
      = (readStatement cs).marks.map (·.1) := hfirst.events
  rw [readStatements_eq, readStatements_eq]
  rcases hfirst.elim with ⟨fault, fault', hstop, hstop'⟩ |
      ⟨rest, _, hstop, hstop', rfl⟩
  · simp only [hstop, hstop']
    refine ⟨hfirst.events, ?_⟩
    rw [hstop, hstop']
    exact .error _ _
  · simp only [hstop, hstop']
    cases hskip : skipSpace rest with
    | nil =>
        rw [skipSpace_return_nil hskip]
        refine ⟨?_, .ok trivial⟩
        simp only [Reading.events, List.map_append, hevents]
    | cons c more =>
        rw [skipSpace_return_cons hskip]
        dsimp only
        split
        · refine ⟨?_, .ok trivial⟩
          simp only [Reading.events, List.map_append, List.map_cons, hevents,
            commentMark_return]
        -- The carriage return adds one to both lengths, so a statement that
        -- touches the one before it is found out in both.
        · have hlength : (rest ++ ['\r']).length
              = (c :: (more ++ ['\r'])).length
              ↔ rest.length = (c :: more).length := by
            simp only [List.length_append, List.length_cons, List.length_nil]
            omega
          by_cases htouch : rest.length = (c :: more).length
          · rw [if_pos htouch, if_pos (hlength.2 htouch)]
            exact ⟨hevents, .error _ _⟩
          · rw [if_neg htouch, if_neg (mt hlength.1 htouch)]
            have hlt : (c :: more).length < cs.length := by
              have hrest := readStatement_length hstop
              have hmore := skipSpace_length rest
              rw [hskip] at hmore
              omega
            exact (readStatements_return (c :: more)).after hevents
termination_by cs.length

/-- A line reads the same with one more carriage return at its end. -/
theorem readLine_return (cs : List Char) :
    Alike Anyhow (readLine cs) (readLine (cs ++ ['\r'])) := by
  rw [readLine, readLine, takeWhile_return (p := isIndent) (by decide)]
  cases hskip : skipSpace cs with
  | nil =>
      rw [skipSpace_return_nil hskip]
      exact ⟨rfl, .ok trivial⟩
  | cons c rest =>
      rw [skipSpace_return_cons hskip]
      dsimp only
      split
      · refine ⟨?_, .ok trivial⟩
        simp only [Reading.events, List.map_cons, List.map_nil,
          commentMark_return]
      · exact (readStatements_return (c :: rest)).after rfl

-- ================================================================ the readings

section

variable {σ ε : Type}

/-- Two readings come to the same state, and to an end or to a fault on the
same line. -/
structure Akin (x x' : σ × Option (ReadFault ε)) : Prop where
  /-- The state of the handler is the same. -/
  state : x'.1 = x.1
  /-- So is the line of the fault, though not what the fault shows of it. -/
  line : x'.2.map ReadFault.line? = x.2.map ReadFault.line?

/-- A handler that also notes down what it is told. -/
def Handler.noting (handler : Handler σ ε) : Handler (σ × List Event) ε :=
  fun event noted =>
    let (state, refusal) := handler event noted.1
    ((state, noted.2 ++ [event]), refusal)

/-- The events that a handler is told of in the reading of a text, the one that
it refuses included. -/
def delivered (comments : Bool) (handler : Handler σ ε) (text : String)
    (state : σ) : List Event :=
  (read comments handler.noting text (state, [])).1.2

variable {handler : Handler σ ε}

/-- A handler sees the events of the marks, and not the text that was left at
each of them. By induction on the events. The two lists of marks run in step,
since their events do. -/
theorem offer_akin {number : Nat} {marks marks' : List Mark} {state : σ}
    (h : marks'.map (·.1) = marks.map (·.1)) :
    Akin (offer handler number marks state)
      (offer handler number marks' state) := by
  induction marks generalizing marks' state with
  | nil =>
      obtain rfl := List.map_eq_nil_iff.1 h
      exact ⟨rfl, rfl⟩
  | cons mark marks ih =>
      obtain ⟨mark', marks', rfl, hmark, hmarks⟩ := List.map_eq_cons_iff.1 h
      rw [offer, offer, hmark]
      rcases handler mark.1 state with ⟨after, _ | cause⟩
      · exact ih hmarks
      · exact ⟨rfl, rfl⟩

/-- Leaving out the comments, where the handler does not ask for them, leaves
the same events. -/
theorem Alike.offered {R : List Char → List Char → Prop}
    {reading reading' : Reading} (h : Alike R reading reading')
    (comments : Bool) :
    (reading'.offered comments).map (·.1)
      = (reading.offered comments).map (·.1) := by
  have hevents : reading'.marks.map (·.1) = reading.marks.map (·.1) := h.events
  cases comments with
  | true => exact hevents
  | false =>
      -- Whether a mark is kept depends on its event.
      have hfilter : ∀ marks : List Mark,
          (marks.filter fun mark => !mark.1.isComment).map (·.1)
          = (marks.map (·.1)).filter fun event => !event.isComment := by
        intro marks
        rw [List.filter_map]
        rfl
      exact (hfilter _).trans ((congrArg _ hevents).trans (hfilter _).symm)

/-- A line that reads alike, before lines that are read to the same end. The
handler refuses an event of the line in both readings, or in neither; in the
latter case the line itself is faulty in both or in neither. -/
theorem readLines_cons_akin {comments : Bool} {number : Nat}
    {line line' : List Char} {lines lines' : List (List Char)} {state : σ}
    (hline : Alike Anyhow (readLine line) (readLine line'))
    (hlines : ∀ state,
      Akin (readLines comments handler (number + 1) lines state)
      (readLines comments handler (number + 1) lines' state)) :
    Akin (readLines comments handler number (line :: lines) state)
      (readLines comments handler number (line' :: lines') state) := by
  have hoffer :
      Akin (offer handler number ((readLine line).offered comments) state)
      (offer handler number ((readLine line').offered comments) state) :=
    offer_akin (hline.offered comments)
  rw [readLines, readLines]
  revert hoffer
  rcases offer handler number ((readLine line).offered comments) state with
    ⟨after, _ | fault⟩ <;>
    rcases offer handler number ((readLine line').offered comments) state with
      ⟨after', _ | fault'⟩ <;>
    rintro ⟨hstate, hfault⟩
  · obtain rfl : after' = after := hstate
    rcases hline.elim with ⟨fault, fault', hstop, hstop'⟩ |
        ⟨rest, rest', hstop, hstop', -⟩
    · simp only [hstop, hstop']
      exact ⟨rfl, rfl⟩
    · simp only [hstop, hstop']
      exact hlines after'
  · cases hfault
  · cases hfault
  · exact ⟨hstate, hfault⟩

/-- A text whose lines end in carriage returns is read as the text without
them. -/
theorem readLines_returned {comments : Bool} {number : Nat}
    (lines : List (List Char)) (state : σ) :
    Akin (readLines comments handler number lines state)
      (readLines comments handler number (returned lines) state) := by
  fun_induction returned lines generalizing number state with
  | case1 line next lines ih =>
      exact readLines_cons_akin (readLine_return line) ih
  | case2 => exact ⟨rfl, rfl⟩

/-- Two texts that differ in their line ends only are read alike. -/
theorem read_akin (comments : Bool) (handler : Handler σ ε) (text : String)
    (state : σ) :
    Akin (read comments handler text state)
      (read comments handler (crlf text) state) := by
  have hlines : splitLines (crlf text).toList
      = returned (splitLines text.toList) := by
    rw [crlf, String.toList_ofList, splitLines_withReturns]
  rw [read, read, hlines]
  exact readLines_returned _ state

end

/-- Carriage returns make no new lines. -/
theorem length_returned (lines : List (List Char)) :
    (returned lines).length = lines.length := by
  fun_induction returned lines with
  | case1 line next lines ih => rw [List.length_cons, ih, ← List.length_cons]
  | case2 => rfl

/-- The last line is as it was. -/
theorem getLast?_returned (lines : List (List Char)) :
    (returned lines).getLast? = lines.getLast? := by
  fun_induction returned lines with
  | case1 line next lines ih =>
      rw [List.getLast?_cons, ih, List.getLast?_cons_cons, List.getLast?_cons]
      rfl
  | case2 => rfl

/-- The line number of a document's end, and its text, are as they were. -/
theorem lastLine_crlf (text : String) :
    lastLine (crlf text).toList = lastLine text.toList := by
  rw [lastLine, lastLine, crlf, String.toList_ofList, splitLines_withReturns,
    getLast?_returned, length_returned]

/-- What a document's fault says of its line is what the reading says of it. -/
theorem line?_ofReadFault (fault : ReadFault BuildFault) :
    (DocumentFault.ofReadFault fault).line? = fault.line? := by
  cases fault <;> rfl

/-- A text with the other line endings reads like it: a handler is told of the
same events in the same order and comes to the same state, and the reading
comes to its end or fails on the same line. So it describes the same tree, or
none, and the log of the reading is the same. -/
theorem read_crlf {σ ε E T : Type} [Behavior E T] (comments : Bool)
    (handler : Handler σ ε) (state : σ) (dialect : Dialect T) (text : String) :
    delivered comments handler (crlf text) state
      = delivered comments handler text state
      ∧ (read comments handler (crlf text) state).1
        = (read comments handler text state).1
      ∧ (read comments handler (crlf text) state).2.map ReadFault.line?
        = (read comments handler text state).2.map ReadFault.line?
      ∧ (dialect.parse (crlf text)).1 = (dialect.parse text).1
      ∧ (dialect.parse (crlf text)).2.mapError DocumentFault.line?
        = (dialect.parse text).2.mapError DocumentFault.line? := by
  -- The events are read off a handler that notes them, and the tree off the
  -- handler of the dialect.
  have hread := read_akin comments handler text state
  have hnoted := read_akin comments handler.noting text (state, [])
  refine ⟨congrArg Prod.snd hnoted.state, hread.state, hread.line, ?_⟩
  have hparse :=
    read_akin dialect.settings.reportsComments dialect.handler text
      (Scaffold.empty, [])
  rw [Dialect.parse, Dialect.parse, lastLine_crlf]
  -- A fault of the reading is the fault of the document; without one the same
  -- scaffold is closed on the same last line.
  revert hparse
  rcases read dialect.settings.reportsComments dialect.handler text
    (Scaffold.empty, []) with ⟨⟨s, log⟩, _ | fault⟩ <;>
    rcases read dialect.settings.reportsComments dialect.handler (crlf text)
      (Scaffold.empty, []) with ⟨⟨s', log'⟩, _ | fault'⟩ <;>
    rintro ⟨hstate, hline⟩
  · cases hstate
    exact ⟨rfl, rfl⟩
  · cases hline
  · cases hline
  · cases hstate
    refine ⟨rfl, congrArg Except.error ?_⟩
    rw [line?_ofReadFault, line?_ofReadFault]
    exact Option.some.inj hline

end TaskTree.Outline
