/-
Reading one line of an outline.

A line is its indentation, statements separated by spaces, and possibly a
comment. `readLine` turns it into the events that it holds, each with the
text that was left when the event came up, and either reaches the end of
the line or stops at a fault. It knows nothing of who listens: a listener
that stops early sees the beginning of this list, and one that does not
care for comments sees the list without them.
-/
import TaskTree.Outline.Quoted

namespace TaskTree.Outline

-- ============================================================ characters

/-- Indentation: spaces and tabs. -/
def isIndent (c : Char) : Bool := c = ' ' || c = '\t'

/-- What separates words: indentation and carriage returns. -/
def isSpace (c : Char) : Bool := c = ' ' || c = '\t' || c = '\r'

/-- ASCII letters. -/
def isLetter (c : Char) : Bool := ('a' ≤ c && c ≤ 'z') || ('A' ≤ c && c ≤ 'Z')

/-- What a name may begin with. -/
def startsName (c : Char) : Bool := isLetter c || c = '_' || c = '$'

/-- What a name may go on with. -/
def isNameChar (c : Char) : Bool :=
  isLetter c || Numeral.isDigit c || c = '_' || c = '$' || c = '.' || c = '-'

/-- What a bare value cannot contain. -/
def endsToken (c : Char) : Bool := c = '(' || c = ')' || isSpace c

/-- A text without its leading spaces. -/
def skipSpace (cs : List Char) : List Char := cs.dropWhile isSpace

/-- A text without the carriage returns at its end. -/
def trimReturns (cs : List Char) : List Char :=
  (cs.reverse.dropWhile (· = '\r')).reverse

-- ============================================================= one word

/-- Reads a name. -/
def readName : List Char → Scan (List Char)
  | [] => .error (.endOfLine, [])
  | c :: rest =>
    if startsName c then
      .ok (c :: rest.takeWhile isNameChar, rest.dropWhile isNameChar)
    else .error (.strayChar c, c :: rest)

/-- Reads a bare value, up to a bracket or a space. -/
def readToken (cs : List Char) : Scan Literal :=
  let token := cs.takeWhile fun c => !endsToken c
  match Literal.ofToken? token with
  | some value => .ok (value, cs.dropWhile fun c => !endsToken c)
  | none => .error (.badToken (String.ofList token), cs)

/-- Reads the value of the attribute `name`. -/
def readValue (name : List Char) : List Char → Scan Literal
  | [] => .error (.noValue (String.ofList name), [])
  | c :: rest =>
    if c = ')' then .error (.noValue (String.ofList name), c :: rest)
    else if c = '"' then
      match Quoted.read (c :: rest) rest with
      | .error fault => .error fault
      | .ok (value, after) => .ok (.text (String.ofList value), after)
    else if c = '#' ∨ c = ':' ∨ c = '(' then .error (.strayChar c, c :: rest)
    else readToken (c :: rest)

/-- Reads an attribute: its name, a colon and its value. -/
def readAttribute (cs : List Char) : Scan (List Char × Literal) :=
  match readName cs with
  | .error fault => .error fault
  | .ok (name, afterName) =>
    match skipSpace afterName with
    | [] => .error (.openList, [])
    | c :: rest =>
      if c = ':' then
        match readValue name (skipSpace rest) with
        | .error fault => .error fault
        | .ok (value, after) => .ok ((name, value), after)
      else .error (.strayChar c, c :: rest)

-- ================================================================ events

/-- An event and the text that was left of the line when it came up. -/
abbrev Mark := Event × List Char

/-- What reading a stretch of a line gave: the events in it, and the text
left after it or the fault that stopped it. -/
structure Reading where
  marks : List Mark
  stop : Except (SyntaxFault × List Char) (List Char)

/-- A reading that went on after some events. -/
def Reading.after (marks : List Mark) (reading : Reading) : Reading :=
  { reading with marks := marks ++ reading.marks }

theorem skipSpace_length (cs : List Char) : (skipSpace cs).length ≤ cs.length :=
  (List.dropWhile_sublist isSpace).length_le

theorem readName_length {cs name rest : List Char}
    (h : readName cs = .ok (name, rest)) :
    rest.length < cs.length := by
  cases cs with
  | nil => simp [readName] at h
  | cons c more =>
    simp only [readName] at h
    split at h
    · simp only [Except.ok.injEq, Prod.mk.injEq] at h
      obtain ⟨-, rfl⟩ := h
      have := (List.dropWhile_sublist (l := more) isNameChar).length_le
      simp only [List.length_cons]
      omega
    · simp at h

theorem readValue_length {name cs rest : List Char} {value : Literal}
    (h : readValue name cs = .ok (value, rest)) : rest.length ≤ cs.length := by
  cases cs with
  | nil => simp [readValue] at h
  | cons c more =>
    simp only [readValue] at h
    split at h
    · simp at h
    · split at h
      · split at h
        · simp at h
        · rename_i hread
          simp only [Except.ok.injEq, Prod.mk.injEq] at h
          obtain ⟨-, rfl⟩ := h
          have := Quoted.read_length hread
          simp only [List.length_cons]
          omega
      · split at h
        · simp at h
        · simp only [readToken] at h
          split at h
          · simp only [Except.ok.injEq, Prod.mk.injEq] at h
            obtain ⟨-, rfl⟩ := h
            exact (List.dropWhile_sublist _).length_le
          · simp at h

/-- An attribute takes at least one character. -/
theorem readAttribute_length {cs rest : List Char} {pair : List Char × Literal}
    (h : readAttribute cs = .ok (pair, rest)) : rest.length < cs.length := by
  simp only [readAttribute] at h
  split at h
  · simp at h
  · rename_i name afterName hname
    have h₁ := readName_length hname
    have h₂ := skipSpace_length afterName
    split at h
    · simp at h
    · rename_i c more heq
      rw [heq] at h₂
      split at h
      · split at h
        · simp at h
        · rename_i hvalue
          simp only [Except.ok.injEq, Prod.mk.injEq] at h
          obtain ⟨-, rfl⟩ := h
          have h₃ := readValue_length hvalue
          have h₄ := skipSpace_length more
          simp only [List.length_cons] at h₂
          omega
      · simp at h

/-- Reads the attributes of a statement after the opening bracket, up to
the closing one. -/
def readAttributes (cs : List Char) : Reading :=
  match hs : skipSpace cs with
  | [] => { marks := [], stop := .error (.openList, []) }
  | c :: rest =>
    if c = ')' then { marks := [], stop := .ok rest }
    else
      match h : readAttribute (c :: rest) with
      | .error fault => { marks := [], stop := .error fault }
      | .ok ((name, value), after) =>
        let mark := (.attr (String.ofList name) value, after)
        match after with
        | [] => { marks := [mark], stop := .error (.openList, []) }
        | d :: more =>
          if isSpace d || d = ')' then
            have : (d :: more).length < cs.length := by
              have h₁ := readAttribute_length h
              have h₂ := skipSpace_length cs
              rw [hs] at h₂
              omega
            (readAttributes (d :: more)).after [mark]
          else { marks := [mark], stop := .error (.strayChar d, d :: more) }
termination_by cs.length

/-- Reads one mark of a statement, if it is there. -/
def readFlag (word : List Char) (cs : List Char) : Bool × List Char :=
  if word.isPrefixOf cs then (true, cs.drop word.length) else (false, cs)

/-- Reads a statement: a `?` for a guard, an `->` for a reference, the
name, and attributes in brackets. -/
def readStatement (cs : List Char) : Reading :=
  let (isGuard, cs) := readFlag ['?'] cs
  let (isReference, cs) := readFlag ['-', '>'] cs
  match readName cs with
  | .error fault => { marks := [], stop := .error fault }
  | .ok (name, rest) =>
    let opening := (.statement (String.ofList name) isReference isGuard, rest)
    match rest with
    | '(' :: inner =>
      let body := readAttributes inner
      match body.stop with
      | .error fault => { marks := opening :: body.marks, stop := .error fault }
      | .ok after =>
        { marks := opening :: body.marks ++ [(.endStatement, after)],
          stop := .ok after }
    | _ => { marks := [opening, (.endStatement, rest)], stop := .ok rest }

theorem readAttributes_length {cs rest : List Char}
    (h : (readAttributes cs).stop = .ok rest) :
    rest.length ≤ cs.length := by
  fun_induction readAttributes cs with
  | case1 => simp at h
  | case2 cs more hs =>
    simp only [Except.ok.injEq] at h
    subst h
    have := skipSpace_length cs
    rw [hs] at this
    simp only [List.length_cons] at this
    omega
  | case3 => simp at h
  | case4 => simp at h
  | case5 =>
    rename_i hlt _ _ ih
    have := ih h
    omega
  | case6 => simp at h

theorem readFlag_length (word cs : List Char) :
    (readFlag word cs).2.length ≤ cs.length := by
  simp only [readFlag]
  split
  · simp
  · exact Nat.le_refl _

/-- A statement takes at least one character. -/
theorem readStatement_length {cs rest : List Char}
    (h : (readStatement cs).stop = .ok rest) :
    rest.length < cs.length := by
  have h₁ := readFlag_length ['?'] cs
  have h₂ := readFlag_length ['-', '>'] (readFlag ['?'] cs).2
  simp only [readStatement] at h
  split at h
  · simp at h
  · rename_i name after hname
    have h₃ := readName_length hname
    split at h
    · rename_i inner
      split at h
      · simp at h
      · rename_i hbody
        simp only [Except.ok.injEq] at h
        subst h
        have h₄ := readAttributes_length hbody
        simp only [List.length_cons] at h₃
        omega
    · simp only [Except.ok.injEq] at h
      subst h
      omega

/-- The event of a comment, from the text after its `#`. -/
def commentMark (cs : List Char) : Mark :=
  (.comment (String.ofList (trimReturns cs)), cs)

/-- Reads statements separated by spaces, at least one, up to the end of
the line. -/
def readStatements (cs : List Char) : Reading :=
  let first := readStatement cs
  match hf : first.stop with
  | .error _ => first
  | .ok rest =>
    match hs : skipSpace rest with
    | [] => { marks := first.marks ++ [(.endLine, [])], stop := .ok [] }
    | c :: more =>
      if c = '#' then
        { marks := first.marks ++ [commentMark more, (.endLine, [])],
          stop := .ok [] }
      else if rest.length = (c :: more).length then
        { marks := first.marks, stop := .error (.strayChar c, c :: more) }
      else
        have : (c :: more).length < cs.length := by
          have h₁ := readStatement_length hf
          have h₂ := skipSpace_length rest
          rw [hs] at h₂
          omega
        (readStatements (c :: more)).after first.marks
termination_by cs.length

/-- Reads a line. A line without statements has no events but its
comment. -/
def readLine (cs : List Char) : Reading :=
  let indent := (cs.takeWhile isIndent).length
  match skipSpace cs with
  | [] => { marks := [], stop := .ok [] }
  | c :: rest =>
    if c = '#' then { marks := [commentMark rest], stop := .ok [] }
    else (readStatements (c :: rest)).after [(.line indent, c :: rest)]

end TaskTree.Outline
