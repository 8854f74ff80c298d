/-
Quoted texts.

Between double quotes every character stands for itself, except the
quote and the backslash. A backslash begins an escape: a short one such
as `\n`, or `\u` with four hexadecimal digits, where a character above
U+FFFF takes two of them, a high surrogate and a low one. A surrogate
that is not half of such a pair denotes nothing.

Readers take the text that is left of the line and give what is left
after them. A fault comes with the text that it points at: the quoted
text from its quote on if it has no end, an escape from its backslash on.
-/
import TaskTree.Outline.Event

namespace TaskTree.Outline

/-- What a reader gives: a value and the text left after it, or a fault
and the text that it points at. -/
abbrev Scan (α : Type) := Except (SyntaxFault × List Char) (α × List Char)

namespace Quoted

/-- Whether a character is a hexadecimal digit. -/
def isHex (c : Char) : Bool :=
  ('0' ≤ c && c ≤ '9') || ('a' ≤ c && c ≤ 'f') || ('A' ≤ c && c ≤ 'F')

/-- The value of a hexadecimal digit. -/
def hexDigit (c : Char) : Nat :=
  if c ≤ '9' then c.toNat - '0'.toNat
  else if c ≤ 'F' then c.toNat - 'A'.toNat + 10
  else c.toNat - 'a'.toNat + 10

/-- The number that a row of hexadecimal digits denotes. -/
def hexValue (ds : List Char) : Nat :=
  ds.foldl (fun n c => 16 * n + hexDigit c) 0

/-- Up to four hexadecimal digits, and what follows them. -/
def fourHex (cs : List Char) : List Char × List Char :=
  let run := (cs.take 4).takeWhile isHex
  (run, cs.drop run.length)

/-- Whether a code is the first half of a surrogate pair. -/
def isHigh (code : Nat) : Bool := 0xD800 ≤ code && code < 0xDC00

/-- Whether a code is the second half of a surrogate pair. -/
def isLow (code : Nat) : Bool := 0xDC00 ≤ code && code < 0xE000

/-- The code point of a surrogate pair. -/
def pairValue (high low : Nat) : Nat :=
  0x10000 + (high - 0xD800) * 0x400 + (low - 0xDC00)

/-- The fault of an escape of which `taken` was read, at its backslash. -/
def badEscape {α : Type} (taken cs : List Char) : Scan α :=
  .error (.badCodePoint (String.ofList ('\\' :: 'u' :: taken)),
    '\\' :: 'u' :: cs)

/-- Reads the digits of a `\u` escape, and the second escape of a pair. -/
def readUnicode (cs : List Char) : Scan Char :=
  let (first, rest) := fourHex cs
  let code := hexValue first
  if first.length < 4 then badEscape first cs
  else if isHigh code then
    match rest with
    | '\\' :: 'u' :: more =>
      let (second, rest) := fourHex more
      if second.length < 4 || !isLow (hexValue second) then
        badEscape (first ++ '\\' :: 'u' :: second) cs
      else .ok (Char.ofNat (pairValue code (hexValue second)), rest)
    | _ => badEscape first cs
  else if isLow code then badEscape first cs
  else .ok (Char.ofNat code, rest)

/-- The character of a short escape. -/
def shortEscape? : Char → Option Char
  | '"' => some '"'
  | '\\' => some '\\'
  | '/' => some '/'
  | 'b' => some '\x08'
  | 'f' => some '\x0c'
  | 'n' => some '\n'
  | 'r' => some '\r'
  | 't' => some '\t'
  | _ => none

/-- Reads an escape after its backslash, inside the quoted text `whole`. -/
def readEscape (whole : List Char) : List Char → Scan Char
  | [] => .error (.openText, whole)
  | c :: rest =>
    match shortEscape? c with
    | some value => .ok (value, rest)
    | none =>
      if c = 'u' then readUnicode rest
      else .error (.badEscape c, '\\' :: c :: rest)

theorem fourHex_length (cs : List Char) :
    (fourHex cs).2.length ≤ cs.length := by
  simp [fourHex]

theorem readUnicode_length {cs rest : List Char} {c : Char}
    (h : readUnicode cs = .ok (c, rest)) : rest.length ≤ cs.length := by
  have h₁ := fourHex_length cs
  simp only [readUnicode, badEscape] at h
  split at h
  · simp at h
  · split at h
    · split at h
      · rename_i more heq
        have h₂ := fourHex_length more
        rw [heq] at h₁
        split at h
        · simp at h
        · simp only [Except.ok.injEq, Prod.mk.injEq] at h
          obtain ⟨-, rfl⟩ := h
          simp only [List.length_cons] at h₁
          omega
      · simp at h
    · split at h
      · simp at h
      · simp only [Except.ok.injEq, Prod.mk.injEq] at h
        obtain ⟨-, rfl⟩ := h
        exact h₁

/-- An escape takes at least one character beside its backslash. -/
theorem readEscape_length {whole cs rest : List Char} {c : Char}
    (h : readEscape whole cs = .ok (c, rest)) : rest.length < cs.length := by
  cases cs with
  | nil => simp [readEscape] at h
  | cons d more =>
    simp only [readEscape] at h
    split at h
    · simp only [Except.ok.injEq, Prod.mk.injEq] at h
      obtain ⟨-, rfl⟩ := h
      simp
    · split at h
      · have := readUnicode_length h
        simp only [List.length_cons]
        omega
      · simp at h

/-- Reads a quoted text up to its closing quote, after the opening one.
`whole` is the text from that opening quote on. -/
def read (whole : List Char) (cs : List Char) : Scan (List Char) :=
  match cs with
  | [] => .error (.openText, whole)
  | c :: rest =>
    if c = '"' then .ok ([], rest)
    else if c = '\\' then
      match h : readEscape whole rest with
      | .error fault => .error fault
      | .ok (value, after) =>
        have : after.length < rest.length := readEscape_length h
        match read whole after with
        | .error fault => .error fault
        | .ok (values, after) => .ok (value :: values, after)
    else
      match read whole rest with
      | .error fault => .error fault
      | .ok (values, after) => .ok (c :: values, after)
termination_by cs.length

/-- A quoted text takes at least its closing quote. -/
theorem read_length {whole cs value rest : List Char}
    (h : read whole cs = .ok (value, rest)) :
    rest.length < cs.length := by
  fun_induction read whole cs generalizing value rest with
  | case1 => simp at h
  | case2 =>
    simp only [Except.ok.injEq, Prod.mk.injEq] at h
    obtain ⟨-, rfl⟩ := h
    simp
  | case3 => simp at h
  | case4 => simp at h
  | case5 _ _ _ _ hshort _ _ hread _ ih =>
    simp only [Except.ok.injEq, Prod.mk.injEq] at h
    obtain ⟨-, rfl⟩ := h
    have := ih hread
    simp only [List.length_cons]
    omega
  | case6 => simp at h
  | case7 _ _ _ _ _ _ hread ih =>
    simp only [Except.ok.injEq, Prod.mk.injEq] at h
    obtain ⟨-, rfl⟩ := h
    have := ih hread
    simp only [List.length_cons]
    omega

end Quoted

end TaskTree.Outline
