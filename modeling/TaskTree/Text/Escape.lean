/-
Text with escapes, in three styles that differ in what they escape.

A style escapes the backslash, NUL, tab, carriage return and line feed by
a letter, the quotes it asks for by a backslash, and writes `\u` with the
code point in braces for every character that cannot be seen. Characters
that extend the one before them would combine with the opening quote, so a
style says where those are written as code points too: everywhere, only
at the start, or (in the middle of a value) nowhere.
-/
import TaskTree.Text.Extender
import TaskTree.Text.Ignorable
import TaskTree.Text.Unprintable

namespace TaskTree.Text

/-- Which characters are escaped beyond those that always are. -/
structure EscapeStyle where
  singleQuote : Bool
  doubleQuote : Bool
  extender : Bool
  deriving DecidableEq, Repr

/-- Whether a character can be seen: it is printable, and display does not
leave it out. -/
def isVisible (c : Char) : Bool := isPrintable c && !isIgnorable c

/-- The halfwidth sound marks of katakana. They extend the character before
them, and yet they stand in a cell of their own. -/
def isHalfwidthMark (c : Char) : Bool := c = '\uFF9E' || c = '\uFF9F'

/-- Whether a character is drawn into the character before it. -/
def combines (c : Char) : Bool := isExtender c && !isHalfwidthMark c

/-- A code point in lower-case hexadecimal, in braces. -/
def codePoint (c : Char) : List Char :=
  '\\' :: 'u' :: '\x7b' :: Nat.toDigits 16 c.toNat ++ ['\x7d']

/-- A character in the given style. -/
def escapeChar (style : EscapeStyle) (c : Char) : List Char :=
  match c with
  | '\x00' => ['\\', '0']
  | '\t' => ['\\', 't']
  | '\r' => ['\\', 'r']
  | '\n' => ['\\', 'n']
  | '\\' => ['\\', '\\']
  | '"' => if style.doubleQuote then ['\\', '"'] else ['"']
  | '\x27' => if style.singleQuote then ['\\', '\x27'] else ['\x27']
  | c =>
    if style.extender && combines c then codePoint c
    else if isVisible c then [c]
    else codePoint c

/-- The style of a character that stands alone, or first in a value. -/
def EscapeStyle.initial : EscapeStyle :=
  { singleQuote := true, doubleQuote := true, extender := true }

/-- The style of the characters of a value after the first. -/
def EscapeStyle.inner : EscapeStyle :=
  { singleQuote := true, doubleQuote := true, extender := false }

/-- The style of names in descriptions of a structure. -/
def EscapeStyle.described : EscapeStyle :=
  { singleQuote := false, doubleQuote := true, extender := true }

/-- A character that an error message points at. -/
def shownChar (c : Char) : String :=
  String.ofList (escapeChar .initial c)

/-- The characters of a value between its quotes. -/
def escapeValue : List Char → List Char
  | [] => []
  | c :: rest => escapeChar .initial c ++ rest.flatMap (escapeChar .inner)

/-- A value in double quotes. -/
def quotedValue (s : String) : String :=
  String.ofList ('"' :: escapeValue s.toList ++ ['"'])

/-- A name in double quotes, as descriptions of a structure show it. -/
def quotedName (s : String) : String :=
  String.ofList ('"' :: s.toList.flatMap (escapeChar .described) ++ ['"'])

end TaskTree.Text
