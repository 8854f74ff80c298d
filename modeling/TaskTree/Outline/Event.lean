/-
What a reader of outlines meets: events, and faults of spelling.
-/
import TaskTree.Outline.Literal

namespace TaskTree.Outline

/-- What a reader meets in a line, in the order of the text. -/
inductive Event where
  /-- A line with statements begins; the number is its indentation. -/
  | line (indent : Nat)
  /-- A statement begins. -/
  | statement (name : String) (isReference isGuard : Bool)
  /-- An attribute of the present statement. -/
  | attr (name : String) (value : Literal)
  /-- The statement is complete. -/
  | endStatement
  /-- The line is complete. -/
  | endLine
  /-- The text after a `#`. -/
  | comment (text : String)
  deriving DecidableEq

/-- Whether an event is a comment. -/
def Event.isComment : Event → Bool
  | .comment _ => true
  | _ => false

/-- A fault of spelling. -/
inductive SyntaxFault where
  /-- The character cannot stand here. -/
  | strayChar (c : Char)
  /-- The line ended where a name has to stand. -/
  | endOfLine
  /-- The line ended inside a quoted text. -/
  | openText
  /-- The line ended inside a list of attributes. -/
  | openList
  /-- The attribute has no value. -/
  | noValue (key : String)
  /-- The token is no value. -/
  | badToken (token : String)
  /-- No escape is written with this character. -/
  | badEscape (c : Char)
  /-- The escape denotes no character. -/
  | badCodePoint (escape : String)
  deriving DecidableEq, Repr

namespace SyntaxFault

/-- The wording of a fault. -/
def message : SyntaxFault → String
  | .strayChar c => "unexpected character '" ++ Text.shownChar c ++ "'"
  | .endOfLine => "unexpected end of line"
  | .openText => "unterminated string"
  | .openList => "attribute list is not closed"
  | .noValue key => "attribute '" ++ key ++ "' has no value"
  | .badToken token =>
    "attribute value '" ++ token
      ++ "' must be a number, a boolean, a string or null"
  | .badEscape c => "illegal escaped character: \\" ++ c.toString
  | .badCodePoint escape => "invalid unicode escape '" ++ escape ++ "'"

/-- The stable code of a fault. -/
def code : SyntaxFault → String
  | .strayChar _ => "SYNTAX_UNEXPECTED_CHAR"
  | .endOfLine => "SYNTAX_UNEXPECTED_END"
  | .openText => "SYNTAX_UNTERMINATED_STRING"
  | .openList => "SYNTAX_UNCLOSED_ATTRIBUTES"
  | .noValue _ => "SYNTAX_MISSING_VALUE"
  | .badToken _ => "SYNTAX_INVALID_VALUE"
  | .badEscape _ => "SYNTAX_ILLEGAL_ESCAPE"
  | .badCodePoint _ => "SYNTAX_INVALID_UNICODE_ESCAPE"

end SyntaxFault

end TaskTree.Outline
