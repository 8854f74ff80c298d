/-
The grammar of outlines.

Every rule says which characters it derives and which events these stand
for. Nothing is said here about how a line is read: that a name or a bare
value takes all the characters that it can, for instance, is no rule but
follows from what may come after it.
-/
import Mathlib.Data.List.Forall2
import TaskTree.Outline.Reading

namespace TaskTree.Outline.Grammar

-- ============================================================ characters

/-- Indentation. -/
def Indenting (c : Char) : Prop := c = ' ' ∨ c = '\t'

/-- What separates words. -/
def Separating (c : Char) : Prop := c = ' ' ∨ c = '\t' ∨ c = '\r'

/-- A letter. -/
def Letter (c : Char) : Prop := ('a' ≤ c ∧ c ≤ 'z') ∨ ('A' ≤ c ∧ c ≤ 'Z')

/-- A decimal digit. -/
def Digit (c : Char) : Prop := '0' ≤ c ∧ c ≤ '9'

/-- A hexadecimal digit. -/
def HexDigit (c : Char) : Prop :=
  Digit c ∨ ('a' ≤ c ∧ c ≤ 'f') ∨ ('A' ≤ c ∧ c ≤ 'F')

/-- What a name begins with. -/
def NameStart (c : Char) : Prop := Letter c ∨ c = '_' ∨ c = '$'

/-- What a name goes on with. -/
def NameChar (c : Char) : Prop :=
  Letter c ∨ Digit c ∨ c = '_' ∨ c = '$' ∨ c = '.' ∨ c = '-'

/-- What a bare value is made of. -/
def TokenChar (c : Char) : Prop := c ≠ '(' ∧ c ≠ ')' ∧ ¬ Separating c

-- ================================================================= words

/-- A row of separators, possibly none. -/
def Space (cs : List Char) : Prop := ∀ c ∈ cs, Separating c

/-- A name. -/
inductive Name : List Char → Prop where
  | mk {c : Char} {rest : List Char} :
      NameStart c → (∀ d ∈ rest, NameChar d) → Name (c :: rest)

/-- The characters of the short escapes, and what they stand for. -/
inductive Short : Char → Char → Prop where
  | quote : Short '"' '"'
  | backslash : Short '\\' '\\'
  | slash : Short '/' '/'
  | backspace : Short 'b' '\x08'
  | formFeed : Short 'f' '\x0c'
  | lineFeed : Short 'n' '\n'
  | carriageReturn : Short 'r' '\r'
  | tab : Short 't' '\t'

/-- A hexadecimal digit of a number below sixteen, in either case. -/
def DigitOf (n : Nat) (d : Char) : Prop :=
  d = Nat.digitChar n ∨ d = (Nat.digitChar n).toUpper

/-- The four hexadecimal digits of a code unit, each in either case. -/
def UnitDigits (n : Nat) (ds : List Char) : Prop :=
  List.Forall₂ DigitOf
    [n / 0x1000, n / 0x100 % 0x10, n / 0x10 % 0x10, n % 0x10] ds

/-- Four hexadecimal digits and the code unit that they denote. The digits are
told from the number, not the number from the digits: how a reader adds them
up is no part of the grammar. -/
structure Code (ds : List Char) (n : Nat) : Prop where
  small : n ≤ 0xFFFF
  digits : UnitDigits n ds

/-- A number that is the first half of a surrogate pair. -/
def High (n : Nat) : Prop := 0xD800 ≤ n ∧ n < 0xDC00

/-- A number that is the second half of a surrogate pair. -/
def Low (n : Nat) : Prop := 0xDC00 ≤ n ∧ n < 0xE000

/-- What may follow a backslash, and the character that it denotes. -/
inductive Escape : List Char → Char → Prop where
  | short {c value : Char} : Short c value → Escape [c] value
  | unicode {ds : List Char} {n : Nat} :
      Code ds n → ¬ High n → ¬ Low n → Escape ('u' :: ds) (Char.ofNat n)
  | pair {ds es : List Char} {high low : Nat} :
      Code ds high → High high → Code es low → Low low →
      Escape ('u' :: (ds ++ '\\' :: 'u' :: es))
        (Char.ofNat (0x10000 + (high - 0xD800) * 0x400 + (low - 0xDC00)))

/-- What stands between quotes, and the text that it denotes. -/
inductive Body : List Char → List Char → Prop where
  | nil : Body [] []
  | raw {c : Char} {cs values : List Char} :
      c ≠ '"' → c ≠ '\\' → Body cs values → Body (c :: cs) (c :: values)
  | escape {es cs values : List Char} {value : Char} :
      Escape es value → Body cs values →
        Body ('\\' :: (es ++ cs)) (value :: values)

/-- The value of an attribute. -/
inductive Value : List Char → Literal → Prop where
  | quoted {cs values : List Char} :
      Body cs values →
        Value ('"' :: (cs ++ ['"'])) (.text (String.ofList values))
  | token {c : Char} {rest : List Char} {value : Literal} :
      (∀ d ∈ c :: rest, TokenChar d) → c ≠ '#' → c ≠ ':' → c ≠ '"' →
      Literal.ofToken? (c :: rest) = some value → Value (c :: rest) value

-- ============================================================ statements

/-- Items with at least one separator between any two of them. -/
inductive Row (Item : List Char → List Event → Prop) :
    List Char → List Event → Prop where
  | one {cs : List Char} {es : List Event} : Item cs es → Row Item cs es
  | more {cs space rest : List Char} {es fs : List Event} :
      Item cs es → Space space → space ≠ [] → Row Item rest fs →
      Row Item (cs ++ (space ++ rest)) (es ++ fs)

/-- An attribute. -/
inductive Attribute : List Char → List Event → Prop where
  | mk {name before after cs : List Char} {value : Literal} :
      Name name → Space before → Space after → Value cs value →
      Attribute (name ++ (before ++ ':' :: (after ++ cs)))
      [.attr (String.ofList name) value]

/-- The attributes of a statement, without their brackets. -/
inductive Attributes : List Char → List Event → Prop where
  | empty {space : List Char} : Space space → Attributes space []
  | row {before cs after : List Char} {es : List Event} :
      Space before → Row Attribute cs es → Space after →
        Attributes (before ++ (cs ++ after)) es

/-- A mark that may be left out. -/
inductive Flag (word : List Char) : List Char → Bool → Prop where
  | present : Flag word word true
  | absent : Flag word [] false

/-- A statement. -/
inductive Statement : List Char → List Event → Prop where
  | bare {guard reference name : List Char} {isGuard isReference : Bool} :
      Flag ['?'] guard isGuard →
        Flag ['-', '>'] reference isReference → Name name →
      Statement (guard ++ (reference ++ name))
        [.statement (String.ofList name) isReference isGuard, .endStatement]
  | listed {guard reference name cs : List Char} {isGuard isReference : Bool}
      {es : List Event} :
      Flag ['?'] guard isGuard →
        Flag ['-', '>'] reference isReference → Name name →
      Attributes cs es →
      Statement (guard ++ (reference ++ (name ++ '(' :: (cs ++ [')']))))
        (.statement (String.ofList name) isReference isGuard
          :: (es ++ [.endStatement]))

-- ================================================================= lines

/-- A comment, which may be left out. Carriage returns at its end are no
part of its text. -/
inductive Comment : List Char → List Event → Prop where
  | absent : Comment [] []
  | present {text returns : List Char} :
      text.getLast? ≠ some '\r' → (∀ c ∈ returns, c = '\r') →
      Comment ('#' :: (text ++ returns)) [.comment (String.ofList text)]

/-- What stands before the first statement of a line, with the number of
spaces and tabs that it begins with. -/
inductive Margin : List Char → Nat → Prop where
  | mk {indent space : List Char} :
      (∀ c ∈ indent, Indenting c) → Space space →
        (∀ c, space.head? = some c → ¬ Indenting c) →
      Margin (indent ++ space) indent.length

/-- A line, with all its events. -/
inductive Line : List Char → List Event → Prop where
  | blank {space comment : List Char} {es : List Event} :
      Space space → Comment comment es → Line (space ++ comment) es
  | full {margin cs space comment : List Char} {indent : Nat}
      {es fs : List Event} :
      Margin margin indent → Row Statement cs es → Space space →
        Comment comment fs →
      Line (margin ++ (cs ++ (space ++ comment)))
      (.line indent :: (es ++ (fs ++ [.endLine])))

/-- A text, with all its events. -/
def Text (text : String) (es : List Event) : Prop :=
  ∃ rows, List.Forall₂ Line (text.toList.splitOn '\n') rows ∧ rows.flatten = es

end TaskTree.Outline.Grammar
