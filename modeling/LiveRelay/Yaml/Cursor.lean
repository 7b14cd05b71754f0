/-! # A place in a text

A cursor holds what is left of a text and how far into it that is: in characters, in
lines, and in characters of the line. A carriage return with a line feed behind it
ends one line.
-/

namespace LiveRelay.Yaml

/-- Whether the character ends a line. -/
def isBreak (c : Char) : Bool :=
  c == '\n' || c == '\r' || c == '\u0085' || c == '\u2028' || c == '\u2029'

/-- Whether the character is a space or a tab. -/
def isBlank (c : Char) : Bool := c == ' ' || c == '\t'

/-- Whether a word ends here: at a blank, a line break or the end of the text. -/
def endsWord : Option Char → Bool
  | none => true
  | some c => isBlank c || isBreak c

/-- Whether a line ends here: at a line break or the end of the text. -/
def endsLine : Option Char → Bool
  | none => true
  | some c => isBreak c

/-- Letters, digits, `-` and `_`. -/
def isWordChar (c : Char) : Bool := c.isAlphanum || c == '-' || c == '_'

/-- Whether a text may hold the character at all: line breaks, tabs, and whatever is
neither a control character nor one of the last two of the basic plane. -/
def isAllowed (c : Char) : Bool :=
  let n := c.toNat
  n == 0x09 || n == 0x0A || n == 0x0D || (0x20 ≤ n && n ≤ 0x7E) || n == 0x85
    || (0xA0 ≤ n && n ≤ 0xD7FF) || (0xE000 ≤ n && n ≤ 0xFFFD) || 0x10000 ≤ n

/-- A place in a text. -/
structure Cursor where
  rest : List Char
  index : Nat := 0
  line : Nat := 0
  column : Nat := 0

namespace Cursor

/-- The character `n` places ahead. -/
def ahead? (cursor : Cursor) (n : Nat) : Option Char := cursor.rest[n]?

def atEnd (cursor : Cursor) : Bool := cursor.rest.isEmpty

/-- Whether the next character is `c`. -/
def isAt (cursor : Cursor) (c : Char) : Bool := cursor.rest.head? == some c

/-- Goes `n` characters on in the same line. -/
def advance (cursor : Cursor) (n : Nat) : Cursor :=
  { cursor with
    rest := cursor.rest.drop n, index := cursor.index + n, column := cursor.column + n }

/-- Goes to the next line, if a line break is next. -/
def skipBreak (cursor : Cursor) : Cursor :=
  let next (n : Nat) : Cursor :=
    { rest := cursor.rest.drop n, index := cursor.index + n, line := cursor.line + 1 }
  match cursor.rest with
  | '\r' :: '\n' :: _ => next 2
  | c :: _ => if isBreak c then next 1 else cursor
  | [] => cursor

/-- The line break that is next, as text: all kinds read as a line feed, but for the
two separators of Unicode. -/
def breakText (cursor : Cursor) : List Char :=
  match cursor.rest with
  | [] => []
  | c :: _ =>
      if c == '\u2028' || c == '\u2029' then [c] else if isBreak c then ['\n'] else []

/-- The characters in front that satisfy `p`, none of them a line break. -/
def takeWhile (cursor : Cursor) (p : Char → Bool) : List Char × Cursor :=
  let taken := (cursor.rest.takeWhile fun c => p c && !isBreak c)
  (taken, cursor.advance taken.length)

def skipWhile (cursor : Cursor) (p : Char → Bool) : Cursor := (cursor.takeWhile p).2

/-- Skips the blanks and the comment at the end of a line. -/
def skipLineEnd (cursor : Cursor) : Cursor :=
  let cursor := cursor.skipWhile isBlank
  if cursor.isAt '#' then cursor.skipWhile fun _ => true else cursor

/-- Whether a line starts here with three of the character and nothing attached. -/
def isMarker (cursor : Cursor) (c : Char) : Bool :=
  cursor.column == 0 && cursor.rest.take 3 == [c, c, c] && endsWord (cursor.ahead? 3)

/-- Whether a line starts here that begins or ends a document. -/
def isDocumentMarker (cursor : Cursor) : Bool := cursor.isMarker '-' || cursor.isMarker '.'

end Cursor

end LiveRelay.Yaml
