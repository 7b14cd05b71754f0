import LiveRelay.Yaml.Cursor
import LiveRelay.Yaml.Token

/-! # Reading scalars

A scalar may run over several lines. The white space between two of its words is a
`Gap`: blanks within a line, or line breaks, which fold into one space when there is
just one of them. Every reader returns the text with the place behind it, and `none`
where the text is malformed. The readers recurse on a bound for the number of
characters left.
-/

namespace LiveRelay.Yaml

/-- White space between two words of a scalar. -/
structure Gap where
  /-- Blanks in front of the first line break. -/
  blanks : List Char := []
  /-- The first line break. -/
  first : List Char := []
  /-- All further line breaks. -/
  further : List Char := []
  /-- Whether a line has ended. -/
  broken : Bool := false

namespace Gap

/-- What the gap contributes to the text of the scalar. -/
def text (gap : Gap) : List Char :=
  if gap.broken then
    if gap.first == ['\n'] then (if gap.further.isEmpty then [' '] else gap.further)
    else gap.first ++ gap.further
  else gap.blanks

/-- Reads white space. Behind a line break, no tab may stand left of column `limit`. -/
def read (limit : Nat) : (fuel : Nat) → Gap → Cursor → Option (Gap × Cursor)
  | 0, gap, cursor => some (gap, cursor)
  | fuel + 1, gap, cursor =>
      match cursor.rest with
      | [] => some (gap, cursor)
      | c :: _ =>
          if isBlank c then
            if gap.broken then
              if c == '\t' && cursor.column < limit then none
              else read limit fuel gap (cursor.advance 1)
            else read limit fuel { gap with blanks := gap.blanks ++ [c] } (cursor.advance 1)
          else if isBreak c then
            let gap :=
              if gap.broken then { gap with further := gap.further ++ cursor.breakText }
              else { gap with blanks := [], first := cursor.breakText, broken := true }
            read limit fuel gap cursor.skipBreak
          else some (gap, cursor)

end Gap

/-- The value of hexadecimal digits; `none` if another character is among them. -/
def hexValue? (digits : List Char) : Option Nat :=
  digits.foldlM (fun n c =>
    if '0' ≤ c ∧ c ≤ '9' then some (n * 16 + (c.toNat - '0'.toNat))
    else if 'a' ≤ c ∧ c ≤ 'f' then some (n * 16 + (c.toNat - 'a'.toNat + 10))
    else if 'A' ≤ c ∧ c ≤ 'F' then some (n * 16 + (c.toNat - 'A'.toNat + 10))
    else none) 0

/-- The character with this number, which must not be half of a surrogate pair. -/
def charOfNumber? (n : Nat) : Option Char :=
  if (0xD800 ≤ n ∧ n ≤ 0xDFFF) ∨ 0x10FFFF < n then none else some (Char.ofNat n)

/-- The character that an escape stands for, and the length of the escape, both
counted from behind the backslash. -/
def escape? : List Char → Option (Char × Nat)
  | [] => none
  | c :: rest =>
      let numbered (length : Nat) : Option (Char × Nat) :=
        let digits := rest.take length
        if digits.length < length then none
        else (hexValue? digits >>= charOfNumber?).map (·, length + 1)
      match c with
      | '0' => some ('\x00', 1)
      | 'a' => some ('\x07', 1)
      | 'b' => some ('\x08', 1)
      | 't' => some ('\t', 1)
      | '\t' => some ('\t', 1)
      | 'n' => some ('\n', 1)
      | 'v' => some ('\x0b', 1)
      | 'f' => some ('\x0c', 1)
      | 'r' => some ('\r', 1)
      | 'e' => some ('\x1b', 1)
      | ' ' => some (' ', 1)
      | '\x22' => some ('\x22', 1)
      | '/' => some ('/', 1)
      | '\\' => some ('\\', 1)
      | 'N' => some ('\u0085', 1)
      | '_' => some ('\u00a0', 1)
      | 'L' => some ('\u2028', 1)
      | 'P' => some ('\u2029', 1)
      | 'x' => numbered 2
      | 'u' => numbered 4
      | 'U' => numbered 8
      | _ => none

/-- What ends a word of a quoted scalar. -/
inductive WordEnd where
  | quote
  /-- White space, or the end of the text. -/
  | gap
  /-- A backslash in front of a line break, which joins the lines. -/
  | joined
  deriving DecidableEq

/-- Reads a word of a quoted scalar into `text`, which is kept in reverse. -/
def quotedWord (quote : Char) :
    (fuel : Nat) → List Char → Cursor → Option (List Char × WordEnd × Cursor)
  | 0, text, cursor => some (text, .gap, cursor)
  | fuel + 1, text, cursor =>
      match cursor.rest with
      | [] => some (text, .gap, cursor)
      | c :: rest =>
          if isBlank c || isBreak c then some (text, .gap, cursor)
          else if c == quote then
            if quote == '\x27' && rest.head? == some quote then
              quotedWord quote fuel (quote :: text) (cursor.advance 2)
            else some (text, .quote, cursor)
          else if quote == '\x22' && c == '\\' then
            if rest.head?.any isBreak then
              some (text, .joined, (cursor.advance 1).skipBreak)
            else
              match escape? rest with
              | none => none
              | some (c, length) =>
                  quotedWord quote fuel (c :: text) (cursor.advance (length + 1))
          else quotedWord quote fuel (c :: text) (cursor.advance 1)

/-- Reads words and gaps up to the closing quote. -/
def quotedWords (quote : Char) :
    (fuel : Nat) → List Char → Cursor → Option (List Char × Cursor)
  | 0, _, _ => none
  | fuel + 1, text, cursor =>
      if cursor.isDocumentMarker || cursor.atEnd then none
      else
        match quotedWord quote (cursor.rest.length + 1) text cursor with
        | none => none
        | some (text, .quote, cursor) => some (text, cursor.advance 1)
        | some (text, ending, cursor) =>
            match Gap.read 0 (cursor.rest.length + 1) { broken := ending == .joined } cursor with
            | none => none
            | some (gap, cursor) => quotedWords quote fuel (gap.text.reverse ++ text) cursor

/-- Reads a quoted scalar, starting at its opening quote. -/
def quotedScalar (quote : Char) (cursor : Cursor) : Option (String × Cursor) :=
  (quotedWords quote (cursor.rest.length + 1) [] (cursor.advance 1)).map
    fun (text, cursor) => (String.ofList text.reverse, cursor)

/-- Whether the character starts, ends or separates flow collections. -/
def isFlowIndicator (c : Char) : Bool :=
  c == ',' || c == '[' || c == ']' || c == '{' || c == '}'

/-- Whether a plain word ends here: at a colon in front of white space, and in flow
collections at their indicators. -/
def endsPlainWord (inFlow : Bool) (c : Char) (next : Option Char) : Bool :=
  (c == ':' && endsWord next) || (inFlow && isFlowIndicator c)

/-- Reads a plain word into `text`, which is kept in reverse. In flow collections a
colon must not stand in front of an indicator. -/
def plainWord (inFlow : Bool) :
    (fuel : Nat) → List Char → Cursor → Option (List Char × Cursor)
  | 0, text, cursor => some (text, cursor)
  | fuel + 1, text, cursor =>
      match cursor.rest with
      | [] => some (text, cursor)
      | c :: rest =>
          if isBlank c || isBreak c then some (text, cursor)
          else if inFlow && c == ':' && rest.head?.any (fun d => d == '?' || isFlowIndicator d) then
            none
          else if endsPlainWord inFlow c rest.head? then some (text, cursor)
          else plainWord inFlow fuel (c :: text) (cursor.advance 1)

/-- Reads the words of a plain scalar that is indented by at least `indent`. Tells
whether a line has ended behind the last word. -/
def plainWords (inFlow : Bool) (indent : Nat) :
    (fuel : Nat) → List Char → Gap → Cursor → Option (List Char × Bool × Cursor)
  | 0, text, gap, cursor => some (text, gap.broken, cursor)
  | fuel + 1, text, gap, cursor =>
      if cursor.isDocumentMarker || cursor.isAt '#' then some (text, gap.broken, cursor)
      else
        match plainWord inFlow (cursor.rest.length + 1) [] cursor with
        | none => none
        | some (word, cursor) =>
            let (text, gap) :=
              if word.isEmpty then (text, gap) else (word ++ gap.text.reverse ++ text, {})
            if cursor.rest.head?.any (fun c => isBlank c || isBreak c) then
              match Gap.read indent (cursor.rest.length + 1) gap cursor with
              | none => none
              | some (gap, cursor) =>
                  if !inFlow && cursor.column < indent then some (text, gap.broken, cursor)
                  else plainWords inFlow indent fuel text gap cursor
            else some (text, gap.broken, cursor)

/-- Reads a plain scalar. Tells whether a line has ended behind it. -/
def plainScalar (inFlow : Bool) (indent : Nat) (cursor : Cursor) :
    Option (String × Bool × Cursor) :=
  (plainWords inFlow indent (cursor.rest.length + 1) [] {} cursor).map
    fun (text, broken, cursor) => (String.ofList text.reverse, broken, cursor)

/-- What becomes of the line breaks at the end of a block scalar. -/
inductive Chomping where
  | strip
  | clip
  | keep
  deriving DecidableEq

/-- Reads the indicators behind `|` or `>`: chomping and an indentation from 1 to 9, in
either order. -/
def blockHeader (cursor : Cursor) : Option (Chomping × Nat × Cursor) :=
  let chomping (cursor : Cursor) : Chomping × Cursor :=
    if cursor.isAt '+' then (.keep, cursor.advance 1)
    else if cursor.isAt '-' then (.strip, cursor.advance 1)
    else (.clip, cursor)
  let indentation (cursor : Cursor) : Option (Nat × Cursor) :=
    match cursor.rest with
    | c :: _ =>
        if c == '0' then none
        else if c.isDigit then some (c.toNat - '0'.toNat, cursor.advance 1)
        else some (0, cursor)
    | [] => some (0, cursor)
  if cursor.isAt '+' || cursor.isAt '-' then do
    let (mode, cursor) := chomping cursor
    let (indent, cursor) ← indentation cursor
    return (mode, indent, cursor)
  else do
    let (indent, next) ← indentation cursor
    let (mode, next) := if next.index == cursor.index then (.clip, next) else chomping next
    return (mode, indent, next)

/-- Reads empty lines of a block scalar, and the indentation of the line behind them.
The `indent` is zero while it has not been determined; `widest` is the largest
indentation seen. A tab must not take the place of indentation. -/
def blockBreaks (indent : Nat) :
    (fuel : Nat) → (widest : Nat) → List Char → Cursor → Option (Nat × List Char × Cursor)
  | 0, _, _, _ => none
  | fuel + 1, widest, breaks, cursor =>
      let spaces := (cursor.rest.takeWhile (· == ' ')).length
      let cursor := cursor.advance
        (if indent == 0 then spaces else min spaces (indent - cursor.column))
      let widest := max widest cursor.column
      if (indent == 0 || cursor.column < indent) && cursor.isAt '\t' then none
      else if cursor.rest.head?.any isBreak then
        blockBreaks indent fuel widest (breaks ++ cursor.breakText) cursor.skipBreak
      else some (widest, breaks, cursor)

/-- The text of a block scalar as far as it has been read. -/
structure BlockText where
  /-- The lines, in reverse. -/
  text : List Char := []
  /-- The break behind the last line. -/
  lastBreak : List Char := []
  /-- The empty lines behind it. -/
  emptyLines : List Char := []
  /-- Whether the last line starts with a blank, so that its break is kept. -/
  blankStart : Bool := false

/-- Reads the lines of a block scalar that are indented by `indent`. -/
def blockLines (folded : Bool) (indent : Nat) :
    (fuel : Nat) → BlockText → Cursor → Option (BlockText × Cursor)
  | 0, block, cursor => some (block, cursor)
  | fuel + 1, block, cursor =>
      if cursor.column != indent || cursor.atEnd then some (block, cursor)
      else
        let blank := cursor.rest.head?.any isBlank
        let joint :=
          if folded && block.lastBreak == ['\n'] && !block.blankStart && !blank then
            if block.emptyLines.isEmpty then [' '] else []
          else block.lastBreak
        let (line, cursor) := cursor.takeWhile fun _ => true
        let text := line.reverse ++ block.emptyLines.reverse ++ joint.reverse ++ block.text
        let lastBreak := cursor.breakText
        let cursor := cursor.skipBreak
        match blockBreaks indent (cursor.rest.length + 1) 0 [] cursor with
        | none => none
        | some (_, emptyLines, cursor) =>
            blockLines folded indent fuel { text, lastBreak, emptyLines, blankStart := blank }
              cursor

/-- Reads a block scalar, starting at its indicator, inside a block that is indented by
`parent` (by `-1` at the top). -/
def blockScalar (folded : Bool) (parent : Int) (cursor : Cursor) : Option (String × Cursor) := do
  let (chomping, increment, cursor) ← blockHeader (cursor.advance 1)
  let cursor := cursor.skipLineEnd
  if !endsLine (cursor.ahead? 0) then none
  let cursor := cursor.skipBreak
  let given := if increment == 0 then 0 else (max parent 0).toNat + increment
  let (widest, emptyLines, cursor) ← blockBreaks given (cursor.rest.length + 1) 0 [] cursor
  let indent := if given == 0 then max widest (max (parent + 1) 1).toNat else given
  let (block, cursor) ←
    blockLines folded indent (cursor.rest.length + 1) { emptyLines } cursor
  let tail :=
    match chomping with
    | .strip => []
    | .clip => block.lastBreak
    | .keep => block.lastBreak ++ block.emptyLines
  return (String.ofList (block.text.reverse ++ tail), cursor)

end LiveRelay.Yaml
