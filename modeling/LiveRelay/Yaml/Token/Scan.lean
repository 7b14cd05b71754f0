import LiveRelay.Yaml.Token.Scalar
import LiveRelay.Yaml.Token.Tag

/-! # Cutting a text into tokens

Indentation opens and closes blocks, so the scanner keeps a stack of indentations. A
key may be written without a mark in front of it and is then only known by the colon
behind it, so the scanner also remembers, for every open flow collection, where such a
key may have started; tokens are handed out once they can no longer turn out to be in
a key.
-/

namespace LiveRelay.Yaml

/-- A place where a key without a mark may have started. -/
structure SimpleKey where
  /-- The number of the first token of the key. -/
  token : Nat
  /-- Whether the indentation leaves nothing but a key. -/
  required : Bool
  index : Nat
  line : Nat
  column : Nat

/-- The state between two tokens. -/
structure Scanner where
  cursor : Cursor
  /-- Tokens read and not handed out yet. -/
  queue : List Token := []
  /-- How many tokens have been handed out. -/
  taken : Nat := 0
  flowLevel : Nat := 0
  /-- The column of the innermost block, `-1` outside of all. -/
  indent : Int := -1
  /-- The columns of the blocks around it. -/
  indents : List Int := []
  /-- Whether a key without a mark may start here. -/
  keyAllowed : Bool := true
  /-- The possible key of every open flow collection, the innermost first. -/
  keys : List (Option SimpleKey) := [none]
  ended : Bool := false

namespace Scanner

def inFlow (scanner : Scanner) : Bool := scanner.flowLevel != 0

def push (scanner : Scanner) (token : Token) : Scanner :=
  { scanner with queue := scanner.queue ++ [token] }

/-- Puts a token in front of the one with this number. -/
def insertAt (scanner : Scanner) (number : Nat) (token : Token) : Scanner :=
  { scanner with queue := scanner.queue.insertIdx (number - scanner.taken) token }

/-- Adds a token that was read up to the cursor. -/
def read (scanner : Scanner) (token : Token) (cursor : Cursor) : Scanner :=
  { scanner.push token with cursor }

/-- Forgets the possible key; it is an error if there had to be one. -/
def dropKey (scanner : Scanner) : Option Scanner :=
  match scanner.keys with
  | some key :: keys => if key.required then none else some { scanner with keys := none :: keys }
  | _ => some scanner

/-- Remembers that a key may start here. -/
def markKey (scanner : Scanner) : Option Scanner :=
  if scanner.keyAllowed then do
    let scanner ← scanner.dropKey
    let key : SimpleKey :=
      { token := scanner.taken + scanner.queue.length
        required := !scanner.inFlow && scanner.indent == scanner.cursor.column
        index := scanner.cursor.index
        line := scanner.cursor.line
        column := scanner.cursor.column }
    return { scanner with keys := some key :: scanner.keys.tail }
  else some scanner

/-- Forgets possible keys that would span a line or 1024 characters. -/
def dropStaleKeys (scanner : Scanner) : Option Scanner := do
  let keys ← scanner.keys.mapM fun key? =>
    match key? with
    | none => some none
    | some key =>
        if key.line < scanner.cursor.line ∨ key.index + 1024 < scanner.cursor.index then
          if key.required then none else some none
        else some (some key)
  return { scanner with keys }

/-- Opens a block at the column, unless one is open there. Its token goes to the end of
the queue, or in front of the token with the given number. -/
def openBlock (scanner : Scanner) (column : Nat) (number? : Option Nat) (token : Token) :
    Scanner :=
  if scanner.inFlow || (column : Int) ≤ scanner.indent then scanner
  else
    let scanner :=
      { scanner with indent := column, indents := scanner.indent :: scanner.indents }
    match number? with
    | none => scanner.push token
    | some number => scanner.insertAt number token

/-- Closes the blocks that are indented by more than the column. -/
def closeBlocks (column : Int) : List Int → Scanner → Scanner
  | [], scanner => scanner
  | outer :: indents, scanner =>
      if column < scanner.indent then
        closeBlocks column indents { scanner.push .blockEnd with indent := outer, indents }
      else scanner

/-- Closes the blocks that the column leaves; flow collections ignore indentation. -/
def unindent (scanner : Scanner) (column : Int) : Scanner :=
  if scanner.inFlow then scanner else closeBlocks column scanner.indents scanner

/-- Skips white space, comments and line breaks. A tab is white space only where it
cannot be taken for indentation. -/
def skipGap : (fuel : Nat) → Scanner → Scanner
  | 0, scanner => scanner
  | fuel + 1, scanner =>
      let cursor :=
        if scanner.cursor.index == 0 && scanner.cursor.isAt '\ufeff' then
          scanner.cursor.advance 1
        else scanner.cursor
      let tabs := scanner.inFlow || !scanner.keyAllowed
      let cursor := cursor.skipWhile fun c => c == ' ' || (tabs && c == '\t')
      let cursor := if cursor.isAt '#' then cursor.skipWhile (fun _ => true) else cursor
      if cursor.rest.head?.any isBreak then
        skipGap fuel
          { scanner with
            cursor := cursor.skipBreak, keyAllowed := scanner.keyAllowed || !scanner.inFlow }
      else { scanner with cursor }

/-- Reads what can only stand between documents. -/
def readBoundary (scanner : Scanner) (token : Token) (cursor : Cursor) : Option Scanner := do
  let scanner ← (scanner.unindent (-1)).dropKey
  return { scanner.read token cursor with keyAllowed := false }

def readEnd (scanner : Scanner) : Option Scanner := do
  let scanner ← scanner.readBoundary .streamEnd scanner.cursor
  return { scanner with ended := true }

def readFlowStart (scanner : Scanner) (token : Token) : Option Scanner := do
  let scanner ← scanner.markKey
  return { scanner.read token (scanner.cursor.advance 1) with
    flowLevel := scanner.flowLevel + 1, keys := none :: scanner.keys, keyAllowed := true }

def readFlowEnd (scanner : Scanner) (token : Token) : Option Scanner := do
  let scanner ← scanner.dropKey
  let keys := if scanner.inFlow then scanner.keys.tail else scanner.keys
  return { scanner.read token (scanner.cursor.advance 1) with
    flowLevel := scanner.flowLevel - 1, keys, keyAllowed := false }

def readFlowEntry (scanner : Scanner) : Option Scanner := do
  let scanner ← scanner.dropKey
  return { scanner.read .flowEntry (scanner.cursor.advance 1) with keyAllowed := true }

def readBlockEntry (scanner : Scanner) : Option Scanner := do
  if !scanner.inFlow && !scanner.keyAllowed then none
  let scanner ← (scanner.openBlock scanner.cursor.column none .blockSequenceStart).dropKey
  return { scanner.read .blockEntry (scanner.cursor.advance 1) with keyAllowed := true }

def readKey (scanner : Scanner) : Option Scanner := do
  if !scanner.inFlow && !scanner.keyAllowed then none
  let scanner ← (scanner.openBlock scanner.cursor.column none .blockMappingStart).dropKey
  return { scanner.read .key (scanner.cursor.advance 1) with keyAllowed := !scanner.inFlow }

/-- Reads a colon. If a key may have started earlier, it did. -/
def readValue (scanner : Scanner) : Option Scanner :=
  match scanner.keys with
  | some key :: keys =>
      let scanner := (scanner.insertAt key.token .key).openBlock key.column (some key.token)
        .blockMappingStart
      some { scanner.read .value (scanner.cursor.advance 1) with
        keys := none :: keys, keyAllowed := false }
  | _ => do
      if !scanner.inFlow && !scanner.keyAllowed then none
      let scanner := scanner.openBlock scanner.cursor.column none .blockMappingStart
      return { scanner.read .value (scanner.cursor.advance 1) with keyAllowed := !scanner.inFlow }

/-- Reads a token that may be the start of a key. -/
def readNode (scanner : Scanner) (read : Cursor → Option (Token × Cursor)) : Option Scanner := do
  let scanner ← scanner.markKey
  let (token, cursor) ← read scanner.cursor
  return { scanner.read token cursor with keyAllowed := false }

def readPlain (scanner : Scanner) : Option Scanner := do
  let scanner ← scanner.markKey
  let (text, broken, cursor) ←
    plainScalar scanner.inFlow (scanner.indent + 1).toNat scanner.cursor
  return { scanner.read (.scalar text .plain) cursor with keyAllowed := broken }

def readBlockScalar (scanner : Scanner) (style : ScalarStyle) : Option Scanner := do
  let scanner ← scanner.dropKey
  let (text, cursor) ← blockScalar (style == .folded) scanner.indent scanner.cursor
  return { scanner.read (.scalar text style) cursor with keyAllowed := true }

/-- Whether a plain scalar can start with the character. -/
def startsPlain (inFlow : Bool) (c : Char) (next : Option Char) : Bool :=
  !(isBlank c || isBreak c || "-?:,[]\x7b\x7d#&*!|>'\"%@\x60".toList.contains c)
    || (c == '-' && !next.any isBlank)
    || (!inFlow && (c == '?' || c == ':') && !endsWord next)

/-- Reads one more token into the queue, possibly with others in front of it. -/
def readToken (scanner : Scanner) : Option Scanner := do
  let scanner ← (scanner.skipGap (scanner.cursor.rest.length + 1)).dropStaleKeys
  let cursor := scanner.cursor
  let scanner := scanner.unindent cursor.column
  match cursor.rest with
  | [] => scanner.readEnd
  | c :: rest =>
      let next := rest.head?
      if cursor.column == 0 && c == '%' then
        let (token, cursor) ← directive cursor
        scanner.readBoundary token cursor
      else if cursor.isMarker '-' then scanner.readBoundary .documentStart (cursor.advance 3)
      else if cursor.isMarker '.' then scanner.readBoundary .documentEnd (cursor.advance 3)
      else if c == '[' then scanner.readFlowStart .flowSequenceStart
      else if c == '{' then scanner.readFlowStart .flowMappingStart
      else if c == ']' then scanner.readFlowEnd .flowSequenceEnd
      else if c == '}' then scanner.readFlowEnd .flowMappingEnd
      else if c == ',' then scanner.readFlowEntry
      else if c == '-' && endsWord next then scanner.readBlockEntry
      else if c == '?' && (scanner.inFlow || endsWord next) then scanner.readKey
      else if c == ':' && (scanner.inFlow || endsWord next) then scanner.readValue
      else if c == '*' then
        scanner.readNode fun cursor => (anchorName cursor).map fun (name, rest) =>
          (.reference name, rest)
      else if c == '&' then
        scanner.readNode fun cursor => (anchorName cursor).map fun (name, rest) =>
          (.anchor name, rest)
      else if c == '!' then scanner.readNode (tagToken scanner.inFlow)
      else if c == '|' && !scanner.inFlow then scanner.readBlockScalar .literal
      else if c == '>' && !scanner.inFlow then scanner.readBlockScalar .folded
      else if c == '\x27' then
        scanner.readNode fun cursor => (quotedScalar c cursor).map fun (text, rest) =>
          (.scalar text .singleQuoted, rest)
      else if c == '\x22' then
        scanner.readNode fun cursor => (quotedScalar c cursor).map fun (text, rest) =>
          (.scalar text .doubleQuoted, rest)
      else if startsPlain scanner.inFlow c next then scanner.readPlain
      else none

/-- Reads until the first token of the queue cannot turn out to be in a key. -/
def fill : (fuel : Nat) → Scanner → Option Scanner
  | 0, scanner => some scanner
  | fuel + 1, scanner =>
      if scanner.queue.isEmpty ||
          scanner.keys.any (fun key? => key?.any (·.token == scanner.taken)) then
        scanner.readToken >>= fill fuel
      else some scanner

/-- Hands out the tokens up to the end of the text, or up to where it is malformed. -/
def tokens : (fuel : Nat) → Scanner → List Token
  | 0, _ => []
  | fuel + 1, scanner =>
      match scanner.fill (scanner.cursor.rest.length + 2) with
      | none => []
      | some scanner =>
          match scanner.queue with
          | [] => []
          | .streamEnd :: _ => [.streamEnd]
          | token :: queue =>
              token :: tokens fuel { scanner with queue, taken := scanner.taken + 1 }

end Scanner

/-- The tokens of a text. The last one is the end of the stream, unless the text is
malformed: then the list ends where that shows. A text with a character that is not
allowed has no tokens. -/
def Token.ofText (text : String) : List Token :=
  let chars := text.toList
  if chars.all isAllowed then
    Scanner.tokens (4 * chars.length + 4) { cursor := { rest := chars } }
  else []

end LiveRelay.Yaml
