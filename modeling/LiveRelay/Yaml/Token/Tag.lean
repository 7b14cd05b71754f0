import LiveRelay.Yaml.Cursor
import LiveRelay.Yaml.Token.Scalar

/-! # Reading tags, anchors and directives -/

namespace LiveRelay.Yaml

/-- Whether the character may stand in a tag; `verbatim` tags admit some more. -/
def isTagChar (verbatim : Bool) (c : Char) : Bool :=
  isWordChar c || ";/?:@&=+$.%!~*'()".toList.contains c
    || (verbatim && (c == ',' || c == '[' || c == ']'))

/-- How many bytes a character has that starts with this one. -/
def encodedLength? (lead : Nat) : Option Nat :=
  if lead < 0x80 then some 1
  else if 0xC0 ≤ lead ∧ lead < 0xE0 then some 2
  else if 0xE0 ≤ lead ∧ lead < 0xF0 then some 3
  else if 0xF0 ≤ lead ∧ lead < 0xF8 then some 4
  else none

/-- Reads a percent sign and two digits. -/
def percentByte? (cursor : Cursor) : Option (Nat × Cursor) :=
  match cursor.rest with
  | '%' :: a :: b :: _ => (hexValue? [a, b]).map (·, cursor.advance 3)
  | _ => none

def percentBytes? : Nat → Cursor → Option (List Nat × Cursor)
  | 0, cursor => some ([], cursor)
  | n + 1, cursor => do
      let (byte, cursor) ← percentByte? cursor
      if byte < 0x80 ∨ 0xC0 ≤ byte then none
      let (bytes, cursor) ← percentBytes? n cursor
      return (byte :: bytes, cursor)

/-- Reads a character of which every byte is escaped with a percent sign. -/
def percentChar? (cursor : Cursor) : Option (List Char × Cursor) := do
  let (lead, cursor) ← percentByte? cursor
  let length ← encodedLength? lead
  let (more, cursor) ← percentBytes? (length - 1) cursor
  let text ← String.fromUTF8? ((lead :: more).map UInt8.ofNat).toByteArray
  return (text.toList, cursor)

/-- Reads the characters of a tag. -/
def tagChars (verbatim : Bool) : (fuel : Nat) → Cursor → Option (List Char × Cursor)
  | 0, cursor => some ([], cursor)
  | fuel + 1, cursor =>
      match cursor.rest with
      | [] => some ([], cursor)
      | c :: _ =>
          if !isTagChar verbatim c then some ([], cursor)
          else do
            let (chars, cursor) ← if c == '%' then percentChar? cursor
              else some ([c], cursor.advance 1)
            let (rest, cursor) ← tagChars verbatim fuel cursor
            return (chars ++ rest, cursor)

/-- Reads the part of a tag behind its handle. It must not be empty, unless `given`
characters stand in front of it. -/
def tagSuffix (verbatim : Bool) (given : Nat) (cursor : Cursor) :
    Option (List Char × Cursor) := do
  let (chars, cursor) ← tagChars verbatim (cursor.rest.length + 1) cursor
  if given == 0 && chars.isEmpty then none
  return (chars, cursor)

/-- Reads `!`, `!!` or `!word!`, or what starts like one of them. -/
def tagHandle (cursor : Cursor) : Option (List Char × Cursor) :=
  if cursor.isAt '!' then
    let (word, cursor) := (cursor.advance 1).takeWhile isWordChar
    if cursor.isAt '!' then some ('!' :: word ++ ['!'], cursor.advance 1)
    else some ('!' :: word, cursor)
  else none

/-- Reads a tag given in full, between angle brackets. -/
def verbatimTag (cursor : Cursor) : Option (List Char × List Char × Cursor) := do
  let (chars, cursor) ← tagSuffix true 0 (cursor.advance 2)
  if cursor.isAt '>' then return ([], chars, cursor.advance 1) else none

/-- Reads a tag with a handle. A lone exclamation mark is a tag without one. -/
def shorthandTag (cursor : Cursor) : Option (List Char × List Char × Cursor) := do
  let (handle, cursor) ← tagHandle cursor
  if 1 < handle.length && handle.getLast? == some '!' then
    return (handle, ← tagSuffix false 0 cursor)
  else
    let (chars, cursor) ← tagSuffix false handle.length cursor
    let suffix := handle.tail ++ chars
    return if suffix.isEmpty then ([], ['!'], cursor) else (['!'], suffix, cursor)

/-- Reads a tag, which must end in front of white space. -/
def tagToken (inFlow : Bool) (cursor : Cursor) : Option (Token × Cursor) := do
  let (handle, suffix, cursor) ←
    if cursor.ahead? 1 == some '<' then verbatimTag cursor else shorthandTag cursor
  if endsWord (cursor.ahead? 0) || (inFlow && cursor.isAt ',') then
    return (.tag (String.ofList handle) (String.ofList suffix), cursor)
  else none

/-- Reads the name of an anchor or an alias, starting at its indicator. -/
def anchorName (cursor : Cursor) : Option (String × Cursor) :=
  let (name, cursor) := (cursor.advance 1).takeWhile isWordChar
  let ended :=
    match cursor.ahead? 0 with
    | none => true
    | some c => endsWord (some c) || "?:,]\x7d%@\x60".toList.contains c
  if name.isEmpty || !ended then none else some (String.ofList name, cursor)

/-- Reads a part of a version, of at most nine digits. -/
def versionNumber (cursor : Cursor) : Option (Nat × Cursor) :=
  let (digits, cursor) := cursor.takeWhile Char.isDigit
  if digits.isEmpty || 9 < digits.length then none
  else some (digits.foldl (fun n c => n * 10 + (c.toNat - '0'.toNat)) 0, cursor)

/-- Reads the version that a document wants. -/
def versionDirective (cursor : Cursor) : Option (Token × Cursor) := do
  let (major, cursor) ← versionNumber cursor
  if cursor.isAt '.' then
    let (minor, cursor) ← versionNumber (cursor.advance 1)
    return (.versionDirective major minor, cursor)
  else none

/-- Reads a handle and what it stands for. -/
def tagDirective (cursor : Cursor) : Option (Token × Cursor) := do
  let (handle, cursor) ← tagHandle cursor
  if (handle == ['!'] || (1 < handle.length && handle.getLast? == some '!'))
      && cursor.rest.head?.any isBlank then
    let (expansion, cursor) ← tagSuffix true 0 (cursor.skipWhile isBlank)
    if endsWord (cursor.ahead? 0) then
      return (.tagDirective (String.ofList handle) (String.ofList expansion), cursor)
    else none
  else none

/-- Reads a directive, starting at its percent sign, with the rest of its line. -/
def directive (cursor : Cursor) : Option (Token × Cursor) := do
  let (name, cursor) := (cursor.advance 1).takeWhile isWordChar
  let value := cursor.skipWhile isBlank
  let (token, cursor) ←
    if !endsWord (cursor.ahead? 0) then none
    else if name == "YAML".toList then versionDirective value
    else if name == "TAG".toList then tagDirective value
    else none
  let cursor := cursor.skipLineEnd
  if endsLine (cursor.ahead? 0) then return (token, cursor.skipBreak) else none

end LiveRelay.Yaml
