import LiveRelay.Yaml.Error
import LiveRelay.Yaml.Node
import LiveRelay.Yaml.Plain

/-! # Reading values out of a document

A decoder reads a value from a node at a place of the document. It follows aliases, but
only so many in one document, and fails with the first thing that is wrong. A problem
is given the place of the innermost decoder that lays claim to it by `locate`.
-/

namespace LiveRelay.Yaml

/-- What a decoder needs to know of the document. -/
structure Scope where
  /-- The nodes behind the anchors. -/
  node? : Nat → Option Node
  /-- How many aliases may be followed. -/
  aliasLimit : Nat

/-- A computation that counts the aliases followed. -/
abbrev Decoder (α : Type) := ReaderT Scope (StateT Nat (Except DocumentError)) α

namespace Decoder

def fail {α : Type} (problem : Problem) : Decoder α := throw (.unfit none problem)

/-- Gives a problem without a place this one. -/
def locate {α : Type} (path : Path) (decoder : Decoder α) : Decoder α := fun scope count =>
  match decoder scope count with
  | .error (.unfit none problem) => .error (.unfit (some path) problem)
  | result => result

/-- The node itself, or the one that an alias stands for. -/
def resolve : Node → Decoder Node
  | .reference anchor => fun scope count =>
      if scope.aliasLimit ≤ count then .error .tooRepetitive
      else
        match scope.node? anchor with
        | some node => .ok (node, count + 1)
        | none => .error .malformed
  | node => pure node

end Decoder

/-- How many collections may be nested in each other. -/
def depthLimit : Nat := 128

namespace Node

/-- What a tag names if it is one of the document's own. -/
def ownTag? (tag : Option String) : Option String :=
  tag.bind fun tag =>
    match tag.toList with
    | '!' :: name => some (if name.isEmpty then tag else String.ofList name)
    | _ => none

def boolTag : String := "tag:yaml.org,2002:bool"

def intTag : String := "tag:yaml.org,2002:int"

def floatTag : String := "tag:yaml.org,2002:float"

def nullTag : String := "tag:yaml.org,2002:null"

/-- Whether a text is an empty plain scalar, as it is read where a node is left out. -/
def isEmptyPlain (style : ScalarStyle) (text : String) : Bool :=
  style == .plain && text.isEmpty

/-- An integer of up to 128 bits, with or without a minus. -/
def integer? (text : String) : Option Found :=
  match Plain.unsigned? text with
  | some n =>
      if n < Nat.pow 2 64 then some (.integer n)
      else if n < Nat.pow 2 128 then some (.wideInteger n)
      else none
  | none =>
      match Plain.negated? text with
      | some n =>
          if n ≤ Nat.pow 2 63 then some (.integer (-n))
          else if n ≤ Nat.pow 2 127 then some (.wideInteger (-n))
          else none
      | none => none

/-- What a plain scalar without a tag stands for. -/
def classifyPlain (text : String) : Found :=
  if text.isEmpty || Plain.isNull text then .null
  else
    match Plain.bool? text with
    | some value => .bool value
    | none =>
        match integer? text with
        | some found => found
        | none =>
            match if Plain.isZeroPadded text.toList then none else Plain.float? text with
            | some bits => .float bits
            | none => .text text

/-- What a scalar stands for. A standard tag must agree with the text; any other tag, and
quotes, make it text, but for a plain scalar with a tag of the document's own. -/
def classify (tag : Option String) (style : ScalarStyle) (text : String) :
    Except Problem Found :=
  let orElse (found? : Option Found) (expected : String) : Except Problem Found :=
    match found? with
    | some found => .ok found
    | none => .error (.invalidValue (.text text) expected)
  match tag with
  | none => .ok (if style == .plain then classifyPlain text else .text text)
  | some name =>
      if name == boolTag then orElse ((Plain.bool? text).map .bool) "a boolean"
      else if name == intTag then orElse (integer? text) "an integer"
      else if name == floatTag then orElse ((Plain.float? text).map .float) "a float"
      else if name == nullTag then orElse (if Plain.isNull text then some .null else none) "null"
      else if (ownTag? tag).isSome && style == .plain then .ok (classifyPlain text)
      else .ok (.text text)

/-- The failure of a decoder that wanted something else. -/
def mismatch {α : Type} (expected : String) : Node → Decoder α
  | scalar tag style text =>
      match classify tag style text with
      | .ok found => Decoder.fail (.invalidType found expected)
      | .error problem => Decoder.fail problem
  | sequence _ _ => Decoder.fail (.invalidType .sequence expected)
  | mapping _ _ => Decoder.fail (.invalidType .mapping expected)
  | reference _ => throw .malformed

/-- Whether a scalar may be read as a value with the given tag: plain ones may, and
literal ones that carry the tag. -/
def mayHold (expectedTag : String) (tag : Option String) (style : ScalarStyle) : Bool :=
  style == .plain || (style == .literal && tag == some expectedTag)

/-- Reads a scalar by its form. -/
def decodeForm {α : Type} (path : Path) (expectedTag expected : String)
    (read? : String → Option α) (node : Node) : Decoder α :=
  .locate path do
    let node ← Decoder.resolve node
    match node with
    | scalar tag style text =>
        match if mayHold expectedTag tag style then read? text else none with
        | some value => pure value
        | none => node.mismatch expected
    | _ => node.mismatch expected

def decodeBool (path : Path) (node : Node) : Decoder Bool :=
  node.decodeForm path boolTag "a boolean" Plain.bool?

/-- Reads a number without a sign that fits into the given number of bits. -/
def decodeUnsigned (path : Path) (bits : Nat) (expected : String) (node : Node) : Decoder Nat :=
  .locate path do
    let n ← node.decodeForm path intTag expected fun text =>
      (Plain.unsigned? text).filter (· < Nat.pow 2 64)
    if n < Nat.pow 2 bits then pure n
    else Decoder.fail (.invalidValue (.integer n) expected)

/-- Reads a float, as its bits in double precision. -/
def decodeFloat (path : Path) (expected : String) (node : Node) : Decoder Nat :=
  node.decodeForm path floatTag expected Plain.float?

/-- Reads the text of a scalar, whatever its form. -/
def decodeString (path : Path) (expected : String) (node : Node) : Decoder String :=
  .locate path do
    let node ← Decoder.resolve node
    match node with
    | scalar _ _ text => pure text
    | _ => node.mismatch expected

/-- Reads a node unless it is null or left out. -/
def decodeOption {α : Type} (decode : Node → Decoder α) (node : Node) : Decoder (Option α) := do
  let node ← Decoder.resolve node
  match node with
  | scalar tag style text =>
      if style != .plain then some <$> decode node
      else
        match tag with
        | none => if text.isEmpty || Plain.isNull text then pure none else some <$> decode node
        | some name =>
            if name != nullTag then some <$> decode node
            else if Plain.isNull text then pure none
            else Decoder.fail (.invalidValue (.text text) "null")
  | _ => some <$> decode node

/-- Reads the items of a sequence one after the other. -/
def decodeItems {α : Type} (path : Path) (decode : Path → Node → Decoder α) :
    (index : Nat) → List Node → Decoder (List α)
  | _, [] => pure []
  | index, item :: items => do
      let value ← decode (.item path index) item
      return value :: (← decodeItems path decode (index + 1) items)

/-- Reads a sequence; a node that is left out has no items. -/
def decodeList {α : Type} (path : Path) (decode : Path → Node → Decoder α) (node : Node) :
    Decoder (List α) :=
  .locate path do
    let node ← Decoder.resolve node
    match node with
    | sequence _ items => decodeItems path decode 0 items
    | scalar _ style text =>
        if isEmptyPlain style text then pure [] else node.mismatch "a sequence"
    | _ => node.mismatch "a sequence"

/-- The place of the value of a key. -/
def keyPath (path : Path) : Node → Path
  | scalar _ _ text => .field path text
  | _ => .unnamed path

/-- Reads the entries of a mapping whose keys name fields. Every known field may occur
once; the values of unknown keys are passed over. -/
def decodeFields {Field Setting : Type} [BEq Field] (path : Path)
    (field? : String → Option Field) (name : Field → String)
    (decode : Path → Field → Node → Decoder Setting) :
    (seen : List Field) → List (Node × Node) → Decoder (List Setting)
  | _, [] => pure []
  | seen, (key, value) :: entries => do
      let text ← key.decodeString path "field identifier"
      match field? text with
      | none => decodeFields path field? name decode seen entries
      | some field =>
          if seen.contains field then Decoder.fail (.duplicateField (name field))
          else
            let setting ← decode (keyPath path key) field value
            let settings ← decodeFields path field? name decode (field :: seen) entries
            return setting :: settings

/-- Reads a mapping whose keys name fields; a node that is left out has none. -/
def decodeRecord {Field Setting Record : Type} [BEq Field] (path : Path) (expected : String)
    (field? : String → Option Field) (name : Field → String)
    (decode : Path → Field → Node → Decoder Setting)
    (build : List Setting → Except Problem Record) (node : Node) : Decoder Record :=
  .locate path do
    let node ← Decoder.resolve node
    let settings ←
      match node with
      | mapping _ entries => decodeFields path field? name decode [] entries
      | scalar _ style text =>
          if isEmptyPlain style text then pure [] else node.mismatch expected
      | _ => node.mismatch expected
    match build settings with
    | .ok record => pure record
    | .error problem => Decoder.fail problem

end Node

/-- Reads the whole document with a decoder for its root. -/
def Document.decode {α : Type} (document : Document) (decode : Node → Decoder α) :
    Except DocumentError α :=
  let scope : Scope := { node? := document.node?, aliasLimit := document.size * 100 }
  (decode document.root scope 0).map (·.1)

end LiveRelay.Yaml
