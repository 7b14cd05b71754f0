import LiveRelay.Config.Basic
import LiveRelay.Yaml.Decoder

/-! # Addresses in a document

The addresses of an endpoint are a list of entries or a single one, and an entry is a
text or a mapping. Which of these it is shows only in the whole node, so the node is
read as `Content` first, without regard to what it should be.
-/

namespace LiveRelay

/-- A node as what its form makes of it. -/
inductive Content where
  | null
  | bool (value : Bool)
  | integer (value : Int)
  | float (bits : Nat)
  | text (text : String)
  | list (items : List Content)
  | table (entries : List (Content × Content))

namespace Content

/-- What a scalar stands for, as content. Integers beyond 64 bits are refused. -/
def ofFound : Yaml.Found → Except Yaml.Problem Content
  | .null => .ok null
  | .bool value => .ok (bool value)
  | .integer value => .ok (integer value)
  | .float bits => .ok (float bits)
  | .text content => .ok (text content)
  | found => .error (.invalidType found "any value")

/-- Reads a node in which collections are nested at most `depth` times. -/
def decode : (depth : Nat) → Yaml.Path → Yaml.Node → Yaml.Decoder Content
  | depth, path, node =>
    .locate path do
      let node ← Yaml.Decoder.resolve node
      match node with
      | .scalar tag style content =>
          if (Yaml.Node.ownTag? tag).isSome then Yaml.Decoder.fail .taggedContent
          else
            match Yaml.Node.classify tag style content >>= ofFound with
            | .ok content => pure content
            | .error problem => Yaml.Decoder.fail problem
      | .sequence tag items =>
          if (Yaml.Node.ownTag? tag).isSome then Yaml.Decoder.fail .taggedContent
          else
            match depth with
            | 0 => throw .tooDeep
            | depth + 1 => list <$> Yaml.Node.decodeItems path (decode depth) 0 items
      | .mapping tag entries =>
          if (Yaml.Node.ownTag? tag).isSome then Yaml.Decoder.fail .taggedContent
          else
            match depth with
            | 0 => throw .tooDeep
            | depth + 1 =>
                table <$> entries.mapM fun (key, value) => do
                  let keyContent ← decode depth path key
                  return (keyContent, ← decode depth (Yaml.Node.keyPath path key) value)
      | _ => throw .malformed

/-- One of two things by its name, or by its place where a key is a number. -/
def choice? {α : Type} (first second : String × α) : Content → Option α
  | text name =>
      if name == first.1 then some first.2
      else if name == second.1 then some second.2
      else none
  | integer 0 => some first.2
  | integer 1 => some second.2
  | _ => none

/-- One of two things: by its name, or by the key of a mapping of one entry without a
value. -/
def variant? {α : Type} (first second : String × α) : Content → Option α
  | text name => choice? first second (text name)
  | table [(key, null)] => choice? first second key
  | _ => none

/-- Null, or one of two things. -/
def optionalVariant? {α : Type} (first second : String × α) : Content → Option (Option α)
  | null => some none
  | content => (variant? first second content).map some

end Content

/-- The fields of an address entry. -/
inductive AddressField where
  | address
  | role
  | direction
  deriving DecidableEq

/-- The field that a key names, by its name or by its place; `none` for other texts and
numbers, and a failure for keys of any other kind. -/
def AddressField.ofKey? : Content → Option (Option AddressField)
  | .text "address" => some (some .address)
  | .text "role" => some (some .role)
  | .text "type" => some (some .role)
  | .text "direction" => some (some .direction)
  | .text _ => some none
  | .integer 0 => some (some .address)
  | .integer 1 => some (some .role)
  | .integer 2 => some (some .direction)
  | .integer n => if n < 0 then none else some none
  | _ => none

namespace AddressConfig

/-- What the entries of an address mapping say, each field at most once. -/
structure Draft where
  address : Option String := none
  role : Option (Option ConnectionRole) := none
  direction : Option (Option Direction) := none

/-- Adds what one entry says. -/
def Draft.add? (draft : Draft) (key value : Content) : Option Draft := do
  match ← AddressField.ofKey? key with
  | none => return draft
  | some .address =>
      match draft.address, value with
      | none, .text address => return { draft with address := some address }
      | _, _ => none
  | some .role =>
      if draft.role.isSome then none
      else
        let role ← value.optionalVariant? ("host", ConnectionRole.host) ("client", .client)
        return { draft with role := some role }
  | some .direction =>
      if draft.direction.isSome then none
      else
        let direction ← value.optionalVariant? ("input", Direction.input) ("output", .output)
        return { draft with direction := some direction }

/-- An entry is a text, or a mapping that has an address. -/
def ofContent? : Content → Option AddressConfig
  | .text address => some (plain address)
  | .table entries => do
      let draft ← entries.foldlM (fun draft (key, value) => draft.add? key value)
        ({} : Draft)
      let address ← draft.address
      return detailed address (draft.role.getD none) (draft.direction.getD none)
  | _ => none

/-- A list of entries, or one entry alone. -/
def listOfContent? (content : Content) : Option (List AddressConfig) :=
  match content with
  | .list items => items.mapM ofContent?
  | content => (ofContent? content).map ([·])

/-- Reads the addresses of an endpoint. Five collections are open around them. -/
def decodeList (path : Yaml.Path) (node : Yaml.Node) : Yaml.Decoder (List AddressConfig) := do
  let content ← Content.decode (Yaml.depthLimit - 5) path node
  match listOfContent? content with
  | some addresses => pure addresses
  | none => Yaml.Decoder.fail (.noMatchingForm "OneOrMany")

end AddressConfig

end LiveRelay
