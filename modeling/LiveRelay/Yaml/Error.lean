import LiveRelay.Number.Shortest
import LiveRelay.Text.Quoted

/-! # Documents that do not fit

A document is malformed, or it is well-formed and goes beyond a limit, or holds something else
than what is wanted at some place.
-/

namespace LiveRelay.Yaml

/-- What stands in the place of something else. -/
inductive Found where
  | null
  | bool (value : Bool)
  | integer (value : Int)
  /-- An integer beyond 64 bits. -/
  | wideInteger (value : Int)
  /-- A float, by its bits in double precision. -/
  | float (bits : Nat)
  | text (text : String)
  | sequence
  | mapping
  deriving DecidableEq

namespace Found

def describe : Found → String
  | null => "unit value"
  | bool value => s!"boolean \x60{value}\x60"
  | integer value => s!"integer \x60{value}\x60"
  | wideInteger value =>
      s!"integer \x60{value}\x60 as " ++ (if value < 0 then "i128" else "u128")
  | float bits =>
      s!"floating point \x60{(FloatFormat.double.value bits).positional .double}\x60"
  | text content => s!"string {Text.quoted content}"
  | sequence => "sequence"
  | mapping => "map"

end Found

/-- What is wrong in one place of a document. -/
inductive Problem where
  | invalidType (found : Found) (expected : String)
  | invalidValue (found : Found) (expected : String)
  | unknownVariant (name first second : String)
  | missingField (name : String)
  | duplicateField (name : String)
  /-- The content has none of the forms that a field admits. -/
  | noMatchingForm (name : String)
  /-- A tag of the document's own stands where several forms are tried. -/
  | taggedContent
  | unsupportedAmfVersion (version : Nat)
  deriving DecidableEq

namespace Problem

def message : Problem → String
  | invalidType found expected => s!"invalid type: {found.describe}, expected {expected}"
  | invalidValue found expected => s!"invalid value: {found.describe}, expected {expected}"
  | unknownVariant name first second =>
      s!"unknown variant \x60{name}\x60, expected \x60{first}\x60 or \x60{second}\x60"
  | missingField name => s!"missing field \x60{name}\x60"
  | duplicateField name => s!"duplicate field \x60{name}\x60"
  | noMatchingForm name => s!"data did not match any variant of untagged enum {name}"
  | taggedContent => "untagged and internally tagged enums do not support enum input"
  | unsupportedAmfVersion version => s!"unsupported AMF version {version}, expected 0 or 3"

end Problem

/-- A place in a document: the keys and indices that lead there. -/
inductive Path where
  | root
  | field (parent : Path) (key : String)
  | item (parent : Path) (index : Nat)
  /-- The value of a key that is no scalar. -/
  | unnamed (parent : Path)
  deriving DecidableEq

namespace Path

/-- The path as the front of a longer one. -/
def lead (write : Path → String) : Path → String
  | root => ""
  | path => write path ++ "."

def text : Path → String
  | root => "."
  | field root key => key
  | field parent key => s!"{parent.text}.{key}"
  | item parent index => s!"{parent.text}[{index}]"
  | unnamed root => "?"
  | unnamed parent => s!"{parent.text}.?"

end Path

/-- Why a document does not give the wanted value. -/
inductive DocumentError where
  /-- The text is not one well-formed document. -/
  | malformed
  /-- Collections are nested too deeply in a place where several forms are tried. -/
  | tooDeep
  /-- Aliases have been followed too often. -/
  | tooRepetitive
  /-- Something is wrong at a place; a fault of the whole document has none. -/
  | unfit (path : Option Path) (problem : Problem)
  deriving DecidableEq

namespace DocumentError

/-- What is wrong and where. Nothing is said about the place where a text is malformed or goes
beyond a limit. -/
def message : DocumentError → String
  | malformed => "malformed document"
  | tooDeep => "recursion limit exceeded"
  | tooRepetitive => "repetition limit exceeded"
  | unfit none problem => problem.message
  | unfit (some .root) problem => problem.message
  | unfit (some path) problem => s!"{path.text}: {problem.message}"

end DocumentError

end LiveRelay.Yaml
