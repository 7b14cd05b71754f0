import LiveRelay.Yaml.Token.Scan

/-! # The events of a YAML text

The tokens of a text are read as a sequence of events that open, fill and close the
nodes of its documents. `EventReader.step` reads one event; what it expects next
depends on where it is, and on a stack of places to return to.
-/

namespace LiveRelay.Yaml

/-- What a node carries in front of its content. -/
structure NodeProperties where
  anchor : Option String := none
  /-- The tag in full; a node without one is read by its form. -/
  tag : Option String := none
  deriving DecidableEq

inductive Event where
  | documentStart
  | documentEnd
  | streamEnd
  | reference (name : String)
  | scalar (properties : NodeProperties) (text : String) (style : ScalarStyle)
  | sequenceStart (properties : NodeProperties)
  | sequenceEnd
  | mappingStart (properties : NodeProperties)
  | mappingEnd
  deriving DecidableEq

/-- Where in the grammar the reader is. -/
inductive Place where
  /-- In front of a document; the first one needs no marker. -/
  | documentStart (implicit : Bool)
  | documentContent
  | documentEnd
  | blockNode
  | blockSequenceEntry (first : Bool)
  | indentlessEntry
  | blockMappingKey (first : Bool)
  | blockMappingValue
  | flowSequenceEntry (first : Bool)
  /-- In a mapping of one entry that is written as an element of a sequence. -/
  | flowPairKey
  | flowPairValue
  | flowPairEnd
  | flowMappingKey (first : Bool)
  | flowMappingValue
  /-- Behind a key that has no value. -/
  | flowMappingNoValue
  | done
  deriving DecidableEq

/-- The state between two events. -/
structure EventReader where
  tokens : List Token
  place : Place := .documentStart true
  /-- The places to return to, the innermost first. -/
  returns : List Place := []
  /-- What the tag handles of the document stand for. -/
  handles : List (String × String) := []

namespace EventReader

/-- Goes to a place without leaving the current node. -/
def goTo (reader : EventReader) (place : Place) : EventReader := { reader with place }

/-- Leaves the current node. -/
def leave (reader : EventReader) : EventReader :=
  match reader.returns with
  | [] => { reader with place := .done }
  | place :: returns => { reader with place, returns }

def drop (reader : EventReader) : EventReader := { reader with tokens := reader.tokens.tail }

/-- A node that is left out. -/
def emptyScalar : Event := .scalar {} "" .plain

/-- The handles that every document has. -/
def defaultHandles : List (String × String) :=
  [("!", "!"), ("!!", "tag:yaml.org,2002:")]

/-- Reads the directives in front of a document. There may be one version, which must be
1.1 or 1.2, and one expansion for every handle. -/
def readDirectives : List Token → (version : Bool) → (handles : List (String × String)) →
    Option (List Token × List (String × String))
  | .versionDirective major minor :: rest, version, handles =>
      if version || major != 1 || !(minor == 1 || minor == 2) then none
      else readDirectives rest true handles
  | .tagDirective handle expansion :: rest, version, handles =>
      if handles.any (·.1 == handle) then none
      else readDirectives rest version (handles ++ [(handle, expansion)])
  | tokens, _, handles => some (tokens, handles ++ defaultHandles)

/-- The full tag for a handle and a suffix. -/
def fullTag? (reader : EventReader) (handle suffix : String) : Option String :=
  if handle.isEmpty then some suffix
  else (reader.handles.find? (·.1 == handle)).map (·.2 ++ suffix)

/-- Reads an anchor and a tag, in either order. -/
def readProperties (reader : EventReader) : Option (NodeProperties × EventReader) :=
  let tagged (anchor : Option String) (handle suffix : String) (rest : List Token) :=
    (reader.fullTag? handle suffix).map fun tag =>
      (({ anchor, tag := some tag } : NodeProperties), { reader with tokens := rest })
  match reader.tokens with
  | .anchor name :: .tag handle suffix :: rest => tagged (some name) handle suffix rest
  | .tag handle suffix :: .anchor name :: rest => tagged (some name) handle suffix rest
  | .tag handle suffix :: rest => tagged none handle suffix rest
  | .anchor name :: rest => some ({ anchor := some name }, { reader with tokens := rest })
  | _ => some ({}, reader)

/-- Reads the start of a node. `block` admits block collections, and `indentless` a
sequence whose entries are not indented below their key. -/
def node (reader : EventReader) (block indentless : Bool) : Option (Event × EventReader) :=
  match reader.tokens with
  | .reference name :: _ => some (.reference name, reader.drop.leave)
  | _ => do
      let (properties, reader) ← reader.readProperties
      match reader.tokens with
      | [] => none
      | token :: _ =>
          let opened (event : Event) (place : Place) := some (event, reader.goTo place)
          match token with
          | .scalar text style =>
              let properties :=
                if properties.tag == some "!" then { properties with tag := none } else properties
              some (.scalar properties text style, reader.drop.leave)
          | .flowSequenceStart => opened (.sequenceStart properties) (.flowSequenceEntry true)
          | .flowMappingStart => opened (.mappingStart properties) (.flowMappingKey true)
          | token =>
              if indentless && token == .blockEntry then
                opened (.sequenceStart properties) .indentlessEntry
              else if block && token == .blockSequenceStart then
                opened (.sequenceStart properties) (.blockSequenceEntry true)
              else if block && token == .blockMappingStart then
                opened (.mappingStart properties) (.blockMappingKey true)
              else if properties.anchor.isSome || properties.tag.isSome then
                some (.scalar properties "" .plain, reader.leave)
              else none

/-- Reads a node and returns to `place`; when one of the tokens in `absent` is next, the
node is left out. -/
def nodeUnless (reader : EventReader) (absent : List Token) (place : Place)
    (block indentless : Bool) : Option (Event × EventReader) :=
  match reader.tokens with
  | [] => none
  | token :: _ =>
      if absent.contains token then some (emptyScalar, reader.goTo place)
      else { reader with returns := place :: reader.returns }.node block indentless

/-- Reads the element of a flow sequence that starts with `token`. -/
def flowElement (reader : EventReader) (token : Token) : Option (Event × EventReader) :=
  match token with
  | .flowSequenceEnd => some (.sequenceEnd, reader.drop.leave)
  | .key => some (.mappingStart {}, reader.drop.goTo .flowPairKey)
  | _ => { reader with returns := .flowSequenceEntry false :: reader.returns }.node false false

/-- Reads the entry of a flow mapping that starts with `token`. -/
def flowEntry (reader : EventReader) (token : Token) : Option (Event × EventReader) :=
  match token with
  | .flowMappingEnd => some (.mappingEnd, reader.drop.leave)
  | .key =>
      reader.drop.nodeUnless [.value, .flowEntry, .flowMappingEnd] .flowMappingValue false false
  | _ => { reader with returns := .flowMappingNoValue :: reader.returns }.node false false

/-- Reads the start of a document, or the end of the text. Only the first document may
do without a marker, and may have no directives then. -/
def document (reader : EventReader) (implicit : Bool) : Option (Event × EventReader) :=
  let reader :=
    if implicit then reader
    else { reader with tokens := reader.tokens.dropWhile (· == .documentEnd) }
  match reader.tokens with
  | [] => none
  | .streamEnd :: _ => some (.streamEnd, reader.drop.goTo .done)
  | token :: _ =>
      let marked :=
        match token with
        | .versionDirective _ _ => true
        | .tagDirective _ _ => true
        | .documentStart => true
        | _ => false
      if implicit && !marked then
        some (.documentStart,
          { reader with
            place := .blockNode, returns := .documentEnd :: reader.returns
            handles := defaultHandles })
      else
        match readDirectives reader.tokens false [] with
        | some (.documentStart :: tokens, handles) =>
            some (.documentStart,
              { tokens, handles, place := .documentContent,
                returns := .documentEnd :: reader.returns })
        | _ => none

/-- Reads one event; `none` where the tokens follow no rule or have run out. -/
def step (reader : EventReader) : Option (Event × EventReader) :=
  match reader.tokens with
  | [] => none
  | token :: _ =>
      match reader.place with
      | .done => none
      | .documentStart implicit => reader.document implicit
      | .documentContent =>
          match token with
          | .versionDirective _ _ | .tagDirective _ _ | .documentStart | .documentEnd
          | .streamEnd => some (emptyScalar, reader.leave)
          | _ => reader.node true false
      | .documentEnd =>
          let reader := if token == .documentEnd then reader.drop else reader
          some (.documentEnd, reader.goTo (.documentStart false))
      | .blockNode => reader.node true false
      | .blockSequenceEntry first =>
          let reader := if first then reader.drop else reader
          match reader.tokens with
          | .blockEntry :: _ =>
              reader.drop.nodeUnless [.blockEntry, .blockEnd] (.blockSequenceEntry false) true false
          | .blockEnd :: _ => some (.sequenceEnd, reader.drop.leave)
          | _ => none
      | .indentlessEntry =>
          if token == .blockEntry then
            reader.drop.nodeUnless [.blockEntry, .key, .value, .blockEnd] .indentlessEntry true
              false
          else some (.sequenceEnd, reader.leave)
      | .blockMappingKey first =>
          let reader := if first then reader.drop else reader
          match reader.tokens with
          | .key :: _ =>
              reader.drop.nodeUnless [.key, .value, .blockEnd] .blockMappingValue true true
          | .blockEnd :: _ => some (.mappingEnd, reader.drop.leave)
          | _ => none
      | .blockMappingValue =>
          if token == .value then
            reader.drop.nodeUnless [.key, .value, .blockEnd] (.blockMappingKey false) true true
          else some (emptyScalar, reader.goTo (.blockMappingKey false))
      | .flowSequenceEntry first =>
          let reader := if first then reader.drop else reader
          match reader.tokens with
          | [] => none
          | token :: rest =>
              if first || token == .flowSequenceEnd then reader.flowElement token
              else if token == .flowEntry then
                match rest with
                | [] => none
                | token :: _ => reader.drop.flowElement token
              else none
      | .flowPairKey =>
          if [.value, .flowEntry, .flowSequenceEnd].contains token then
            some (emptyScalar, reader.drop.goTo .flowPairValue)
          else { reader with returns := .flowPairValue :: reader.returns }.node false false
      | .flowPairValue =>
          if token == .value then
            reader.drop.nodeUnless [.flowEntry, .flowSequenceEnd] .flowPairEnd false false
          else some (emptyScalar, reader.goTo .flowPairEnd)
      | .flowPairEnd => some (.mappingEnd, reader.goTo (.flowSequenceEntry false))
      | .flowMappingKey first =>
          let reader := if first then reader.drop else reader
          match reader.tokens with
          | [] => none
          | token :: rest =>
              if first || token == .flowMappingEnd then reader.flowEntry token
              else if token == .flowEntry then
                match rest with
                | [] => none
                | token :: _ => reader.drop.flowEntry token
              else none
      | .flowMappingValue =>
          if token == .value then
            reader.drop.nodeUnless [.flowEntry, .flowMappingEnd] (.flowMappingKey false) false
              false
          else some (emptyScalar, reader.goTo (.flowMappingKey false))
      | .flowMappingNoValue => some (emptyScalar, reader.goTo (.flowMappingKey false))

/-- Reads events until none follows. -/
def events : (fuel : Nat) → EventReader → List Event
  | 0, _ => []
  | fuel + 1, reader =>
      match reader.step with
      | none => []
      | some (.streamEnd, _) => [.streamEnd]
      | some (event, reader) => event :: events fuel reader

end EventReader

/-- The events of a text. The last one is the end of the stream, unless the text is
malformed: then the list ends where that shows. -/
def Event.ofText (text : String) : List Event :=
  let tokens := Token.ofText text
  EventReader.events (4 * tokens.length + 4) { tokens }

end LiveRelay.Yaml
