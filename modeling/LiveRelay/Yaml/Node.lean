import LiveRelay.Yaml.Event

/-! # The nodes of a YAML document

A document is a tree of scalars, sequences and mappings, in which an alias stands for
the node that carries its anchor.
-/

namespace LiveRelay.Yaml

inductive Node where
  | scalar (tag : Option String) (style : ScalarStyle) (text : String)
  | sequence (tag : Option String) (items : List Node)
  /-- The entries in their order; keys may occur more than once. -/
  | mapping (tag : Option String) (entries : List (Node × Node))
  /-- The node with this anchor. -/
  | reference (anchor : Nat)

namespace Node

/-- What is left of the events, and the anchors seen. -/
structure Source where
  events : List Event
  /-- The number that an anchor name stands for at this point. -/
  names : List (String × Nat) := []
  /-- The nodes that carry anchors, by number. The last one with a number counts. -/
  anchored : List (Nat × Node) := []
  /-- How many events have been used. -/
  used : Nat := 0

namespace Source

def drop (source : Source) : Source :=
  { source with events := source.events.tail, used := source.used + 1 }

/-- Gives a name the number of names seen so far, this one aside. -/
def declare (source : Source) : Option String → Option Nat × Source
  | none => (none, source)
  | some name =>
      let number := source.names.length
      (some number,
        { source with names := (name, number) :: source.names.filter (·.1 != name) })

/-- Takes down a node with its anchor, behind the nodes of `outer` and in front of those
inside it. -/
def anchor (source : Source) (number : Option Nat) (outer : List (Nat × Node)) (node : Node) :
    Source :=
  let own := number.toList.map (·, node)
  { source with anchored := outer ++ own ++ source.anchored }

end Source

mutual

/-- Reads one node; there is none if the events break off or an alias has no anchor. -/
def read : (fuel : Nat) → Source → Option (Node × Source)
  | 0, _ => none
  | fuel + 1, source =>
      match source.events with
      | .reference name :: _ => (source.names.lookup name).map (reference ·, source.drop)
      | .scalar properties text style :: _ =>
          let (number, source) := source.drop.declare properties.anchor
          let node := scalar properties.tag style text
          some (node, { source with anchored := [] }.anchor number source.anchored node)
      | .sequenceStart properties :: _ => do
          let (number, source) := source.drop.declare properties.anchor
          let (items, inner) ← readItems fuel { source with anchored := [] }
          let node := sequence properties.tag items
          return (node, inner.anchor number source.anchored node)
      | .mappingStart properties :: _ => do
          let (number, source) := source.drop.declare properties.anchor
          let (entries, inner) ← readEntries fuel { source with anchored := [] }
          let node := mapping properties.tag entries
          return (node, inner.anchor number source.anchored node)
      | _ => none

/-- Reads nodes up to the end of a sequence. -/
def readItems : (fuel : Nat) → Source → Option (List Node × Source)
  | 0, _ => none
  | fuel + 1, source =>
      match source.events with
      | .sequenceEnd :: _ => some ([], source.drop)
      | _ => do
          let (item, source) ← read fuel source
          let (items, source) ← readItems fuel source
          return (item :: items, source)

/-- Reads pairs of nodes up to the end of a mapping. -/
def readEntries : (fuel : Nat) → Source → Option (List (Node × Node) × Source)
  | 0, _ => none
  | fuel + 1, source =>
      match source.events with
      | .mappingEnd :: _ => some ([], source.drop)
      | _ => do
          let (key, source) ← read fuel source
          let (value, source) ← read fuel source
          let (entries, source) ← readEntries fuel source
          return ((key, value) :: entries, source)

end

end Node

/-- A document with its anchors. -/
structure Document where
  root : Node
  /-- The nodes that carry anchors, by number. The last one with a number counts. -/
  anchored : List (Nat × Node) := []
  /-- How many events the document has. -/
  size : Nat

namespace Document

/-- The node that carries an anchor. -/
def node? (document : Document) (anchor : Nat) : Option Node :=
  (document.anchored.findRev? (·.1 == anchor)).map (·.2)

/-- The document that a text holds, if it is one and well-formed. A text without any
holds an empty node. -/
def ofText? (text : String) : Option Document :=
  match Event.ofText text with
  | .documentStart :: events => do
      let (root, source) ← Node.read (2 * events.length + 2) { events }
      if source.events = [.documentEnd, .streamEnd] then
        return { root, anchored := source.anchored, size := source.used }
      else none
  | [.streamEnd] => some { root := .scalar none .plain "", size := 1 }
  | _ => none

end Document

end LiveRelay.Yaml
