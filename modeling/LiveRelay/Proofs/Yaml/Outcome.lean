import LiveRelay.Yaml.Decoder

/-! # What decoders come to

In a tree without aliases and tags, what a decoder makes of a node hangs on the node alone: not
on the document around it, and not on the place where it stands, which only failures name. The
decoder then settles (`Settles`), and there is one value that it comes to, or none (`value?`).
-/

namespace LiveRelay.Yaml

/-- Whether there are no aliases and no tags in a node and in all that is below it. -/
inductive Node.IsResolved : Node → Prop
  | scalar (style : ScalarStyle) (text : String) : IsResolved (.scalar none style text)
  | sequence {items : List Node} (h : ∀ item ∈ items, IsResolved item) :
      IsResolved (.sequence none items)
  | mapping {entries : List (Node × Node)} (hkeys : ∀ entry ∈ entries, IsResolved entry.1)
      (hvalues : ∀ entry ∈ entries, IsResolved entry.2) : IsResolved (.mapping none entries)

namespace Node

variable {items : List Node} {entries : List (Node × Node)}

@[simp] theorem isResolved_scalar (style : ScalarStyle) (text : String) :
    (scalar none style text).IsResolved := .scalar style text

@[simp] theorem isResolved_sequence_iff :
    (sequence none items).IsResolved ↔ ∀ item ∈ items, item.IsResolved := by
  constructor
  · rintro ⟨⟩
    assumption
  · exact .sequence

@[simp] theorem isResolved_mapping_iff :
    (mapping none entries).IsResolved ↔
      ∀ entry ∈ entries, entry.1.IsResolved ∧ entry.2.IsResolved := by
  constructor
  · rintro (_ | _ | ⟨hkeys, hvalues⟩) entry hentry
    exact ⟨hkeys entry hentry, hvalues entry hentry⟩
  · exact fun h => .mapping (fun entry hentry => (h entry hentry).1)
      fun entry hentry => (h entry hentry).2

end Node

namespace Decoder

variable {α β : Type} {decode : Path → Decoder α} {found? : Option α}

/-- The decoder comes to this value in every place of every document, or fails everywhere if
there is none. It follows no aliases. -/
def ComesTo (decode : Path → Decoder α) (found? : Option α) : Prop :=
  ∀ path scope count, (decode path scope count).toOption = found?.map (·, count)

/-- What a decoder comes to at the root of a document without anchors. -/
def value? (decode : Path → Decoder α) : Option α :=
  (decode .root ⟨fun _ => none, 0⟩ 0).toOption.map Prod.fst

/-- What has been found, or what is wrong with it. -/
def ofExcept : Except Problem α → Decoder α
  | .ok value => pure value
  | .error problem => fail problem

/-- The decoder comes to the same wherever it is used. -/
def Settles (decode : Path → Decoder α) : Prop := ∃ found?, ComesTo decode found?

namespace ComesTo

theorem value?_eq (h : ComesTo decode found?) : value? decode = found? := by
  rw [value?, h, Option.map_map]
  exact Option.map_id'

theorem settles (h : ComesTo decode found?) : Settles decode := ⟨found?, h⟩

theorem pure (value : α) : ComesTo (fun _ => Pure.pure value) (some value) := fun _ _ _ => rfl

theorem fail (problem : Problem) : ComesTo (fun _ => Decoder.fail problem) (none : Option α) :=
  fun _ _ _ => rfl

theorem ofExcept (outcome : Except Problem α) :
    ComesTo (fun _ => Decoder.ofExcept outcome) outcome.toOption := by
  cases outcome with
  | ok value => exact pure value
  | error problem => exact fail problem

theorem tooDeep : ComesTo (fun _ => throw .tooDeep) (none : Option α) := fun _ _ _ => rfl

/-- The place that a problem is given does not matter. -/
theorem locate (h : ComesTo decode found?) (place : Path → Path) :
    ComesTo (fun path => Decoder.locate (place path) (decode path)) found? := by
  intro path scope count
  rw [← h path scope count]
  unfold Decoder.locate
  dsimp only
  split
  next hfails =>
    rw [hfails]
    rfl
  next => rfl

/-- The decoder may be used in another place. -/
theorem shift (h : ComesTo decode found?) (place : Path → Path) :
    ComesTo (fun path => decode (place path)) found? :=
  fun path => h (place path)

theorem bind (h : ComesTo decode found?) {next : α → Path → Decoder β} {next? : α → Option β}
    (hnext : ∀ value ∈ found?, ComesTo (next value) (next? value)) :
    ComesTo (fun path => decode path >>= (next · path)) (found?.bind next?) := by
  intro path scope count
  have hfirst := h path scope count
  change (decode path scope count >>= fun found => next found.1 path scope found.2).toOption = _
  generalize decode path scope count = outcome at hfirst ⊢
  cases found? with
  | none =>
      cases outcome with
      | error => rfl
      | ok => cases hfirst
  | some value =>
      cases outcome with
      | error => cases hfirst
      | ok found =>
          obtain rfl := Option.some.inj hfirst
          exact hnext value rfl path scope count

theorem map (h : ComesTo decode found?) (f : α → β) :
    ComesTo (fun path => f <$> decode path) (found?.map f) := by
  rw [Option.map_eq_bind]
  exact h.bind fun value _ => pure (f value)

end ComesTo

namespace Settles

theorem comesTo (h : Settles decode) : ComesTo decode (value? decode) := by
  obtain ⟨found?, hfound⟩ := h
  rwa [hfound.value?_eq]

theorem locate (h : Settles decode) (place : Path → Path) :
    Settles fun path => Decoder.locate (place path) (decode path) :=
  (h.comesTo.locate place).settles

theorem bind (h : Settles decode) {next : α → Path → Decoder β}
    (hnext : ∀ value, Settles (next value)) :
    Settles fun path => decode path >>= (next · path) :=
  (h.comesTo.bind fun value _ => (hnext value).comesTo).settles

theorem map (h : Settles decode) (f : α → β) : Settles fun path => f <$> decode path :=
  (h.comesTo.map f).settles

end Settles

end Decoder

namespace Node

open Decoder

variable {α : Type} {node : Node}

/-- A node that is no alias stands for itself. -/
theorem IsResolved.resolve (h : node.IsResolved) : Decoder.resolve node = pure node := by
  cases h <;> rfl

/-! ## Scalars -/

theorem settles_mismatch (h : node.IsResolved) (expected : String) :
    Settles fun _ => node.mismatch (α := α) expected := by
  cases h with
  | scalar style text =>
      unfold mismatch
      cases classify none style text <;> exact (ComesTo.fail _).settles
  | sequence => exact (ComesTo.fail _).settles
  | mapping => exact (ComesTo.fail _).settles

theorem settles_decodeForm (h : node.IsResolved) (tag expected : String)
    (read? : String → Option α) : Settles fun path => node.decodeForm path tag expected read? := by
  refine Settles.locate ?_ id
  rw [h.resolve]
  simp only [pure_bind]
  cases h with
  | scalar style text =>
      dsimp only
      cases if mayHold tag none style then read? text else none with
      | some value => exact (ComesTo.pure value).settles
      | none => exact settles_mismatch (.scalar style text) expected
  | sequence hitems => exact settles_mismatch (.sequence hitems) expected
  | mapping hkeys hvalues => exact settles_mismatch (.mapping hkeys hvalues) expected

theorem settles_decodeBool (h : node.IsResolved) : Settles fun path => node.decodeBool path :=
  settles_decodeForm h _ _ _

theorem settles_decodeFloat (h : node.IsResolved) (expected : String) :
    Settles fun path => node.decodeFloat path expected :=
  settles_decodeForm h _ _ _

theorem settles_decodeUnsigned (h : node.IsResolved) (bits : Nat) (expected : String) :
    Settles fun path => node.decodeUnsigned path bits expected := by
  refine Settles.locate ((settles_decodeForm h _ _ _).bind fun n => ?_) id
  by_cases hfits : n < Nat.pow 2 bits
  · simp only [if_pos hfits]
    exact (ComesTo.pure n).settles
  · simp only [if_neg hfits]
    exact (ComesTo.fail _).settles

/-- The text of a node that is a scalar. -/
def text? : Node → Option String
  | scalar _ _ text => some text
  | _ => none

theorem decodeString_comesTo (h : node.IsResolved) (expected : String) :
    ComesTo (fun path => node.decodeString path expected) node.text? := by
  refine ComesTo.locate ?_ id
  rw [h.resolve]
  simp only [pure_bind]
  cases h with
  | scalar style text => exact .pure text
  | sequence => exact .fail _
  | mapping => exact .fail _

theorem settles_decodeOption {decode : Path → Node → Decoder α} (h : node.IsResolved)
    (hdecode : Settles (decode · node)) :
    Settles fun path => node.decodeOption (decode path) := by
  unfold decodeOption
  rw [h.resolve]
  simp only [pure_bind]
  cases h with
  | sequence => exact hdecode.map some
  | mapping => exact hdecode.map some
  | scalar style text =>
      dsimp only
      cases style != .plain with
      | true => exact hdecode.map some
      | false =>
          cases text.isEmpty || Plain.isNull text with
          | true => exact (ComesTo.pure none).settles
          | false => exact hdecode.map some

/-! ## Sequences -/

theorem decodeItems_comesTo {decode : Path → Node → Decoder α} {items : List Node}
    (h : ∀ item ∈ items, Settles (decode · item)) (index : Nat) :
    ComesTo (fun path => decodeItems path decode index items)
      (items.mapM fun item => value? (decode · item)) := by
  induction items generalizing index with
  | nil => exact .pure []
  | cons item items ih =>
      rw [List.mapM_cons]
      have hitem := (h item List.mem_cons_self).comesTo.shift (.item · index)
      have hrest := ih (fun other hother => h other (List.mem_cons_of_mem _ hother)) (index + 1)
      exact hitem.bind fun value _ => hrest.bind fun values _ => .pure (value :: values)

theorem decodeList_comesTo {decode : Path → Node → Decoder α} {items : List Node}
    (h : ∀ item ∈ items, Settles (decode · item)) :
    ComesTo (fun path => (sequence none items).decodeList path decode)
      (items.mapM fun item => value? (decode · item)) :=
  (decodeItems_comesTo h 0).locate id

theorem settles_decodeList {decode : Path → Node → Decoder α} (h : node.IsResolved)
    (hdecode : ∀ item : Node, item.IsResolved → Settles (decode · item)) :
    Settles fun path => node.decodeList path decode := by
  cases h with
  | sequence hitems =>
      exact (decodeList_comesTo fun item hitem => hdecode item (hitems item hitem)).settles
  | mapping hkeys hvalues => exact (settles_mismatch (.mapping hkeys hvalues) _).locate id
  | scalar style text =>
      refine Settles.locate ?_ id
      rw [IsResolved.resolve (.scalar style text)]
      simp only [pure_bind]
      cases isEmptyPlain style text with
      | true => exact (ComesTo.pure []).settles
      | false => exact settles_mismatch (.scalar style text) _

end Node

/-! ## Documents -/

/-- A decoder that settles reads of a document what it reads of its root. -/
theorem Document.decode_eq_ok_iff {α : Type} {document : Document}
    {decode : Path → Node → Decoder α} (h : Decoder.Settles (decode · document.root)) {value : α} :
    document.decode (decode .root) = .ok value ↔
      Decoder.value? (decode · document.root) = some value := by
  have hfound := h.comesTo .root ⟨document.node?, document.size * 100⟩ 0
  unfold Document.decode
  dsimp only
  generalize decode .root document.root _ 0 = outcome at hfound ⊢
  cases hvalue : Decoder.value? (decode · document.root) with
  | none =>
      rw [hvalue] at hfound
      cases outcome with
      | error => exact iff_of_false nofun nofun
      | ok => cases hfound
  | some found =>
      rw [hvalue] at hfound
      cases outcome with
      | error => cases hfound
      | ok pair =>
          obtain rfl := Option.some.inj hfound
          exact ⟨fun h => congrArg some (Except.ok.inj h), fun h => congrArg _ (Option.some.inj h)⟩

end LiveRelay.Yaml
