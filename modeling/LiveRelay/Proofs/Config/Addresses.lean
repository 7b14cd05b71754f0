import LiveRelay.Config.Address
import LiveRelay.Proofs.Yaml.Spelling

/-! # Spellings of the addresses of an endpoint

Addresses are read as content first. A content is had only of what is not nested too deeply and
of integers that are not too long (`Content.ofNode?`), and that bounds what may be written in
place of what: an entry that is passed over must not hold an integer beyond 64 bits, and where a
list is put around an entry, there must be room for one more collection.
-/

namespace LiveRelay

open Yaml (Node ScalarStyle)
open Yaml.Node (Respelled SaysTwice ReadsAlike HasItem ItemRespelled)
open Yaml.Decoder (ComesTo value?)

/-! ## Content -/

/-- Collections are nested in the node at most `depth` times. -/
inductive Yaml.Node.NestsWithin : (depth : Nat) → Node → Prop
  | scalar (depth : Nat) (tag : Option String) (style : ScalarStyle) (text : String) :
      NestsWithin depth (.scalar tag style text)
  | sequence {depth : Nat} {tag : Option String} {items : List Node}
      (h : ∀ item ∈ items, NestsWithin depth item) : NestsWithin (depth + 1) (.sequence tag items)
  | mapping {depth : Nat} {tag : Option String} {entries : List (Node × Node)}
      (hkeys : ∀ entry ∈ entries, NestsWithin depth entry.1)
      (hvalues : ∀ entry ∈ entries, NestsWithin depth entry.2) :
      NestsWithin (depth + 1) (.mapping tag entries)

namespace Content

variable {depth : Nat} {node : Node} {content : Content}

/-- The content of a node in which collections are nested at most `depth` times. -/
def ofNode? : (depth : Nat) → Node → Option Content
  | _, .scalar tag style content => (Node.classify tag style content >>= ofFound).toOption
  | 0, _ => none
  | depth + 1, .sequence _ items => (items.mapM (ofNode? depth)).map list
  | depth + 1, .mapping _ entries =>
      (entries.mapM fun entry =>
        (ofNode? depth entry.1).bind fun key => (ofNode? depth entry.2).map (key, ·)).map table
  | _, .reference _ => none

@[simp] theorem ofNode?_scalar (tag : Option String) (style : ScalarStyle) (text : String) :
    ofNode? depth (.scalar tag style text) =
      (Node.classify tag style text >>= ofFound).toOption := by
  cases depth <;> rfl

theorem decode_scalar_comesTo (depth : Nat) (style : ScalarStyle) (text : String) :
    ComesTo (decode depth · (.scalar none style text))
      (ofNode? depth (.scalar none style text)) := by
  unfold decode
  rw [Node.IsResolved.resolve (.scalar style text), ofNode?_scalar]
  simp only [pure_bind]
  refine ComesTo.locate ?_ id
  cases Node.classify none style text >>= ofFound with
  | ok content => exact .pure content
  | error problem => exact .fail problem

/-- The entries of a mapping are read each by itself. -/
theorem decodeEntries_comesTo {decode : Yaml.Path → Node → Yaml.Decoder Content}
    {ofNode? : Node → Option Content} {entries : List (Node × Node)}
    (hkeys : ∀ entry ∈ entries, ComesTo (decode · entry.1) (ofNode? entry.1))
    (hvalues : ∀ entry ∈ entries, ComesTo (decode · entry.2) (ofNode? entry.2)) :
    ComesTo
      (fun path => entries.mapM fun (key, value) => do
        let keyContent ← decode path key
        return (keyContent, ← decode (Node.keyPath path key) value))
      (entries.mapM fun entry =>
        (ofNode? entry.1).bind fun key => (ofNode? entry.2).map (key, ·)) := by
  induction entries with
  | nil => exact .pure []
  | cons entry entries ih =>
      obtain ⟨hkey, hkeys⟩ := List.forall_mem_cons.mp hkeys
      obtain ⟨hvalue, hvalues⟩ := List.forall_mem_cons.mp hvalues
      simp only [List.mapM_cons]
      refine ComesTo.bind (hkey.bind fun key _ => ?_) fun content _ =>
        (ih hkeys hvalues).bind fun contents _ => .pure (content :: contents)
      exact (hvalue.shift (Node.keyPath · entry.1)).map (key, ·)

theorem decode_comesTo (h : node.IsResolved) (depth : Nat) :
    ComesTo (decode depth · node) (ofNode? depth node) := by
  induction depth generalizing node with
  | zero =>
      cases h with
      | scalar style text => exact decode_scalar_comesTo 0 style text
      | sequence =>
          unfold decode
          exact ComesTo.tooDeep.locate id
      | mapping =>
          unfold decode
          exact ComesTo.tooDeep.locate id
  | succ depth ih =>
      cases h with
      | scalar style text => exact decode_scalar_comesTo (depth + 1) style text
      | sequence hitems =>
          have hcomes := fun item hitem => ih (hitems item hitem)
          have hread := Node.decodeItems_comesTo (fun item hitem => (hcomes item hitem).settles) 0
          rw [mapM_congr_left fun item hitem => (hcomes item hitem).value?_eq] at hread
          unfold decode
          exact (hread.map list).locate id
      | mapping hkeys hvalues =>
          have hread := decodeEntries_comesTo (fun entry hentry => ih (hkeys entry hentry))
            fun entry hentry => ih (hvalues entry hentry)
          unfold decode
          exact (hread.map table).locate id

/-- What has a content is not nested too deeply. -/
theorem nestsWithin_of_ofNode? (h : ofNode? depth node = some content) :
    node.NestsWithin depth := by
  induction depth generalizing node content with
  | zero =>
      cases node with
      | scalar => exact .scalar 0 _ _ _
      | sequence => cases h
      | mapping => cases h
      | reference => cases h
  | succ depth ih =>
      cases node with
      | scalar => exact .scalar (depth + 1) _ _ _
      | sequence =>
          obtain ⟨contents, hcontents, -⟩ := Option.map_eq_some_iff.mp h
          refine .sequence fun item hitem => ?_
          obtain ⟨content, hcontent⟩ := exists_of_mapM hcontents hitem
          exact ih hcontent
      | mapping _ entries =>
          obtain ⟨contents, hcontents, -⟩ := Option.map_eq_some_iff.mp h
          have hentries : ∀ entry ∈ entries, (ofNode? depth entry.1).isSome ∧
              (ofNode? depth entry.2).isSome := by
            intro entry hentry
            obtain ⟨pair, hpair⟩ := exists_of_mapM hcontents hentry
            obtain ⟨key, hkey, hvalue⟩ := Option.bind_eq_some_iff.mp hpair
            obtain ⟨value, hvalue, -⟩ := Option.map_eq_some_iff.mp hvalue
            exact ⟨Option.isSome_of_eq_some hkey, Option.isSome_of_eq_some hvalue⟩
          refine .mapping (fun entry hentry => ?_) fun entry hentry => ?_
          · exact ih (Option.some_get (hentries entry hentry).1).symm
          · exact ih (Option.some_get (hentries entry hentry).2).symm
      | reference => cases h

/-- Only a sequence has a list for its content. -/
theorem exists_of_ofNode?_eq_list {items : List Content}
    (h : ofNode? depth node = some (.list items)) :
    ∃ tag nodes, node = .sequence tag nodes := by
  cases node with
  | scalar tag style written =>
      rw [ofNode?_scalar] at h
      cases hclass : Node.classify tag style written with
      | error => rw [hclass] at h; cases h
      | ok found => rw [hclass] at h; cases found <;> cases h
  | sequence tag nodes => exact ⟨tag, nodes, rfl⟩
  | mapping =>
      cases depth with
      | zero => cases h
      | succ => obtain ⟨_, -, hcontent⟩ := Option.map_eq_some_iff.mp h; cases hcontent
  | reference => cases depth <;> cases h

/-- Room that a node does not need does not matter. -/
theorem ofNode?_succ (h : node.NestsWithin depth) :
    ofNode? (depth + 1) node = ofNode? depth node := by
  induction h with
  | scalar => rw [ofNode?_scalar, ofNode?_scalar]
  | sequence _ ih => exact congrArg _ (mapM_congr_left ih)
  | mapping _ _ ihkeys ihvalues =>
      refine congrArg _ (mapM_congr_left fun entry hentry => ?_)
      rw [ihkeys entry hentry, ihvalues entry hentry]

theorem integer?_eq_some {written : String} {found : Yaml.Found}
    (h : Node.integer? written = some found) :
    ∃ n, found = .integer n ∨ found = .wideInteger n := by
  unfold Node.integer? at h
  grind

/-- Only an integer beyond 64 bits keeps a plain scalar from having a content. -/
theorem isSome_ofNode?_plain (depth : Nat) {value : String}
    (h : ∀ n, Node.classifyPlain value ≠ .wideInteger n) :
    (ofNode? depth (.scalar none .plain value)).isSome := by
  rw [ofNode?_scalar]
  change (ofFound (Node.classifyPlain value)).toOption.isSome
  unfold Node.classifyPlain at h ⊢
  split
  next => rfl
  next hnull =>
    rw [if_neg hnull] at h
    split
    next => rfl
    next hbool =>
      simp only [hbool] at h
      split
      next found hfound =>
        simp only [hfound] at h
        obtain ⟨n, rfl | rfl⟩ := integer?_eq_some hfound
        · rfl
        · exact absurd rfl (h n)
      next => split <;> rfl

end Content

/-! ## Entries -/

/-- What an address entry says about one of its fields. -/
inductive AddressSetting where
  | address (address : String)
  | role (role : Option ConnectionRole)
  | direction (direction : Option Direction)

namespace AddressSetting

def field : AddressSetting → AddressField
  | address _ => .address
  | role _ => .role
  | direction _ => .direction

/-- Reads the value of a field. -/
def ofContent? (value : Content) : AddressField → Option AddressSetting
  | .address =>
      match value with
      | .text name => some (address name)
      | _ => none
  | .role => (value.optionalVariant? ("host", ConnectionRole.host) ("client", .client)).map role
  | .direction =>
      (value.optionalVariant? ("input", Direction.input) ("output", .output)).map direction

theorem field_of_ofContent? {value : Content} {field : AddressField} {setting : AddressSetting}
    (h : ofContent? value field = some setting) : setting.field = field := by
  cases field with
  | address =>
      unfold ofContent? at h
      dsimp only at h
      split at h
      next => obtain rfl := Option.some.inj h; rfl
      next => cases h
  | role => obtain ⟨role, -, rfl⟩ := Option.map_eq_some_iff.mp h; rfl
  | direction => obtain ⟨direction, -, rfl⟩ := Option.map_eq_some_iff.mp h; rfl

/-- What an entry says, unless its key names no field. -/
def ofPair? (key value : Content) : Option (Option AddressSetting) :=
  (AddressField.ofKey? key).bind fun said =>
    match said with
    | none => some none
    | some field => (ofContent? value field).map some

/-- What an entry of a mapping says. -/
def ofNodes? (depth : Nat) (entry : Node × Node) : Option (Option AddressSetting) :=
  (Content.ofNode? depth entry.1).bind fun key =>
    (Content.ofNode? depth entry.2).bind (ofPair? key)

end AddressSetting

namespace AddressConfig

namespace Draft

variable {draft later : Draft} {setting : AddressSetting} {field : AddressField}

/-- Sets a field that has not been set. -/
def put? (draft : Draft) : AddressSetting → Option Draft
  | .address address =>
      if draft.address.isSome then none else some { draft with address := some address }
  | .role role => if draft.role.isSome then none else some { draft with role := some role }
  | .direction direction =>
      if draft.direction.isSome then none else some { draft with direction := some direction }

/-- Adds what an entry says, if it says anything. -/
def say? (draft : Draft) : Option AddressSetting → Option Draft
  | none => some draft
  | some setting => draft.put? setting

theorem add?_eq (draft : Draft) (key value : Content) :
    draft.add? key value = (AddressSetting.ofPair? key value).bind draft.say? := by
  unfold add? AddressSetting.ofPair?
  obtain ⟨address, role, direction⟩ := draft
  cases AddressField.ofKey? key with
  | none => rfl
  | some said =>
      cases said with
      | none => rfl
      | some field =>
          cases field with
          | address => cases address <;> cases value <;> rfl
          | role =>
              change _ = (((value.optionalVariant? _ _).map AddressSetting.role).map some).bind _
              cases role <;> cases value.optionalVariant? ("host", ConnectionRole.host) _ <;> rfl
          | direction =>
              change _ =
                (((value.optionalVariant? _ _).map AddressSetting.direction).map some).bind _
              cases direction <;> cases value.optionalVariant? ("input", Direction.input) _ <;> rfl

/-- Two entries may be read in any order. -/
theorem put?_comm (draft : Draft) (first second : AddressSetting) :
    (draft.put? first).bind (·.put? second) = (draft.put? second).bind (·.put? first) := by
  obtain ⟨address, role, direction⟩ := draft
  cases first with
  | address =>
      cases second with
      | address => cases address <;> rfl
      | role => cases address <;> cases role <;> rfl
      | direction => cases address <;> cases direction <;> rfl
  | role =>
      cases second with
      | address => cases address <;> cases role <;> rfl
      | role => cases role <;> rfl
      | direction => cases role <;> cases direction <;> rfl
  | direction =>
      cases second with
      | address => cases address <;> cases direction <;> rfl
      | role => cases role <;> cases direction <;> rfl
      | direction => cases direction <;> rfl

/-- Whether a field has been set. -/
def Has (draft : Draft) : AddressField → Prop
  | .address => draft.address.isSome
  | .role => draft.role.isSome
  | .direction => draft.direction.isSome

theorem put?_eq_none (h : draft.Has setting.field) : draft.put? setting = none := by
  cases setting <;> exact if_pos h

theorem has_iff_of_put? (h : draft.put? setting = some later) :
    later.Has field ↔ field = setting.field ∨ draft.Has field := by
  cases setting with
  | address =>
      obtain ⟨-, hlater⟩ := Option.ite_none_left_eq_some.mp h
      obtain rfl := Option.some.inj hlater
      cases field <;> simp [Has, AddressSetting.field]
  | role =>
      obtain ⟨-, hlater⟩ := Option.ite_none_left_eq_some.mp h
      obtain rfl := Option.some.inj hlater
      cases field <;> simp [Has, AddressSetting.field]
  | direction =>
      obtain ⟨-, hlater⟩ := Option.ite_none_left_eq_some.mp h
      obtain rfl := Option.some.inj hlater
      cases field <;> simp [Has, AddressSetting.field]

theorem say?_comm (draft : Draft) (first second : Option AddressSetting) :
    (draft.say? first).bind (·.say? second) = (draft.say? second).bind (·.say? first) := by
  cases first with
  | none => exact (Option.bind_fun_some _).symm
  | some first =>
      cases second with
      | none => exact Option.bind_fun_some _
      | some second => exact put?_comm draft first second

/-- Adds what one entry of the document says. -/
def read? (depth : Nat) (draft : Draft) (entry : Node × Node) : Option Draft :=
  (AddressSetting.ofNodes? depth entry).bind draft.say?

theorem read?_comm (depth : Nat) (draft : Draft) (first second : Node × Node) :
    (draft.read? depth first).bind (·.read? depth second) =
      (draft.read? depth second).bind (·.read? depth first) := by
  unfold read?
  cases AddressSetting.ofNodes? depth first with
  | none => simp
  | some said =>
      cases AddressSetting.ofNodes? depth second with
      | none => simp
      | some otherSaid => exact say?_comm draft said otherSaid

/-- The address entry that a draft is of, if it has an address. -/
def finish? (draft : Draft) : Option AddressConfig :=
  draft.address.bind fun address =>
    some (detailed address (draft.role.getD none) (draft.direction.getD none))

end Draft

theorem ofContent?_table (entries : List (Content × Content)) :
    ofContent? (.table entries) =
      (entries.foldlM (fun (draft : Draft) entry => draft.add? entry.1 entry.2) {}).bind
        Draft.finish? := rfl

/-- The entry that a node is read as. -/
def entryOfNode? (depth : Nat) (node : Node) : Option AddressConfig :=
  (Content.ofNode? depth node).bind ofContent?

theorem entryOfNode?_mapping (depth : Nat) (entries : List (Node × Node)) :
    entryOfNode? (depth + 1) (.mapping none entries) =
      (entries.foldlM (Draft.read? depth) {}).bind Draft.finish? := by
  have hstep : Draft.read? depth = fun draft (entry : Node × Node) =>
      ((Content.ofNode? depth entry.1).bind fun key =>
        (Content.ofNode? depth entry.2).map (key, ·)).bind fun pair =>
          draft.add? pair.1 pair.2 := by
    funext draft entry
    simp only [Draft.read?, AddressSetting.ofNodes?, Draft.add?_eq, Option.bind_assoc,
      Option.bind_map, Function.comp_def]
  rw [hstep, ← mapM_bind_foldlM, entryOfNode?, Content.ofNode?, Option.bind_map, Option.bind_assoc]
  exact congrArg _ (funext ofContent?_table)

end AddressConfig

/-! ## Other spellings of an entry -/

/-- The field that a key of an address entry names. -/
def AddressField.ofNode? (key : Node) : Option AddressField :=
  ((Content.ofNode? 0 key).bind AddressField.ofKey?).join

namespace AddressConfig

/-- A plain scalar, other than an integer beyond 64 bits, under a text that names no field. -/
inductive IsPassedOver : Node → Node → Prop
  | intro {style : ScalarStyle} {text value : String}
      (htext : Node.classify none style text = .ok (.text text))
      (hname : AddressField.ofKey? (.text text) = some none)
      (hvalue : ∀ n, Node.classifyPlain value ≠ .wideInteger n) :
      IsPassedOver (.scalar none style text) (.scalar none .plain value)

/-- An address entry that is a mapping is spelled in another way. -/
def EntryRespelled : Node → Node → Prop :=
  Respelled AddressField.ofNode? IsPassedOver fun _ _ _ => False

theorem IsPassedOver.isResolved {key value : Node} (h : IsPassedOver key value) :
    key.IsResolved ∧ value.IsResolved := by
  cases h
  exact ⟨.scalar _ _, .scalar _ _⟩

variable {node other key value : Node} {field : AddressField} {depth : Nat}

theorem exists_content_of_ofNode? (h : AddressField.ofNode? key = some field) (depth : Nat) :
    ∃ content, Content.ofNode? depth key = some content ∧
      AddressField.ofKey? content = some (some field) := by
  obtain ⟨content, hcontent, hkey⟩ := Option.bind_eq_some_iff.mp (Option.join_eq_some_iff.mp h)
  refine ⟨content, ?_, hkey⟩
  cases key with
  | scalar => rwa [Content.ofNode?_scalar] at hcontent ⊢
  | sequence => cases hcontent
  | mapping => cases hcontent
  | reference => cases hcontent

/-- An entry whose key names a field says something of this field. -/
theorem ofNodes?_of_ofNode? (h : AddressField.ofNode? key = some field) (value : Node) :
    AddressSetting.ofNodes? depth (key, value) = (Content.ofNode? depth value).bind fun content =>
      (AddressSetting.ofContent? content field).map some := by
  obtain ⟨content, hcontent, hkey⟩ := exists_content_of_ofNode? h depth
  unfold AddressSetting.ofNodes? AddressSetting.ofPair?
  rw [hcontent, Option.bind_some, hkey]
  rfl

/-- It does not matter which of its names a field goes by. -/
theorem read?_of_ofNode? (hkey : AddressField.ofNode? key = some field)
    (hother : AddressField.ofNode? other = some field) (draft : Draft) (value : Node) :
    draft.read? depth (other, value) = draft.read? depth (key, value) := by
  rw [Draft.read?, Draft.read?, ofNodes?_of_ofNode? hother, ofNodes?_of_ofNode? hkey]

theorem IsPassedOver.read? (h : IsPassedOver key value) (draft : Draft) :
    draft.read? depth (key, value) = some draft := by
  cases h with
  | @intro style text value htext hname hvalue =>
      obtain ⟨content, hcontent⟩ :=
        Option.isSome_iff_exists.mp (Content.isSome_ofNode?_plain depth hvalue)
      have hkey : Content.ofNode? depth (.scalar none style text) = some (.text text) := by
        rw [Content.ofNode?_scalar, htext]
        rfl
      unfold Draft.read? AddressSetting.ofNodes? AddressSetting.ofPair?
      simp only [hkey, hcontent, hname, Option.bind_some]
      rfl

/-- An entry spelled in another way is the same entry. -/
theorem EntryRespelled.entryOfNode?_eq (h : EntryRespelled node other) (depth : Nat) :
    entryOfNode? depth other = entryOfNode? depth node := by
  cases depth with
  | zero => cases h <;> rfl
  | succ depth =>
      cases h with
      | permuted hperm =>
          rw [entryOfNode?_mapping, entryOfNode?_mapping,
            foldlM_perm (Draft.read?_comm depth) hperm]
      | renamed front back hkey hother =>
          simp only [entryOfNode?_mapping, List.foldlM_append, List.foldlM_cons,
            read?_of_ofNode? hkey hother]
      | inserted front back hpasses =>
          simp only [entryOfNode?_mapping, List.foldlM_append, List.foldlM_cons, hpasses.read?]
          rfl
      | changed _ _ _ hvalue => exact hvalue.elim

/-! ## Entries that say things twice -/

theorem has_of_read? {draft later : Draft} (hkey : AddressField.ofNode? key = some field)
    (h : draft.read? depth (key, value) = some later) : later.Has field ∧ ¬ draft.Has field := by
  rw [Draft.read?, ofNodes?_of_ofNode? hkey] at h
  obtain ⟨said, hsaid, hput⟩ := Option.bind_eq_some_iff.mp h
  obtain ⟨content, -, hsaid⟩ := Option.bind_eq_some_iff.mp hsaid
  obtain ⟨setting, hsetting, rfl⟩ := Option.map_eq_some_iff.mp hsaid
  obtain rfl := AddressSetting.field_of_ofContent? hsetting
  refine ⟨(Draft.has_iff_of_put? hput).mpr (.inl rfl), fun hhas => ?_⟩
  cases (Draft.put?_eq_none hhas).symm.trans hput

theorem Draft.Has.read? {draft later : Draft} {entry : Node × Node} (hhas : draft.Has field)
    (h : draft.read? depth entry = some later) : later.Has field := by
  obtain ⟨said, -, hsay⟩ := Option.bind_eq_some_iff.mp h
  cases said with
  | none =>
      obtain rfl := Option.some.inj hsay
      exact hhas
  | some setting => exact (Draft.has_iff_of_put? hsay).mpr (.inr hhas)

theorem Draft.Has.foldlM {draft later : Draft} {entries : List (Node × Node)}
    (hhas : draft.Has field) (h : entries.foldlM (Draft.read? depth) draft = some later) :
    later.Has field := by
  induction entries generalizing draft with
  | nil =>
      obtain rfl := Option.some.inj h
      exact hhas
  | cons entry entries ih =>
      rw [List.foldlM_cons] at h
      obtain ⟨next, hnext, hrest⟩ := Option.bind_eq_some_iff.mp h
      exact ih (hhas.read? hnext) hrest

/-- A mapping that says two things of one field is no entry. -/
theorem entryOfNode?_of_saysTwice (h : SaysTwice AddressField.ofNode? node) (depth : Nat) :
    entryOfNode? depth node = none := by
  rw [Option.eq_none_iff_forall_ne_some]
  intro entry hentry
  cases h with
  | intro front middle back hkey hother =>
      cases depth with
      | zero => cases hentry
      | succ depth =>
          rw [entryOfNode?_mapping] at hentry
          obtain ⟨draft, hdraft, _⟩ := Option.bind_eq_some_iff.mp hentry
          obtain ⟨_, first, -, hfirst, hrest⟩ := exists_of_foldlM hdraft
          obtain ⟨second, _, hsecond, hthird, -⟩ := exists_of_foldlM hrest
          -- What the first entry has set is still set when the second one comes.
          exact (has_of_read? hother hthird).2 ((has_of_read? hkey hfirst).1.foldlM hsecond)

/-! ## Other spellings of a list -/

/-- The list of addresses that a node is read as. -/
def listOfNode? (depth : Nat) (node : Node) : Option (List AddressConfig) :=
  (Content.ofNode? depth node).bind listOfContent?

theorem decodeList_comesTo (h : node.IsResolved) :
    ComesTo (decodeList · node) (listOfNode? (Yaml.depthLimit - 5) node) := by
  refine (Content.decode_comesTo h _).bind fun content _ => ?_
  cases listOfContent? content with
  | none => exact .fail _
  | some addresses => exact .pure addresses

theorem listOfNode?_sequence (depth : Nat) (items : List Node) :
    listOfNode? (depth + 1) (.sequence none items) = items.mapM (entryOfNode? depth) := by
  rw [listOfNode?, Content.ofNode?, Option.bind_map]
  exact mapM_bind_mapM _ _

/-- What is no sequence is one entry alone. -/
theorem listOfNode?_eq_map (h : ∀ tag items, node ≠ .sequence tag items) (depth : Nat) :
    listOfNode? depth node = (entryOfNode? depth node).map ([·]) := by
  unfold listOfNode? entryOfNode?
  cases hcontent : Content.ofNode? depth node with
  | none => rfl
  | some content =>
      cases content with
      | list items =>
          obtain ⟨tag, nodes, hnode⟩ := Content.exists_of_ofNode?_eq_list hcontent
          exact absurd hnode (h tag nodes)
      | _ => rfl

/-- An entry is a scalar or a mapping. -/
theorem ne_sequence_of_entryOfNode? {entry : AddressConfig}
    (h : entryOfNode? depth node = some entry) (tag : Option String) (items : List Node) :
    node ≠ .sequence tag items := by
  rintro rfl
  cases depth with
  | zero => cases h
  | succ depth =>
      obtain ⟨content, hcontent, hentry⟩ := Option.bind_eq_some_iff.mp h
      obtain ⟨contents, -, rfl⟩ := Option.map_eq_some_iff.mp hcontent
      cases hentry

/-- The addresses of an endpoint are spelled in another way: in one of the entries, or with a
list around the only one or without it. Around an entry there has to be room for the list. -/
inductive ListRespelled : Node → Node → Prop
  | entry {node other : Node} (h : EntryRespelled node other) : ListRespelled node other
  | item {node other : Node} (h : ItemRespelled EntryRespelled node other) :
      ListRespelled node other
  | wrapped {node : Node} (hentry : ∀ tag items, node ≠ .sequence tag items)
      (hnests : node.NestsWithin (Yaml.depthLimit - 6)) :
      ListRespelled node (.sequence none [node])
  | unwrapped (node : Node) : ListRespelled (.sequence none [node]) node

theorem EntryRespelled.isResolved (h : EntryRespelled node other) :
    node.IsResolved → other.IsResolved :=
  Respelled.isResolved (fun _ _ => IsPassedOver.isResolved) (fun _ _ _ hvalue => hvalue.elim) h

theorem ListRespelled.isResolved (h : ListRespelled node other) (hnode : node.IsResolved) :
    other.IsResolved := by
  cases h with
  | entry h => exact h.isResolved hnode
  | item h =>
      cases h with
      | intro front back hitem =>
          simp only [Node.isResolved_sequence_iff, List.forall_mem_append, List.forall_mem_cons]
            at hnode ⊢
          exact ⟨hnode.1, hitem.isResolved hnode.2.1, hnode.2.2⟩
  | wrapped => simpa using hnode
  | unwrapped => simpa using hnode

theorem EntryRespelled.ne_sequence (h : EntryRespelled node other) (tag : Option String)
    (items : List Node) : node ≠ .sequence tag items ∧ other ≠ .sequence tag items := by
  cases h <;> exact ⟨nofun, nofun⟩

/-- Where one more collection has room, the list that is read is the same. -/
theorem ListRespelled.listOfNode?_eq (h : ListRespelled node other) {addresses : List AddressConfig}
    (haddresses : listOfNode? (Yaml.depthLimit - 5) node = some addresses) :
    listOfNode? (Yaml.depthLimit - 5) other = some addresses := by
  have hdepth : Yaml.depthLimit - 5 = (Yaml.depthLimit - 6) + 1 := rfl
  rw [hdepth] at haddresses ⊢
  cases h with
  | entry h =>
      rw [listOfNode?_eq_map fun tag items => (h.ne_sequence tag items).2, h.entryOfNode?_eq]
      rwa [listOfNode?_eq_map fun tag items => (h.ne_sequence tag items).1] at haddresses
  | item h =>
      cases h with
      | intro front back hitem =>
          rw [listOfNode?_sequence] at haddresses ⊢
          refine mapM_replace (fun entry hentry => ?_) haddresses
          rwa [hitem.entryOfNode?_eq]
  | wrapped hentry hnests =>
      -- Within the list there is one collection less for the entry, which has no need of it.
      rw [listOfNode?_eq_map hentry, entryOfNode?, Content.ofNode?_succ hnests] at haddresses
      obtain ⟨entry, hread, rfl⟩ := Option.map_eq_some_iff.mp haddresses
      rw [listOfNode?_sequence]
      exact mapM_cons_eq_some_iff.mpr ⟨entry, [], hread, rfl, rfl⟩
  | unwrapped =>
      rw [listOfNode?_sequence] at haddresses
      obtain ⟨entry, rest, hread, hrest, rfl⟩ := mapM_cons_eq_some_iff.mp haddresses
      obtain rfl := Option.some.inj hrest
      obtain ⟨content, hcontent, -⟩ := Option.bind_eq_some_iff.mp hread
      -- What has been read within the list has had room there, so it has room without the list.
      rw [listOfNode?_eq_map (ne_sequence_of_entryOfNode? hread), entryOfNode?,
        Content.ofNode?_succ (Content.nestsWithin_of_ofNode? hcontent)]
      exact Option.map_eq_some_iff.mpr ⟨entry, hread, rfl⟩

/-- Addresses spelled in another way read alike. -/
theorem ListRespelled.readsAlike (h : ListRespelled node other) :
    ReadsAlike decodeList node other := by
  refine ⟨h.isResolved, fun hnode addresses haddresses => ?_⟩
  rw [(decodeList_comesTo hnode).value?_eq] at haddresses
  rw [(decodeList_comesTo (h.isResolved hnode)).value?_eq]
  exact h.listOfNode?_eq haddresses

/-- The node is one of the entries that a list is read of, or the only one. -/
inductive HasEntry : Node → Node → Prop
  | alone (entry : Node) : HasEntry entry entry
  | item {node entry : Node} (h : HasItem node entry) : HasEntry node entry

/-- Where an entry says two things of one field, no list is read. -/
theorem HasEntry.value?_decodeList {entry : Node} (h : HasEntry node entry)
    (htwice : SaysTwice AddressField.ofNode? entry) (hnode : node.IsResolved) :
    value? (decodeList · node) = none := by
  rw [(decodeList_comesTo hnode).value?_eq, Option.eq_none_iff_forall_ne_some]
  intro addresses haddresses
  have hnone := entryOfNode?_of_saysTwice htwice
  cases h with
  | alone =>
      have hentry : ∀ tag items, node ≠ .sequence tag items := by cases htwice; exact nofun
      rw [listOfNode?_eq_map hentry, hnone] at haddresses
      cases haddresses
  | item h =>
      cases h with
      | intro hitem =>
          have hdepth : Yaml.depthLimit - 5 = (Yaml.depthLimit - 6) + 1 := rfl
          rw [hdepth, listOfNode?_sequence] at haddresses
          obtain ⟨entry, hread⟩ := exists_of_mapM haddresses hitem
          rw [hnone] at hread
          cases hread

end AddressConfig

end LiveRelay
