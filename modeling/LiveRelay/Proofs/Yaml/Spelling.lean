import LiveRelay.Proofs.Yaml.Record
import Mathlib.Data.List.Nodup

/-! # Spellings of a document

One thing can be said by many documents. Another node reads alike (`ReadsAlike`) if whatever is
read of the first is read of it, too. That is so of a record whose entries stand in another
order, go by other names of their fields or stand beside entries that are passed over
(`Respelled.readsAlike`), and it carries over from what a node holds to the node
(`ItemRespelled.readsAlike`). Of a record that says two things of one field nothing is read at
all (`SaysTwice.value?_decodeRecord`).
-/

namespace LiveRelay.Yaml.Node

open Decoder

/-! ## Reading alike -/

section ReadsAlike

variable {α β : Type} {decode : Path → Node → Decoder α} {node other : Node}

/-- Whatever is read of a node is read of another, too. -/
structure ReadsAlike (decode : Path → Node → Decoder α) (node other : Node) : Prop where
  isResolved : node.IsResolved → other.IsResolved
  value?_eq : node.IsResolved → ∀ value,
    value? (decode · node) = some value → value? (decode · other) = some value

theorem value?_map (decode : Path → Decoder α) (f : α → β) :
    value? (fun path => f <$> decode path) = (value? decode).map f := by
  change ((decode .root ⟨fun _ => none, 0⟩ 0 >>= fun found =>
    Except.ok (f found.1, found.2)).toOption).map Prod.fst = _
  unfold value?
  cases decode .root ⟨fun _ => none, 0⟩ 0 <;> rfl

theorem value?_map_eq_some_iff {decode : Path → Decoder α} {f : α → β} {found : β} :
    value? (fun path => f <$> decode path) = some found ↔
      ∃ value, value? decode = some value ∧ f value = found := by
  rw [value?_map, Option.map_eq_some_iff]

theorem ReadsAlike.map (h : ReadsAlike decode node other) (f : α → β) :
    ReadsAlike (fun path node => f <$> decode path node) node other := by
  refine ⟨h.isResolved, fun hnode value hvalue => ?_⟩
  obtain ⟨found, hfound, rfl⟩ := value?_map_eq_some_iff.mp hvalue
  exact value?_map_eq_some_iff.mpr ⟨found, h.value?_eq hnode found hfound, rfl⟩

end ReadsAlike

/-! ## Lists -/

section Items

variable {α : Type} {decode : Path → Node → Decoder α} {node other : Node}

/-- The node is a sequence with this item. -/
inductive HasItem : Node → Node → Prop
  | intro {items : List Node} {item : Node} (h : item ∈ items) :
      HasItem (.sequence none items) item

/-- One item of a sequence is spelled in another way. -/
inductive ItemRespelled (respells : Node → Node → Prop) : Node → Node → Prop
  | intro (front back : List Node) {item other : Node} (h : respells item other) :
      ItemRespelled respells (.sequence none (front ++ item :: back))
        (.sequence none (front ++ other :: back))

theorem HasItem.isResolved {item : Node} (h : HasItem node item) (hnode : node.IsResolved) :
    item.IsResolved := by
  cases h with
  | intro hitem => exact isResolved_sequence_iff.mp hnode item hitem

/-- When a list is read, each of its items is. -/
theorem HasItem.exists_value {item : Node} (h : HasItem node item)
    (hdecode : ∀ item : Node, item.IsResolved → Settles (decode · item)) (hnode : node.IsResolved)
    {values : List α} (hvalues : value? (fun path => node.decodeList path decode) = some values) :
    ∃ value, value? (decode · item) = some value := by
  cases h with
  | intro hitem =>
      have hitems := isResolved_sequence_iff.mp hnode
      rw [(decodeList_comesTo fun item hitem => hdecode item (hitems item hitem)).value?_eq]
        at hvalues
      exact exists_of_mapM hvalues hitem

theorem ItemRespelled.readsAlike {respells : Node → Node → Prop}
    (h : ItemRespelled respells node other)
    (hrespells : ∀ item other, respells item other → ReadsAlike decode item other)
    (hdecode : ∀ item : Node, item.IsResolved → Settles (decode · item)) :
    ReadsAlike (fun path node => node.decodeList path decode) node other := by
  cases h with
  | @intro front back item other hitem =>
      have halike := hrespells item other hitem
      have hresolved : (sequence none (front ++ item :: back)).IsResolved →
          (sequence none (front ++ other :: back)).IsResolved := by
        simp only [isResolved_sequence_iff, List.forall_mem_append, List.forall_mem_cons]
        rintro ⟨hfront, hitem, hback⟩
        exact ⟨hfront, halike.isResolved hitem, hback⟩
      refine ⟨hresolved, fun hnode values hvalues => ?_⟩
      have hitems := isResolved_sequence_iff.mp hnode
      have hothers := isResolved_sequence_iff.mp (hresolved hnode)
      rw [(decodeList_comesTo fun item hitem => hdecode item (hitems item hitem)).value?_eq]
        at hvalues
      rw [(decodeList_comesTo fun item hitem => hdecode item (hothers item hitem)).value?_eq]
      exact mapM_replace (halike.value?_eq (hitems item List.mem_append_cons_self)) hvalues

end Items

/-! ## Spellings of a record -/

section Spelling

variable {Field Setting Record : Type}

/-- The node is a mapping that says this of a field. -/
inductive Says (names : Node → Option Field) (field : Field) : Node → Node → Prop
  | intro {entries : List (Node × Node)} {key value : Node} (h : (key, value) ∈ entries)
      (hkey : names key = some field) : Says names field (.mapping none entries) value

/-- The mapping says two things of one field. -/
inductive SaysTwice (names : Node → Option Field) : Node → Prop
  | intro (front middle back : List (Node × Node)) {key other value otherValue : Node}
      {field : Field} (hkey : names key = some field) (hother : names other = some field) :
      SaysTwice names
        (.mapping none (front ++ (key, value) :: (middle ++ (other, otherValue) :: back)))

/-- The same mapping spelled in another way, where `passes` says which entries are passed over,
and `respells` how the value of a field may be spelled. -/
inductive Respelled (names : Node → Option Field) (passes : Node → Node → Prop)
    (respells : Field → Node → Node → Prop) : Node → Node → Prop
  /-- The entries stand in another order. -/
  | permuted {entries others : List (Node × Node)} (h : entries.Perm others) :
      Respelled names passes respells (.mapping none entries) (.mapping none others)
  /-- A field goes by another of its names. -/
  | renamed (front back : List (Node × Node)) {style otherStyle : ScalarStyle}
      {text otherText : String} {value : Node} {field : Field}
      (hkey : names (.scalar none style text) = some field)
      (hother : names (.scalar none otherStyle otherText) = some field) :
      Respelled names passes respells
        (.mapping none (front ++ (.scalar none style text, value) :: back))
        (.mapping none (front ++ (.scalar none otherStyle otherText, value) :: back))
  /-- There is an entry more, which is passed over. -/
  | inserted (front back : List (Node × Node)) {key value : Node} (hpasses : passes key value) :
      Respelled names passes respells (.mapping none (front ++ back))
        (.mapping none (front ++ (key, value) :: back))
  /-- The value of a field is spelled in another way. -/
  | changed (front back : List (Node × Node)) {key value other : Node} {field : Field}
      (hkey : names key = some field) (h : respells field value other) :
      Respelled names passes respells (.mapping none (front ++ (key, value) :: back))
        (.mapping none (front ++ (key, other) :: back))

/-- A plain scalar under a key that names no field. -/
inductive IsPassedOver (ofKey? : String → Option Field) : Node → Node → Prop
  | intro (style : ScalarStyle) {text : String} (h : ofKey? text = none) (value : String) :
      IsPassedOver ofKey? (.scalar none style text) (.scalar none .plain value)

theorem IsPassedOver.isResolved {ofKey? : String → Option Field} {key value : Node}
    (h : IsPassedOver ofKey? key value) : key.IsResolved ∧ value.IsResolved := by
  cases h
  exact ⟨.scalar _ _, .scalar _ _⟩

section Parts

variable {names : Node → Option Field} {passes : Node → Node → Prop}
  {respells : Field → Node → Node → Prop} {node other : Node}

theorem Says.isResolved {field : Field} {value : Node} (h : Says names field node value)
    (hnode : node.IsResolved) : value.IsResolved := by
  cases h with
  | intro hentry => exact (isResolved_mapping_iff.mp hnode _ hentry).2

/-- A mapping spelled in another way has no aliases and tags either. -/
theorem Respelled.isResolved
    (hpasses : ∀ key value, passes key value → key.IsResolved ∧ value.IsResolved)
    (hrespells : ∀ field value other, respells field value other → value.IsResolved →
      other.IsResolved)
    (h : Respelled names passes respells node other) (hnode : node.IsResolved) :
    other.IsResolved := by
  cases h with
  | permuted hperm =>
      rw [isResolved_mapping_iff] at hnode ⊢
      exact fun entry hentry => hnode entry (hperm.mem_iff.mpr hentry)
  | renamed front back =>
      simp only [isResolved_mapping_iff, List.forall_mem_append, List.forall_mem_cons] at hnode ⊢
      obtain ⟨hfront, ⟨-, hvalue⟩, hback⟩ := hnode
      exact ⟨hfront, ⟨.scalar _ _, hvalue⟩, hback⟩
  | inserted front back hentry =>
      simp only [isResolved_mapping_iff, List.forall_mem_append, List.forall_mem_cons] at hnode ⊢
      exact ⟨hnode.1, hpasses _ _ hentry, hnode.2⟩
  | changed front back hkey hvalue =>
      simp only [isResolved_mapping_iff, List.forall_mem_append, List.forall_mem_cons] at hnode ⊢
      obtain ⟨hfront, ⟨hresolved, hold⟩, hback⟩ := hnode
      exact ⟨hfront, ⟨hresolved, hrespells _ _ _ hvalue hold⟩, hback⟩

end Parts

/-! ## Settings in any order -/

variable {fieldOf : Setting → Field} {decode : Path → Field → Node → Decoder Setting}
  {build : List Setting → Except Problem Record}

/-- The order of the settings does not matter for a record, as long as they are about different
fields. -/
def IgnoresOrder (fieldOf : Setting → Field) (build : List Setting → Except Problem Record) :
    Prop :=
  ∀ settings others, settings.Perm others → (settings.map fieldOf).Nodup →
    build settings = build others

theorem foldl_eq_of_perm {apply : Record → Setting → Record}
    (happly : ∀ record first second, fieldOf first ≠ fieldOf second →
      apply (apply record first) second = apply (apply record second) first)
    {settings others : List Setting} (hperm : settings.Perm others)
    (hnodup : (settings.map fieldOf).Nodup) (record : Record) :
    settings.foldl apply record = others.foldl apply record := by
  refine hperm.foldl_eq' (fun first hfirst second hsecond record => ?_) record
  -- Two settings of one field are one and the same, for no field comes twice.
  by_cases hfield : fieldOf first = fieldOf second
  · rw [List.inj_on_of_nodup_map hnodup hfirst hsecond hfield]
  · exact happly record first second hfield

theorem ignoresOrder_foldl {apply : Record → Setting → Record}
    (happly : ∀ record first second, fieldOf first ≠ fieldOf second →
      apply (apply record first) second = apply (apply record second) first) (record : Record) :
    IgnoresOrder fieldOf fun settings => .ok (settings.foldl apply record) :=
  fun _ _ hperm hnodup => congrArg Except.ok (foldl_eq_of_perm happly hperm hnodup record)

/-- A record of one field has at most one setting. -/
theorem ignoresOrder_of_subsingleton [Subsingleton Field] : IgnoresOrder fieldOf build := by
  intro settings others hperm hnodup
  match settings with
  | [] => rw [hperm.nil_eq]
  | [setting] => rw [List.singleton_perm.mp hperm]
  | first :: second :: _ =>
      rw [List.map_cons, List.map_cons, List.nodup_cons] at hnodup
      rw [Subsingleton.elim (fieldOf first) (fieldOf second)] at hnodup
      exact absurd List.mem_cons_self hnodup.1

/-- What one of the settings says of a field does not hang on their order. -/
theorem findSome?_eq_of_perm {β : Type} (pick? : Setting → Option β) (field : Field)
    (hpick : ∀ setting value, pick? setting = some value → fieldOf setting = field)
    {settings others : List Setting} (hperm : settings.Perm others)
    (hnodup : (settings.map fieldOf).Nodup) :
    settings.findSome? pick? = others.findSome? pick? := by
  have hmem : ∀ {settings : List Setting}, (settings.map fieldOf).Nodup → ∀ value,
      settings.findSome? pick? = some value ↔
        ∃ setting ∈ settings, pick? setting = some value := by
    intro settings hnodup value
    constructor
    · exact List.exists_of_findSome?_eq_some
    · rintro ⟨setting, hsetting, hvalue⟩
      have hsome : (settings.findSome? pick?).isSome :=
        List.findSome?_isSome_iff.mpr ⟨setting, hsetting, by rw [hvalue]; rfl⟩
      obtain ⟨found, hfound⟩ := Option.isSome_iff_exists.mp hsome
      obtain ⟨other, hother, hsame⟩ := List.exists_of_findSome?_eq_some hfound
      have hfield : fieldOf other = fieldOf setting :=
        (hpick other found hsame).trans (hpick setting value hvalue).symm
      obtain rfl := List.inj_on_of_nodup_map hnodup hother hsetting hfield
      rw [hfound, ← hsame, hvalue]
  ext value
  rw [hmem hnodup, hmem ((hperm.map fieldOf).nodup_iff.mp hnodup)]
  simp only [hperm.mem_iff]

/-! ## Records that read alike -/

/-- A record is read field by field: each setting is about the field that it is read for, and
their order does not matter. -/
structure ReadsFields (fieldOf : Setting → Field) (decode : Path → Field → Node → Decoder Setting)
    (build : List Setting → Except Problem Record) : Prop where
  settles : ∀ field node, node.IsResolved → Settles (decode · field node)
  fieldOf_eq : ∀ field node setting, value? (decode · field node) = some setting →
    fieldOf setting = field
  ignoresOrder : IgnoresOrder fieldOf build

/-- The fields of the settings that are read are those that the entries name. -/
theorem ReadsFields.map_fieldOf (h : ReadsFields fieldOf decode build)
    {items : List (Field × Node)} {settings : List Setting}
    (hsettings : items.mapM (fun entry => value? (decode · entry.1 entry.2)) = some settings) :
    settings.map fieldOf = items.map Prod.fst := by
  have hall := mapM_eq_some_iff.mp hsettings
  clear hsettings
  induction hall with
  | nil => rfl
  | cons hsetting _ ih => rw [List.map_cons, List.map_cons, ih, h.fieldOf_eq _ _ _ hsetting]

variable {ofKey? : String → Option Field} {entries others : List (Node × Node)}

/-- Everything that is said of a record in some entries is said in others, too. -/
structure SaysSame (ofKey? : String → Option Field) (decode : Path → Field → Node → Decoder Setting)
    (entries others : List (Node × Node)) : Prop where
  keys : (∀ entry ∈ entries, entry.1.text?.isSome) → ∀ entry ∈ others, entry.1.text?.isSome
  fields : ((named (field? ofKey?) entries).map Prod.fst).Perm
    ((named (field? ofKey?) others).map Prod.fst)
  values : ∀ settings,
    (named (field? ofKey?) entries).mapM (fun entry => value? (decode · entry.1 entry.2)) =
      some settings → ∃ later,
    (named (field? ofKey?) others).mapM (fun entry => value? (decode · entry.1 entry.2)) =
      some later ∧ settings.Perm later

theorem Respelled.saysSame {respells : Field → Node → Node → Prop}
    (hrespells : ∀ field value other, respells field value other →
      ReadsAlike (decode · field) value other)
    (h : Respelled (field? ofKey?) (IsPassedOver ofKey?) respells (mapping none entries)
      (mapping none others)) (hentries : (mapping none entries).IsResolved) :
    SaysSame ofKey? decode entries others := by
  cases h with
  | permuted hperm =>
      have hnamed : (named (field? ofKey?) entries).Perm (named (field? ofKey?) others) :=
        hperm.filterMap _
      exact ⟨fun hkeys entry hentry => hkeys entry (hperm.mem_iff.mpr hentry), hnamed.map _,
        fun settings hsettings => mapM_perm hnamed hsettings⟩
  | renamed front back hkey hother =>
      constructor
      case keys =>
        simp only [List.forall_mem_append, List.forall_mem_cons]
        rintro ⟨hfront, -, hback⟩
        exact ⟨hfront, rfl, hback⟩
      case fields =>
        rw [named_append, named_append, named_cons_of_some hkey, named_cons_of_some hother]
      case values =>
        rw [named_append, named_append, named_cons_of_some hkey, named_cons_of_some hother]
        exact fun settings hsettings => ⟨settings, hsettings, .refl _⟩
  | @inserted front back key value hpasses =>
      have hnamed : named (field? ofKey?) (front ++ (key, value) :: back) =
          named (field? ofKey?) (front ++ back) := by
        cases hpasses with
        | intro style hnone value => rw [named_append, named_cons_of_none hnone, named_append]
      have hkey : key.text?.isSome := by
        cases hpasses
        rfl
      constructor
      case keys =>
        simp only [List.forall_mem_append, List.forall_mem_cons]
        rintro ⟨hfront, hback⟩
        exact ⟨hfront, hkey, hback⟩
      case fields => rw [hnamed]
      case values =>
        rw [hnamed]
        exact fun settings hsettings => ⟨settings, hsettings, .refl _⟩
  | @changed front back key value other field hkey hvalue =>
      have hresolved : value.IsResolved :=
        (isResolved_mapping_iff.mp hentries (key, value) List.mem_append_cons_self).2
      have hnamed : ∀ value, named (field? ofKey?) (front ++ (key, value) :: back) =
          named (field? ofKey?) front ++ (field, value) :: named (field? ofKey?) back := by
        intro value
        rw [named_append, named_cons_of_some hkey]
      constructor
      case keys =>
        simp only [List.forall_mem_append, List.forall_mem_cons]
        exact id
      case fields => simp only [hnamed, List.map_append, List.map_cons, List.Perm.refl]
      case values =>
        have hsame := (hrespells field value other hvalue).value?_eq hresolved
        simp only [hnamed]
        exact fun settings hsettings => ⟨settings, mapM_replace hsame hsettings, .refl _⟩

variable [DecidableEq Field] {expected : String} {name : Field → String} {record : Record}
  {node other : Node}

theorem SaysSame.decodeRecord (h : SaysSame ofKey? decode entries others)
    (hreads : ReadsFields fieldOf decode build) (hentries : (mapping none entries).IsResolved)
    (hothers : (mapping none others).IsResolved)
    (hrecord : value? (fun path =>
      (mapping none entries).decodeRecord path expected ofKey? name decode build) = some record) :
    value? (fun path =>
      (mapping none others).decodeRecord path expected ofKey? name decode build) = some record := by
  rw [value?_decodeRecord_iff hreads.settles hentries] at hrecord
  obtain ⟨⟨hkeys, hnodup, -⟩, settings, hsettings, hvalues⟩ := hrecord
  obtain ⟨later, hlater, hperm⟩ := h.values settings hvalues
  rw [value?_decodeRecord_iff hreads.settles hothers]
  refine ⟨⟨h.keys hkeys, h.fields.nodup hnodup, fun _ _ => List.not_mem_nil⟩, later, ?_, hlater⟩
  -- The settings have come in another order only, and each is of a field of its own.
  rw [← hreads.ignoresOrder settings later hperm, hsettings]
  rwa [hreads.map_fieldOf hvalues]

/-- A record spelled in another way reads alike. -/
theorem Respelled.readsAlike {respells : Field → Node → Node → Prop}
    (h : Respelled (field? ofKey?) (IsPassedOver ofKey?) respells node other)
    (hreads : ReadsFields fieldOf decode build)
    (hrespells : ∀ field value other, respells field value other →
      ReadsAlike (decode · field) value other) :
    ReadsAlike (fun path node => node.decodeRecord path expected ofKey? name decode build)
      node other := by
  have hresolved := h.isResolved (fun _ _ => IsPassedOver.isResolved)
    fun field value other hvalue => (hrespells field value other hvalue).isResolved
  refine ⟨hresolved, fun hnode record hrecord => ?_⟩
  obtain ⟨entries, others, rfl, rfl⟩ :
      ∃ entries others, node = mapping none entries ∧ other = mapping none others := by
    cases h <;> exact ⟨_, _, rfl, rfl⟩
  exact (h.saysSame hrespells hnode).decodeRecord hreads hnode (hresolved hnode) hrecord

/-- When a record is read, the value of each of its fields is. -/
theorem Says.exists_setting {field : Field} {value : Node}
    (h : Says (field? ofKey?) field node value) (hreads : ReadsFields fieldOf decode build)
    (hnode : node.IsResolved)
    (hrecord : value? (fun path =>
      node.decodeRecord path expected ofKey? name decode build) = some record) :
    ∃ setting, value? (decode · field value) = some setting := by
  cases h with
  | intro hentry hkey =>
      rw [value?_decodeRecord_iff hreads.settles hnode] at hrecord
      obtain ⟨-, settings, -, hsettings⟩ := hrecord
      exact exists_of_mapM hsettings (mem_named hentry hkey)

/-- Of a mapping that says two things of one field no record is read. -/
theorem SaysTwice.value?_decodeRecord (h : SaysTwice (field? ofKey?) node)
    (hreads : ReadsFields fieldOf decode build) (hnode : node.IsResolved) :
    value? (fun path => node.decodeRecord path expected ofKey? name decode build) = none := by
  cases h with
  | @intro front middle back key other value otherValue field hkey hother =>
      rw [Option.eq_none_iff_forall_ne_some]
      intro record hrecord
      rw [value?_decodeRecord_iff hreads.settles hnode] at hrecord
      have hnodup := hrecord.1.nodup
      rw [named_append, named_cons_of_some hkey, named_append, named_cons_of_some hother,
        List.map_append, List.map_cons, List.map_append, List.map_cons] at hnodup
      have hunique := (List.nodup_cons.mp (List.nodup_append.mp hnodup).2.1).1
      exact hunique List.mem_append_cons_self

end Spelling

end LiveRelay.Yaml.Node
