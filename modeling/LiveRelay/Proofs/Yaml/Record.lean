import LiveRelay.Proofs.Yaml.Outcome
import Mathlib.Data.List.Perm.Basic

/-! # Records in a document

What a mapping says of a record are its named entries, and only those: each is read by itself,
and they have to name different fields (`value?_decodeRecord_iff`).
-/

namespace LiveRelay

/-! ## Reading lists -/

section Lists

variable {α β γ State : Type} {f : α → Option β}

theorem mapM_cons_eq_some_iff {item : α} {items : List α} {values : List β} :
    (item :: items).mapM f = some values ↔
      ∃ value rest, f item = some value ∧ items.mapM f = some rest ∧ values = value :: rest := by
  simp only [List.mapM_cons, Option.bind_eq_bind, Option.bind_eq_some_iff, Option.pure_def,
    Option.some.injEq]
  constructor
  · rintro ⟨value, hvalue, rest, hrest, rfl⟩
    exact ⟨value, rest, hvalue, hrest, rfl⟩
  · rintro ⟨value, rest, hvalue, hrest, rfl⟩
    exact ⟨value, hvalue, rest, hrest, rfl⟩

theorem mapM_eq_some_iff {items : List α} {values : List β} :
    items.mapM f = some values ↔
      List.Forall₂ (fun item value => f item = some value) items values := by
  induction items generalizing values with
  | nil => simp [eq_comm]
  | cons item items ih =>
      rw [mapM_cons_eq_some_iff, List.forall₂_cons_left_iff]
      simp only [ih, exists_and_left]

/-- What is read of some items is read of them in another order, too. -/
theorem mapM_perm {items others : List α} (h : items.Perm others) {values : List β}
    (hvalues : items.mapM f = some values) :
    ∃ later, others.mapM f = some later ∧ values.Perm later := by
  obtain ⟨later, hlater, hperm⟩ :=
    List.perm_comp_forall₂ h.symm (mapM_eq_some_iff.mp hvalues)
  exact ⟨later, mapM_eq_some_iff.mpr hlater, hperm.symm⟩

/-- An item may be replaced by another of which the same is read. -/
theorem mapM_replace {front back : List α} {item other : α} {values : List β}
    (h : ∀ value, f item = some value → f other = some value)
    (hvalues : (front ++ item :: back).mapM f = some values) :
    (front ++ other :: back).mapM f = some values := by
  induction front generalizing values with
  | nil =>
      obtain ⟨value, rest, hvalue, hrest, rfl⟩ := mapM_cons_eq_some_iff.mp hvalues
      exact mapM_cons_eq_some_iff.mpr ⟨value, rest, h value hvalue, hrest, rfl⟩
  | cons first front ih =>
      obtain ⟨value, rest, hvalue, hrest, rfl⟩ := mapM_cons_eq_some_iff.mp hvalues
      exact mapM_cons_eq_some_iff.mpr ⟨value, rest, hvalue, ih hrest, rfl⟩

/-- When the whole is read, something is read of every item. -/
theorem exists_of_mapM {items : List α} {values : List β} (h : items.mapM f = some values)
    {item : α} (hitem : item ∈ items) : ∃ value, f item = some value := by
  induction items generalizing values with
  | nil => cases hitem
  | cons first items ih =>
      obtain ⟨value, rest, hvalue, hrest, -⟩ := mapM_cons_eq_some_iff.mp h
      rcases List.mem_cons.mp hitem with rfl | hlater
      · exact ⟨value, hvalue⟩
      · exact ih hrest hlater

theorem mapM_congr_left {g : α → Option β} {items : List α} (h : ∀ item ∈ items, f item = g item) :
    items.mapM f = items.mapM g := by
  induction items with
  | nil => rfl
  | cons item items ih =>
      obtain ⟨hitem, hitems⟩ := List.forall_mem_cons.mp h
      rw [List.mapM_cons, List.mapM_cons, hitem, ih hitems]

/-- What is read twice, one list after the other, is read item by item. -/
theorem mapM_bind_mapM (f : α → Option β) (g : β → Option γ) {items : List α} :
    (items.mapM f).bind (·.mapM g) = items.mapM fun item => (f item).bind g := by
  induction items with
  | nil => rfl
  | cons item items ih =>
      simp only [List.mapM_cons, ← ih, Option.bind_eq_bind, Option.pure_def, Option.bind_assoc,
        Option.bind_some]
      refine congrArg _ (funext fun value => ?_)
      exact Option.bind_comm _ _

theorem mapM_bind_foldlM (f : α → Option β) (step : State → β → Option State) (state : State)
    {items : List α} :
    (items.mapM f).bind (·.foldlM step state) =
      items.foldlM (fun state item => (f item).bind (step state)) state := by
  induction items generalizing state with
  | nil => rfl
  | cons item items ih =>
      simp only [List.mapM_cons, List.foldlM_cons, ← ih, Option.bind_eq_bind, Option.pure_def,
        Option.bind_assoc, Option.bind_some]
      refine congrArg _ (funext fun value => ?_)
      exact Option.bind_comm _ _

/-- Steps that commute may be taken in any order. -/
theorem foldlM_perm {step : State → α → Option State}
    (hcomm : ∀ state first second,
      (step state first).bind (step · second) = (step state second).bind (step · first))
    {items others : List α} (hperm : items.Perm others) (state : State) :
    items.foldlM step state = others.foldlM step state := by
  induction hperm generalizing state with
  | nil => rfl
  | cons item _ ih => simp only [List.foldlM_cons, ih]
  | swap first second rest =>
      simp only [List.foldlM_cons, Option.bind_eq_bind, ← Option.bind_assoc, hcomm state]
  | trans _ _ ihfirst ihsecond => rw [ihfirst, ihsecond]

/-- The steps before an item, the one for it, and those behind it. -/
theorem exists_of_foldlM {step : State → α → Option State} {front back : List α} {item : α}
    {state final : State} (h : (front ++ item :: back).foldlM step state = some final) :
    ∃ before after, front.foldlM step state = some before ∧ step before item = some after ∧
      back.foldlM step after = some final := by
  rw [List.foldlM_append] at h
  obtain ⟨before, hbefore, h⟩ := Option.bind_eq_some_iff.mp h
  rw [List.foldlM_cons] at h
  obtain ⟨after, hafter, h⟩ := Option.bind_eq_some_iff.mp h
  exact ⟨before, after, hbefore, hafter, h⟩

end Lists

namespace Yaml.Node

open Decoder

variable {Field Setting Record : Type}

/-- The field that a key names, if it is a scalar that names one. -/
def field? (ofKey? : String → Option Field) (key : Node) : Option Field := key.text?.bind ofKey?

/-- The fields that the entries of a mapping name, and their values. -/
def named (names : Node → Option Field) (entries : List (Node × Node)) : List (Field × Node) :=
  entries.filterMap fun entry => (names entry.1).map (·, entry.2)

section Named

variable {names : Node → Option Field} {ofKey? : String → Option Field}
  {entries : List (Node × Node)}

theorem named_cons_of_some {key value : Node} {field : Field} (h : names key = some field) :
    named names ((key, value) :: entries) = (field, value) :: named names entries := by
  simp [named, h]

theorem named_cons_of_none {key value : Node} (h : names key = none) :
    named names ((key, value) :: entries) = named names entries := by
  simp [named, h]

theorem named_append (front back : List (Node × Node)) :
    named names (front ++ back) = named names front ++ named names back :=
  List.filterMap_append

theorem mem_named {key value : Node} {field : Field}
    (hmem : (key, value) ∈ entries) (h : names key = some field) :
    (field, value) ∈ named names entries :=
  List.mem_filterMap.mpr ⟨(key, value), hmem, by simp [h]⟩

/-- Every key is a scalar, and the fields that they name differ from each other and from those
that have been seen. -/
structure IsReadable (ofKey? : String → Option Field) (seen : List Field)
    (entries : List (Node × Node)) : Prop where
  keys : ∀ entry ∈ entries, entry.1.text?.isSome
  nodup : ((named (field? ofKey?) entries).map Prod.fst).Nodup
  unseen : ∀ field ∈ (named (field? ofKey?) entries).map Prod.fst, field ∉ seen

theorem isReadable_cons_of_none {seen : List Field} {key : Node} (hkey : key.text?.isSome)
    (hnone : field? ofKey? key = none) (value : Node) :
    IsReadable ofKey? seen ((key, value) :: entries) ↔ IsReadable ofKey? seen entries := by
  have hsame : named (field? ofKey?) ((key, value) :: entries) = named (field? ofKey?) entries :=
    named_cons_of_none hnone
  constructor
  · rintro ⟨hkeys, hnodup, hunseen⟩
    rw [hsame] at hnodup hunseen
    exact ⟨(List.forall_mem_cons.mp hkeys).2, hnodup, hunseen⟩
  · rintro ⟨hkeys, hnodup, hunseen⟩
    rw [← hsame] at hnodup hunseen
    exact ⟨List.forall_mem_cons.mpr ⟨hkey, hkeys⟩, hnodup, hunseen⟩

theorem isReadable_cons_of_some {seen : List Field} {key : Node} {field : Field}
    (hkey : key.text?.isSome) (hfield : field? ofKey? key = some field) (value : Node) :
    IsReadable ofKey? seen ((key, value) :: entries) ↔
      field ∉ seen ∧ IsReadable ofKey? (field :: seen) entries := by
  constructor
  · rintro ⟨hkeys, hnodup, hunseen⟩
    rw [named_cons_of_some hfield, List.map_cons] at hnodup hunseen
    obtain ⟨hnew, hnodup⟩ := List.nodup_cons.mp hnodup
    obtain ⟨hfirst, hunseen⟩ := List.forall_mem_cons.mp hunseen
    refine ⟨hfirst, (List.forall_mem_cons.mp hkeys).2, hnodup, ?_⟩
    intro other hother hmem
    rcases List.mem_cons.mp hmem with rfl | hseen
    · exact hnew hother
    · exact hunseen other hother hseen
  · rintro ⟨hfirst, hkeys, hnodup, hunseen⟩
    constructor
    case keys => exact List.forall_mem_cons.mpr ⟨hkey, hkeys⟩
    case nodup =>
      rw [named_cons_of_some hfield, List.map_cons]
      refine List.nodup_cons.mpr ⟨?_, hnodup⟩
      exact fun hmem => hunseen field hmem List.mem_cons_self
    case unseen =>
      rw [named_cons_of_some hfield, List.map_cons, List.forall_mem_cons]
      exact ⟨hfirst, fun other hother hseen =>
        hunseen other hother (List.mem_cons_of_mem _ hseen)⟩

end Named

/-! ## Reading the fields -/

section DecodeFields

variable [DecidableEq Field] {ofKey? : String → Option Field} {name : Field → String}
  {decode : Path → Field → Node → Decoder Setting} {entries : List (Node × Node)}

/-- What is read of the entries of a mapping when these fields have been seen before. -/
def settings? (ofKey? : String → Option Field) (decode : Path → Field → Node → Decoder Setting) :
    (seen : List Field) → (entries : List (Node × Node)) → Option (List Setting)
  | _, [] => some []
  | seen, (key, value) :: entries =>
      key.text?.bind fun text =>
        match ofKey? text with
        | none => settings? ofKey? decode seen entries
        | some field =>
            if seen.contains field then none
            else
              (value? (decode · field value)).bind fun setting =>
                (settings? ofKey? decode (field :: seen) entries).bind fun settings =>
                  some (setting :: settings)

theorem decodeFields_comesTo (hkeys : ∀ entry ∈ entries, entry.1.IsResolved)
    (hdecode : ∀ entry ∈ entries, ∀ field, Settles (decode · field entry.2)) (seen : List Field) :
    ComesTo (fun path => decodeFields path ofKey? name decode seen entries)
      (settings? ofKey? decode seen entries) := by
  induction entries generalizing seen with
  | nil => exact .pure []
  | cons entry entries ih =>
      obtain ⟨key, value⟩ := entry
      have hrest := ih (fun other hother => hkeys other (List.mem_cons_of_mem _ hother))
        fun other hother => hdecode other (List.mem_cons_of_mem _ hother)
      have hkey := decodeString_comesTo (hkeys _ List.mem_cons_self) "field identifier"
      refine hkey.bind fun text _ => ?_
      cases ofKey? text with
      | none => exact hrest seen
      | some field =>
          dsimp only
          cases seen.contains field with
          | true => exact .fail _
          | false =>
              have hvalue := (hdecode _ List.mem_cons_self field).comesTo
              exact (hvalue.shift (keyPath · key)).bind fun setting _ =>
                (hrest (field :: seen)).bind fun settings _ => .pure (setting :: settings)

/-- What is read of a mapping is read of its named entries, each by itself. -/
theorem settings?_eq_some_iff {seen : List Field} {settings : List Setting} :
    settings? ofKey? decode seen entries = some settings ↔
      IsReadable ofKey? seen entries ∧
        (named (field? ofKey?) entries).mapM (fun entry => value? (decode · entry.1 entry.2)) =
          some settings := by
  -- Every field that is named joins those seen, so the induction is on the entries for any of these.
  induction entries generalizing seen settings with
  | nil =>
      have hreadable : IsReadable ofKey? seen [] := ⟨nofun, List.nodup_nil, nofun⟩
      simp [settings?, named, hreadable]
  | cons entry entries ih =>
      obtain ⟨key, value⟩ := entry
      cases htext : key.text? with
      | none =>
          have hunread : ¬IsReadable ofKey? seen ((key, value) :: entries) := by
            intro hreadable
            have hkey := hreadable.keys _ List.mem_cons_self
            rw [htext] at hkey
            cases hkey
          simp [settings?, htext, hunread]
      | some text =>
          have hkey : key.text?.isSome := Option.isSome_of_eq_some htext
          cases hfield : ofKey? text with
          | none =>
              have hnone : field? ofKey? key = none := by
                rw [field?, htext, Option.bind_some, hfield]
              rw [isReadable_cons_of_none hkey hnone, named_cons_of_none hnone, ← ih]
              simp [settings?, htext, hfield]
          | some field =>
              have hsome : field? ofKey? key = some field := by
                rw [field?, htext, Option.bind_some, hfield]
              rw [isReadable_cons_of_some hkey hsome, named_cons_of_some hsome,
                mapM_cons_eq_some_iff]
              by_cases hseen : field ∈ seen
              · simp [settings?, htext, hfield, hseen]
              · simp only [settings?, htext, hfield, List.contains_iff_mem, hseen,
                  Option.bind_some, if_false, Option.bind_eq_some_iff, ih, Option.some.injEq]
                constructor
                · rintro ⟨setting, hsetting, rest, ⟨hreadable, hrest⟩, rfl⟩
                  exact ⟨⟨id, hreadable⟩, setting, rest, hsetting, hrest, rfl⟩
                · rintro ⟨⟨-, hreadable⟩, setting, rest, hsetting, hrest, rfl⟩
                  exact ⟨setting, hsetting, rest, ⟨hreadable, hrest⟩, rfl⟩

end DecodeFields

/-! ## Reading the record -/

section DecodeRecord

variable [DecidableEq Field] {expected : String} {ofKey? : String → Option Field}
  {name : Field → String} {decode : Path → Field → Node → Decoder Setting}
  {build : List Setting → Except Problem Record} {entries : List (Node × Node)} {record : Record}

theorem decodeRecord_comesTo
    (hdecode : ∀ field node, node.IsResolved → Settles (decode · field node))
    (hentries : (mapping none entries).IsResolved) :
    ComesTo
      (fun path => (mapping none entries).decodeRecord path expected ofKey? name decode build)
      ((settings? ofKey? decode [] entries).bind fun settings => (build settings).toOption) := by
  unfold decodeRecord
  rw [hentries.resolve]
  simp only [pure_bind]
  rw [isResolved_mapping_iff] at hentries
  have hfields : ComesTo (fun path => decodeFields path ofKey? name decode [] entries)
      (settings? ofKey? decode [] entries) :=
    decodeFields_comesTo (fun entry hentry => (hentries entry hentry).1)
      (fun entry hentry field => hdecode field entry.2 (hentries entry hentry).2) []
  exact ComesTo.locate (hfields.bind fun settings _ => .ofExcept (build settings)) id

theorem settles_decodeRecord
    (hdecode : ∀ field node, node.IsResolved → Settles (decode · field node)) {node : Node}
    (hnode : node.IsResolved) :
    Settles fun path => node.decodeRecord path expected ofKey? name decode build := by
  have hbuild : ∀ settings, Settles fun _ => Decoder.ofExcept (build settings) :=
    fun settings => (ComesTo.ofExcept (build settings)).settles
  cases hnode with
  | mapping hkeys hvalues => exact (decodeRecord_comesTo hdecode (.mapping hkeys hvalues)).settles
  | sequence hitems => exact ((settles_mismatch (.sequence hitems) expected).bind hbuild).locate id
  | scalar style text =>
      unfold decodeRecord
      rw [IsResolved.resolve (.scalar style text)]
      simp only [pure_bind]
      refine Settles.locate ?_ id
      cases isEmptyPlain style text with
      | true => exact hbuild []
      | false => exact (settles_mismatch (.scalar style text) expected).bind hbuild

/-- What a mapping says of a record is what its named entries say. -/
theorem value?_decodeRecord_iff
    (hdecode : ∀ field node, node.IsResolved → Settles (decode · field node))
    (hentries : (mapping none entries).IsResolved) :
    value? (fun path => (mapping none entries).decodeRecord path expected ofKey? name decode build)
        = some record ↔
      IsReadable ofKey? [] entries ∧ ∃ settings, build settings = .ok record ∧
        (named (field? ofKey?) entries).mapM (fun entry => value? (decode · entry.1 entry.2)) =
          some settings := by
  rw [(decodeRecord_comesTo hdecode hentries).value?_eq, Option.bind_eq_some_iff]
  have hbuild : ∀ settings, (build settings).toOption = some record ↔
      build settings = .ok record := by
    intro settings
    cases build settings <;> simp [Except.toOption]
  simp only [settings?_eq_some_iff, hbuild]
  constructor
  · rintro ⟨settings, ⟨hreadable, hsettings⟩, hrecord⟩
    exact ⟨hreadable, settings, hrecord, hsettings⟩
  · rintro ⟨hreadable, settings, hrecord, hsettings⟩
    exact ⟨settings, ⟨hreadable, hsettings⟩, hrecord⟩

end DecodeRecord

end Yaml.Node

end LiveRelay
