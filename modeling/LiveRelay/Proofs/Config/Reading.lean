import LiveRelay.Config.Document
import LiveRelay.Proofs.Config.Addresses

/-! # How the parts of a configuration are read

Every part of a configuration is a record, and it is read field by field (`ReadsFields`): what
stands under a key gives a setting of the field that the key names, and settings of different
fields may come in any order.
-/

namespace LiveRelay

open Yaml (Decoder Node Path)
open Yaml.Decoder (ComesTo Settles value?)
open Yaml.Node (ReadsFields IgnoresOrder value?_map_eq_some_iff foldl_eq_of_perm
  findSome?_eq_of_perm ignoresOrder_foldl ignoresOrder_of_subsingleton settles_decodeRecord
  settles_decodeList settles_decodeOption)

variable {node : Node}

theorem settles_decodeVariant {α : Type} (h : node.IsResolved) (first second : String × α) :
    Settles fun path => decodeVariant path first second node := by
  cases h with
  | scalar style name =>
      have hchoose : Settles fun _ =>
          if name == first.1 then pure first.2
          else if name == second.1 then pure second.2
          else (Decoder.fail (.unknownVariant name first.1 second.1) : Decoder α) := by
        split
        next => exact (ComesTo.pure first.2).settles
        next =>
          split
          next => exact (ComesTo.pure second.2).settles
          next => exact (ComesTo.fail _).settles
      exact hchoose.locate id
  | sequence => exact (ComesTo.fail _).settles.locate id
  | mapping => exact (ComesTo.fail _).settles.locate id

theorem settles_decodeText (h : node.IsResolved) : Settles fun path => decodeText path node :=
  (Node.decodeString_comesTo h "a string").settles

theorem settles_decodeSeconds (h : node.IsResolved) :
    Settles fun path => decodeSeconds path node :=
  (Node.settles_decodeFloat h "f32").bind fun _ => (ComesTo.pure _).settles

theorem settles_decodeAmfVersion (h : node.IsResolved) :
    Settles fun path => decodeAmfVersion path node := by
  refine (Node.settles_decodeUnsigned h 32 "u32").bind fun number => ?_
  cases AmfVersion.ofNumber? number with
  | some version => exact (ComesTo.pure version).settles
  | none => exact (ComesTo.fail _).settles

/-! ## Endpoints -/

namespace EndpointSetting

def field : EndpointSetting → EndpointField
  | applicationName _ => .applicationName
  | streamName _ => .streamName
  | role _ => .role
  | direction _ => .direction
  | addresses _ => .addresses
  | video _ => .video
  | audio _ => .audio
  | data _ => .data
  | metadataBlacklist _ => .metadataBlacklist
  | connectionTimeout _ => .connectionTimeout
  | reconnectInterval _ => .reconnectInterval
  | reconnectCount _ => .reconnectCount
  | pingInterval _ => .pingInterval
  | bufferSize _ => .bufferSize
  | amfVersion _ => .amfVersion
  | listenMode _ => .listenMode
  | queueCapacity _ => .queueCapacity
  | codec _ => .codec

theorem settles_decode (field : EndpointField) (h : node.IsResolved) :
    Settles fun path => decode path field node := by
  cases field with
  | applicationName => exact (settles_decodeText h).map _
  | streamName => exact (settles_decodeText h).map _
  | role => exact (settles_decodeVariant h _ _).map _
  | direction => exact (settles_decodeVariant h _ _).map _
  | addresses => exact (AddressConfig.decodeList_comesTo h).settles.map _
  | video => exact (Node.settles_decodeBool h).map _
  | audio => exact (Node.settles_decodeBool h).map _
  | data => exact (Node.settles_decodeBool h).map _
  | metadataBlacklist => exact (settles_decodeList h fun _ => settles_decodeText).map _
  | connectionTimeout => exact (settles_decodeSeconds h).map _
  | reconnectInterval => exact (settles_decodeSeconds h).map _
  | reconnectCount => exact (Node.settles_decodeUnsigned h _ _).map _
  | pingInterval => exact (settles_decodeSeconds h).map _
  | bufferSize => exact (Node.settles_decodeUnsigned h _ _).map _
  | amfVersion => exact (settles_decodeOption h (settles_decodeAmfVersion h)).map _
  | listenMode => exact (settles_decodeVariant h _ _).map _
  | queueCapacity => exact (Node.settles_decodeUnsigned h _ _).map _
  | codec => exact (settles_decodeVariant h _ _).map _

theorem field_of_decode {field : EndpointField} {setting : EndpointSetting}
    (h : value? (decode · field node) = some setting) : setting.field = field := by
  cases field <;> obtain ⟨value, -, rfl⟩ := value?_map_eq_some_iff.mp h <;> rfl

theorem apply_comm (config : EndpointConfig) (first second : EndpointSetting)
    (h : first.field ≠ second.field) :
    apply (apply config first) second = apply (apply config second) first := by
  cases first <;> cases second <;> simp only [field, ne_eq, not_true_eq_false] at h <;> rfl

end EndpointSetting

namespace EndpointConfig

theorem ignoresOrder_ofSettings : IgnoresOrder EndpointSetting.field ofSettings := by
  intro settings others hperm hnodup
  have hrole := findSome?_eq_of_perm EndpointSetting.role? .role
    (fun setting value h => by cases setting <;> cases h; rfl) hperm hnodup
  have hdirection := findSome?_eq_of_perm EndpointSetting.direction? .direction
    (fun setting value h => by cases setting <;> cases h; rfl) hperm hnodup
  have haddresses := findSome?_eq_of_perm EndpointSetting.addresses? .addresses
    (fun setting value h => by cases setting <;> cases h; rfl) hperm hnodup
  have hrest := foldl_eq_of_perm EndpointSetting.apply_comm hperm hnodup
  -- The required fields, or the first that is missing, are the same, and so is what is added.
  simp only [ofSettings, hrole, hdirection, haddresses, hrest]

theorem readsFields : ReadsFields EndpointSetting.field EndpointSetting.decode ofSettings where
  settles field _ := EndpointSetting.settles_decode field
  fieldOf_eq _ _ _ := EndpointSetting.field_of_decode
  ignoresOrder := ignoresOrder_ofSettings

theorem settles_decode (h : node.IsResolved) : Settles fun path => decode path node :=
  settles_decodeRecord readsFields.settles h

end EndpointConfig

/-! ## Servers, the logging and the status page -/

instance : Subsingleton ServerField := ⟨fun first second => by cases first; cases second; rfl⟩

instance : Subsingleton StatusPageField := ⟨fun first second => by cases first; cases second; rfl⟩

namespace ServerConfig

theorem readsFields :
    ReadsFields (fun _ => ServerField.endpoints)
      (fun path _ node => node.decodeList path EndpointConfig.decode)
      (fun settings => .ok { endpoints := settings.head?.getD [] : ServerConfig }) where
  settles _ _ h := settles_decodeList h fun _ => EndpointConfig.settles_decode
  fieldOf_eq _ _ _ _ := Subsingleton.elim _ _
  ignoresOrder := ignoresOrder_of_subsingleton

theorem settles_decode (h : node.IsResolved) : Settles fun path => decode path node :=
  settles_decodeRecord readsFields.settles h

end ServerConfig

namespace LogSetting

def field : LogSetting → LogField
  | level _ => .level
  | syslogIdent _ => .syslogIdent
  | syslogFacility _ => .syslogFacility

theorem apply_comm (config : LogConfig) (first second : LogSetting)
    (h : first.field ≠ second.field) :
    apply (apply config first) second = apply (apply config second) first := by
  cases first <;> cases second <;> simp only [field, ne_eq, not_true_eq_false] at h <;> rfl

end LogSetting

namespace LogConfig

theorem readsFields :
    ReadsFields LogSetting.field LogSetting.decode
      (fun settings => .ok (settings.foldl LogSetting.apply {})) where
  settles field _ h := by
    cases field with
    | level => exact (Node.settles_decodeUnsigned h _ _).map _
    | syslogIdent => exact (settles_decodeOption h (settles_decodeText h)).map _
    | syslogFacility => exact (settles_decodeOption h (settles_decodeText h)).map _
  fieldOf_eq field node setting h := by
    cases field <;>
      obtain ⟨value, -, rfl⟩ := value?_map_eq_some_iff.mp h <;> rfl
  ignoresOrder := ignoresOrder_foldl LogSetting.apply_comm {}

theorem settles_decode (h : node.IsResolved) : Settles fun path => decode path node :=
  settles_decodeRecord readsFields.settles h

end LogConfig

namespace StatusPageConfig

theorem readsFields :
    ReadsFields (fun _ => StatusPageField.address)
      (fun path _ node => node.decodeOption (decodeText path))
      (fun settings => .ok { address := settings.head?.getD none : StatusPageConfig }) where
  settles _ _ h := settles_decodeOption h (settles_decodeText h)
  fieldOf_eq _ _ _ _ := Subsingleton.elim _ _
  ignoresOrder := ignoresOrder_of_subsingleton

theorem settles_decode (h : node.IsResolved) : Settles fun path => decode path node :=
  settles_decodeRecord readsFields.settles h

end StatusPageConfig

/-! ## The configuration -/

namespace ConfigSetting

def field : ConfigSetting → ConfigField
  | log _ => .log
  | statusPage _ => .statusPage
  | timeout _ => .timeout
  | servers _ => .servers

theorem apply_comm (config : Config) (first second : ConfigSetting)
    (h : first.field ≠ second.field) :
    apply (apply config first) second = apply (apply config second) first := by
  cases first <;> cases second <;> simp only [field, ne_eq, not_true_eq_false] at h <;> rfl

end ConfigSetting

namespace Config

theorem readsFields :
    ReadsFields ConfigSetting.field ConfigSetting.decode
      (fun settings => .ok (settings.foldl ConfigSetting.apply {})) where
  settles field _ h := by
    cases field with
    | log => exact (LogConfig.settles_decode h).map _
    | statusPage => exact (StatusPageConfig.settles_decode h).map _
    | timeout => exact (settles_decodeOption h (settles_decodeSeconds h)).map _
    | servers => exact (settles_decodeList h fun _ => ServerConfig.settles_decode).map _
  fieldOf_eq field node setting h := by
    cases field <;>
      obtain ⟨value, -, rfl⟩ := value?_map_eq_some_iff.mp h <;> rfl
  ignoresOrder := ignoresOrder_foldl ConfigSetting.apply_comm {}

theorem settles_decode (h : node.IsResolved) : Settles fun path => decode path node :=
  settles_decodeRecord readsFields.settles h

end Config

end LiveRelay
