import LiveRelay.Config.Address

/-! # Configurations in a document

Every part of a configuration is a mapping. An entry of it is read as a setting, which
says what one field is, and the settings are put together with the defaults of the
fields that have none.
-/

namespace LiveRelay

open Yaml (Decoder Node Path Problem)

/-- Reads one of two things by its name: a text, or a tag of the document's own on an
empty node. -/
def decodeVariant {α : Type} (path : Path) (first second : String × α) (node : Node) :
    Decoder α := do
  let choose (name : String) : Decoder α :=
    if name == first.1 then pure first.2
    else if name == second.1 then pure second.2
    else Decoder.fail (.unknownVariant name first.1 second.1)
  let node ← Decoder.resolve node
  let tagged (tag : Option String) (unmarked : Decoder α) : Decoder α :=
    match Node.ownTag? tag with
    | none => Decoder.locate path unmarked
    | some name => do
        let value ← choose name
        match node with
        | .scalar _ .plain text =>
            if text.isEmpty || Yaml.Plain.isNull text then pure value
            else Decoder.locate path (node.mismatch "unit")
        | _ => Decoder.locate path (node.mismatch "unit")
  match node with
  | .scalar tag _ text => tagged tag (choose text)
  | .sequence tag _ =>
      tagged tag (Decoder.fail (.invalidType .sequence "a YAML tag starting with '!'"))
  | .mapping tag _ =>
      tagged tag (Decoder.fail (.invalidType .mapping "a YAML tag starting with '!'"))
  | _ => throw .malformed

def decodeRole (path : Path) : Node → Decoder ConnectionRole :=
  decodeVariant path ("host", .host) ("client", .client)

def decodeDirection (path : Path) : Node → Decoder Direction :=
  decodeVariant path ("input", .input) ("output", .output)

def decodeListenMode (path : Path) : Node → Decoder ListenMode :=
  decodeVariant path ("persistent", .persistent) ("singleShot", .singleShot)

def decodeCodec (path : Path) : Node → Decoder CodecKind :=
  decodeVariant path ("raw", .raw) ("flv", .flv)

def decodeText (path : Path) : Node → Decoder String := Node.decodeString path "a string"

def decodeU32 (path : Path) : Node → Decoder Nat := Node.decodeUnsigned path 32 "u32"

/-- Reads a number in double precision and rounds it to single. -/
def decodeSeconds (path : Path) (node : Node) : Decoder Single := do
  let bits ← node.decodeFloat path "f32"
  return .ofDouble (FloatFormat.double.value bits)

def decodeAmfVersion (path : Path) (node : Node) : Decoder AmfVersion := do
  let number ← decodeU32 path node
  match AmfVersion.ofNumber? number with
  | some version => pure version
  | none => Decoder.fail (.unsupportedAmfVersion number)

/-- The fields of an endpoint. -/
inductive EndpointField where
  | applicationName
  | streamName
  | role
  | direction
  | addresses
  | video
  | audio
  | data
  | metadataBlacklist
  | connectionTimeout
  | reconnectInterval
  | reconnectCount
  | pingInterval
  | bufferSize
  | amfVersion
  | listenMode
  | queueCapacity
  | codec
  deriving DecidableEq

namespace EndpointField

def name : EndpointField → String
  | applicationName => "applicationName"
  | streamName => "streamName"
  | role => "role"
  | direction => "direction"
  | addresses => "addresses"
  | video => "video"
  | audio => "audio"
  | data => "data"
  | metadataBlacklist => "metadataBlacklist"
  | connectionTimeout => "connectionTimeout"
  | reconnectInterval => "reconnectInterval"
  | reconnectCount => "reconnectCount"
  | pingInterval => "pingInterval"
  | bufferSize => "bufferSize"
  | amfVersion => "amfVersion"
  | listenMode => "listenMode"
  | queueCapacity => "queueCapacity"
  | codec => "codec"

/-- A second name, where a field has one. -/
def otherName? : EndpointField → Option String
  | role => some "type"
  | addresses => some "address"
  | metadataBlacklist => some "metaDataBlacklist"
  | _ => none

def all : List EndpointField :=
  [applicationName, streamName, role, direction, addresses, video, audio, data,
    metadataBlacklist, connectionTimeout, reconnectInterval, reconnectCount, pingInterval,
    bufferSize, amfVersion, listenMode, queueCapacity, codec]

/-- The field that a key names. -/
def ofKey? (key : String) : Option EndpointField :=
  all.find? fun field => field.name == key || field.otherName? == some key

end EndpointField

/-- What an endpoint says about one of its fields. -/
inductive EndpointSetting where
  | applicationName (name : String)
  | streamName (name : String)
  | role (role : ConnectionRole)
  | direction (direction : Direction)
  | addresses (addresses : List AddressConfig)
  | video (enabled : Bool)
  | audio (enabled : Bool)
  | data (enabled : Bool)
  | metadataBlacklist (keys : List String)
  | connectionTimeout (seconds : Single)
  | reconnectInterval (seconds : Single)
  | reconnectCount (count : Nat)
  | pingInterval (seconds : Single)
  | bufferSize (size : Nat)
  | amfVersion (version : Option AmfVersion)
  | listenMode (mode : ListenMode)
  | queueCapacity (capacity : Nat)
  | codec (codec : CodecKind)
  deriving DecidableEq

namespace EndpointSetting

/-- Reads the value of a field. -/
def decode (path : Path) (field : EndpointField) (node : Node) : Decoder EndpointSetting :=
  match field with
  | .applicationName => applicationName <$> decodeText path node
  | .streamName => streamName <$> decodeText path node
  | .role => role <$> decodeRole path node
  | .direction => direction <$> decodeDirection path node
  | .addresses => addresses <$> AddressConfig.decodeList path node
  | .video => video <$> node.decodeBool path
  | .audio => audio <$> node.decodeBool path
  | .data => data <$> node.decodeBool path
  | .metadataBlacklist => metadataBlacklist <$> node.decodeList path decodeText
  | .connectionTimeout => connectionTimeout <$> decodeSeconds path node
  | .reconnectInterval => reconnectInterval <$> decodeSeconds path node
  | .reconnectCount => reconnectCount <$> decodeU32 path node
  | .pingInterval => pingInterval <$> decodeSeconds path node
  | .bufferSize => bufferSize <$> decodeU32 path node
  | .amfVersion => amfVersion <$> node.decodeOption (decodeAmfVersion path)
  | .listenMode => listenMode <$> decodeListenMode path node
  | .queueCapacity => queueCapacity <$> node.decodeUnsigned path 64 "usize"
  | .codec => codec <$> decodeCodec path node

/-- The endpoint with the field set as the setting says. -/
def apply (config : EndpointConfig) : EndpointSetting → EndpointConfig
  | applicationName name => { config with applicationName := name }
  | streamName name => { config with streamName := name }
  | role value => { config with role := value }
  | direction value => { config with direction := value }
  | addresses value => { config with addresses := value }
  | video enabled => { config with video := enabled }
  | audio enabled => { config with audio := enabled }
  | data enabled => { config with data := enabled }
  | metadataBlacklist keys => { config with metadataBlacklist := keys }
  | connectionTimeout seconds => { config with connectionTimeout := seconds }
  | reconnectInterval seconds => { config with reconnectInterval := seconds }
  | reconnectCount count => { config with reconnectCount := count }
  | pingInterval seconds => { config with pingInterval := seconds }
  | bufferSize size => { config with bufferSize := size }
  | amfVersion version => { config with amfVersion := version }
  | listenMode mode => { config with listenMode := mode }
  | queueCapacity capacity => { config with queueCapacity := capacity }
  | codec value => { config with codec := value }

def role? : EndpointSetting → Option ConnectionRole
  | role value => some value
  | _ => none

def direction? : EndpointSetting → Option Direction
  | direction value => some value
  | _ => none

def addresses? : EndpointSetting → Option (List AddressConfig)
  | addresses value => some value
  | _ => none

end EndpointSetting

namespace EndpointConfig

/-- The endpoint that settings describe. Role, direction and addresses have no default. -/
def ofSettings (settings : List EndpointSetting) : Except Problem EndpointConfig :=
  match settings.findSome? (·.role?), settings.findSome? (·.direction?),
      settings.findSome? (·.addresses?) with
  | none, _, _ => .error (.missingField "role")
  | _, none, _ => .error (.missingField "direction")
  | _, _, none => .error (.missingField "addresses")
  | some role, some direction, some addresses =>
      .ok (settings.foldl EndpointSetting.apply { role, direction, addresses })

def decode (path : Path) (node : Node) : Decoder EndpointConfig :=
  node.decodeRecord path "struct EndpointConfig" EndpointField.ofKey? EndpointField.name
    EndpointSetting.decode ofSettings

end EndpointConfig

/-- The field of a server. -/
inductive ServerField where
  | endpoints
  deriving DecidableEq

namespace ServerField

def name : ServerField → String
  | endpoints => "endpoints"

def ofKey? (key : String) : Option ServerField :=
  if key == "endpoints" then some endpoints else none

end ServerField

namespace ServerConfig

/-- A server is given by its list of endpoints. -/
def decode (path : Path) (node : Node) : Decoder ServerConfig :=
  node.decodeRecord path "struct ServerConfig" ServerField.ofKey? ServerField.name
    (fun path _ node => node.decodeList path EndpointConfig.decode)
    (fun settings => .ok { endpoints := settings.head?.getD [] })

end ServerConfig

/-- The fields of the logging configuration. -/
inductive LogField where
  | level
  | syslogIdent
  | syslogFacility
  deriving DecidableEq

namespace LogField

def name : LogField → String
  | level => "level"
  | syslogIdent => "syslogIdent"
  | syslogFacility => "syslogFacility"

def all : List LogField := [level, syslogIdent, syslogFacility]

def ofKey? (key : String) : Option LogField := all.find? (·.name == key)

end LogField

/-- What the logging configuration says about one of its fields. -/
inductive LogSetting where
  | level (level : Nat)
  | syslogIdent (ident : Option String)
  | syslogFacility (facility : Option String)
  deriving DecidableEq

namespace LogSetting

def decode (path : Path) (field : LogField) (node : Node) : Decoder LogSetting :=
  match field with
  | .level => level <$> decodeU32 path node
  | .syslogIdent => syslogIdent <$> node.decodeOption (decodeText path)
  | .syslogFacility => syslogFacility <$> node.decodeOption (decodeText path)

def apply (config : LogConfig) : LogSetting → LogConfig
  | level value => { config with level := value }
  | syslogIdent ident => { config with syslogIdent := ident }
  | syslogFacility facility => { config with syslogFacility := facility }

end LogSetting

def LogConfig.decode (path : Path) (node : Node) : Decoder LogConfig :=
  node.decodeRecord path "struct LogConfig" LogField.ofKey? LogField.name LogSetting.decode
    (fun settings => .ok (settings.foldl LogSetting.apply {}))

/-- The field of the status page. -/
inductive StatusPageField where
  | address
  deriving DecidableEq

namespace StatusPageField

def name : StatusPageField → String
  | address => "address"

def ofKey? (key : String) : Option StatusPageField :=
  if key == "address" then some address else none

end StatusPageField

def StatusPageConfig.decode (path : Path) (node : Node) : Decoder StatusPageConfig :=
  node.decodeRecord path "struct StatusPageConfig" StatusPageField.ofKey? StatusPageField.name
    (fun path _ node => node.decodeOption (decodeText path))
    (fun settings => .ok { address := settings.head?.getD none })

/-- The fields of a configuration. -/
inductive ConfigField where
  | log
  | statusPage
  | timeout
  | servers
  deriving DecidableEq

namespace ConfigField

def name : ConfigField → String
  | log => "log"
  | statusPage => "statusPage"
  | timeout => "timeout"
  | servers => "servers"

def all : List ConfigField := [log, statusPage, timeout, servers]

def ofKey? (key : String) : Option ConfigField := all.find? (·.name == key)

end ConfigField

/-- What a configuration says about one of its fields. -/
inductive ConfigSetting where
  | log (log : LogConfig)
  | statusPage (page : StatusPageConfig)
  | timeout (seconds : Option Single)
  | servers (servers : List ServerConfig)
  deriving DecidableEq

namespace ConfigSetting

def decode (path : Path) (field : ConfigField) (node : Node) : Decoder ConfigSetting :=
  match field with
  | .log => log <$> LogConfig.decode path node
  | .statusPage => statusPage <$> StatusPageConfig.decode path node
  | .timeout => timeout <$> node.decodeOption (decodeSeconds path)
  | .servers => servers <$> node.decodeList path ServerConfig.decode

def apply (config : Config) : ConfigSetting → Config
  | log value => { config with log := value }
  | statusPage page => { config with statusPage := page }
  | timeout seconds => { config with timeout := seconds }
  | servers value => { config with servers := value }

end ConfigSetting

namespace Config

def decode (path : Path) (node : Node) : Decoder Config :=
  node.decodeRecord path "struct Config" ConfigField.ofKey? ConfigField.name
    ConfigSetting.decode (fun settings => .ok (settings.foldl ConfigSetting.apply {}))

/-- The configuration that a text holds, valid or not. -/
def ofText (text : String) : Except Yaml.DocumentError Config :=
  match Yaml.Document.ofText? text with
  | none => .error .malformed
  | some document => document.decode (decode .root)

end Config

end LiveRelay
