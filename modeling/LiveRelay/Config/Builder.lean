import LiveRelay.Config.Basic

/-! # Composing the configuration of an endpoint

Each function sets one part of an endpoint and leaves the others as they are.
-/

namespace LiveRelay.EndpointConfig

def withStream (config : EndpointConfig) (application stream : String) : EndpointConfig :=
  { config with applicationName := application, streamName := stream }

def addAddress (config : EndpointConfig) (entry : AddressConfig) : EndpointConfig :=
  { config with addresses := config.addresses ++ [entry] }

def withVideo (config : EndpointConfig) (enabled : Bool) : EndpointConfig :=
  { config with video := enabled }

def withAudio (config : EndpointConfig) (enabled : Bool) : EndpointConfig :=
  { config with audio := enabled }

def withData (config : EndpointConfig) (enabled : Bool) : EndpointConfig :=
  { config with data := enabled }

/-- Adds a key of data frames that are not relayed. -/
def addBlacklisted (config : EndpointConfig) (key : String) : EndpointConfig :=
  { config with metadataBlacklist := config.metadataBlacklist ++ [key] }

def withConnectionTimeout (config : EndpointConfig) (span : Duration) : EndpointConfig :=
  { config with connectionTimeout := span.toSeconds }

def withReconnectInterval (config : EndpointConfig) (span : Duration) : EndpointConfig :=
  { config with reconnectInterval := span.toSeconds }

def withReconnectCount (config : EndpointConfig) (count : Nat) : EndpointConfig :=
  { config with reconnectCount := count }

def withBufferSize (config : EndpointConfig) (size : Nat) : EndpointConfig :=
  { config with bufferSize := size }

def withQueueCapacity (config : EndpointConfig) (capacity : Nat) : EndpointConfig :=
  { config with queueCapacity := capacity }

def withListenMode (config : EndpointConfig) (mode : ListenMode) : EndpointConfig :=
  { config with listenMode := mode }

def withCodec (config : EndpointConfig) (codec : CodecKind) : EndpointConfig :=
  { config with codec := codec }

end LiveRelay.EndpointConfig
