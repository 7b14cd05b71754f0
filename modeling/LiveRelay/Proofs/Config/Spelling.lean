import LiveRelay.Proofs.Config.Reading

/-! # Spellings of a configuration

The same configuration can be written down in many ways: with the entries of a record in another
order, with a field under another of its names, with one address or a list of one, and with
entries beside it that nobody reads. Each change of that kind, anywhere in the document, leaves
the configuration as it is. A record that says two things of one field is no spelling of
anything, and neither is the document around it.
-/

namespace LiveRelay

open Yaml (Document Node)
open Yaml.Decoder (value?)
open Yaml.Node (field? IsPassedOver ItemRespelled HasItem Says SaysTwice ReadsAlike)

variable {node other : Node}

/-! ## One change anywhere -/

/-- An endpoint is spelled in another way, in its own entries or in its addresses. -/
def EndpointConfig.Respelled : Node → Node → Prop :=
  Node.Respelled (field? EndpointField.ofKey?) (IsPassedOver EndpointField.ofKey?)
    fun field value other => field = .addresses ∧ AddressConfig.ListRespelled value other

/-- A server is spelled in another way, in its own entries or in an endpoint. -/
def ServerConfig.Respelled : Node → Node → Prop :=
  Node.Respelled (field? ServerField.ofKey?) (IsPassedOver ServerField.ofKey?)
    fun _ => ItemRespelled EndpointConfig.Respelled

def LogConfig.Respelled : Node → Node → Prop :=
  Node.Respelled (field? LogField.ofKey?) (IsPassedOver LogField.ofKey?) fun _ _ _ => False

def StatusPageConfig.Respelled : Node → Node → Prop :=
  Node.Respelled (field? StatusPageField.ofKey?) (IsPassedOver StatusPageField.ofKey?)
    fun _ _ _ => False

/-- A configuration is spelled in another way, in its own entries or in one of its parts. -/
def Config.Respelled : Node → Node → Prop :=
  Node.Respelled (field? ConfigField.ofKey?) (IsPassedOver ConfigField.ofKey?) fun
    | .log => LogConfig.Respelled
    | .statusPage => StatusPageConfig.Respelled
    | .timeout => fun _ _ => False
    | .servers => ItemRespelled ServerConfig.Respelled

theorem EndpointConfig.Respelled.readsAlike (h : EndpointConfig.Respelled node other) :
    ReadsAlike EndpointConfig.decode node other := by
  refine Node.Respelled.readsAlike h EndpointConfig.readsFields ?_
  rintro _ value other ⟨rfl, haddresses⟩
  exact haddresses.readsAlike.map EndpointSetting.addresses

theorem ServerConfig.Respelled.readsAlike (h : ServerConfig.Respelled node other) :
    ReadsAlike ServerConfig.decode node other := by
  refine Node.Respelled.readsAlike h ServerConfig.readsFields ?_
  intro _ value other hendpoints
  exact hendpoints.readsAlike (fun _ _ => EndpointConfig.Respelled.readsAlike)
    fun _ => EndpointConfig.settles_decode

theorem LogConfig.Respelled.readsAlike (h : LogConfig.Respelled node other) :
    ReadsAlike LogConfig.decode node other :=
  Node.Respelled.readsAlike h LogConfig.readsFields fun _ _ _ => False.elim

theorem StatusPageConfig.Respelled.readsAlike (h : StatusPageConfig.Respelled node other) :
    ReadsAlike StatusPageConfig.decode node other :=
  Node.Respelled.readsAlike h StatusPageConfig.readsFields fun _ _ _ => False.elim

theorem Config.Respelled.readsAlike (h : Config.Respelled node other) :
    ReadsAlike Config.decode node other := by
  refine Node.Respelled.readsAlike h Config.readsFields fun field value other hvalue => ?_
  cases field with
  | log => exact (LogConfig.Respelled.readsAlike hvalue).map ConfigSetting.log
  | statusPage => exact (StatusPageConfig.Respelled.readsAlike hvalue).map ConfigSetting.statusPage
  | timeout => exact hvalue.elim
  | servers =>
      have hservers := hvalue.readsAlike (fun _ _ => ServerConfig.Respelled.readsAlike)
        fun _ => ServerConfig.settles_decode
      exact hservers.map ConfigSetting.servers

/-! ## Saying things twice -/

namespace Config

/-- The node stands in the place of an endpoint of the configuration. -/
inductive HasEndpoint (root : Node) : Node → Prop
  | intro {servers server endpoints endpoint : Node}
      (hservers : Says (field? ConfigField.ofKey?) .servers root servers)
      (hserver : HasItem servers server)
      (hendpoints : Says (field? ServerField.ofKey?) .endpoints server endpoints)
      (hendpoint : HasItem endpoints endpoint) : HasEndpoint root endpoint

/-- The node stands in the place of an address entry of the configuration. -/
inductive HasAddress (root : Node) : Node → Prop
  | intro {endpoint addresses entry : Node} (hendpoint : HasEndpoint root endpoint)
      (haddresses : Says (field? EndpointField.ofKey?) .addresses endpoint addresses)
      (hentry : AddressConfig.HasEntry addresses entry) : HasAddress root entry

/-- An endpoint or an address entry says two things of one field. -/
inductive SaysTwice (root : Node) : Prop
  | endpoint {node : Node} (hnode : HasEndpoint root node)
      (htwice : Node.SaysTwice (field? EndpointField.ofKey?) node) : SaysTwice root
  | address {node : Node} (hnode : HasAddress root node)
      (htwice : Node.SaysTwice AddressField.ofNode? node) : SaysTwice root

theorem HasEndpoint.isResolved {root endpoint : Node} (h : HasEndpoint root endpoint)
    (hroot : root.IsResolved) : endpoint.IsResolved := by
  cases h with
  | intro hservers hserver hendpoints hendpoint =>
      exact hendpoint.isResolved (hendpoints.isResolved
        (hserver.isResolved (hservers.isResolved hroot)))

/-- When a configuration is read, each of its endpoints is. -/
theorem HasEndpoint.exists_value {root endpoint : Node} (h : HasEndpoint root endpoint)
    (hroot : root.IsResolved) {config : Config} (hconfig : value? (decode · root) = some config) :
    ∃ found, value? (EndpointConfig.decode · endpoint) = some found := by
  cases h with
  | intro hservers hserver hendpoints hendpoint =>
      have hservers' := hservers.isResolved hroot
      have hserver' := hserver.isResolved hservers'
      have hendpoints' := hendpoints.isResolved hserver'
      obtain ⟨setting, hsetting⟩ := hservers.exists_setting readsFields hroot hconfig
      obtain ⟨servers, hread, -⟩ := Node.value?_map_eq_some_iff.mp hsetting
      obtain ⟨server, hfound⟩ :=
        hserver.exists_value (fun _ => ServerConfig.settles_decode) hservers' hread
      obtain ⟨endpoints, hread⟩ :=
        hendpoints.exists_setting ServerConfig.readsFields hserver' hfound
      exact hendpoint.exists_value (fun _ => EndpointConfig.settles_decode) hendpoints' hread

/-- Where an endpoint or an address entry says two things of one field, nothing is read. -/
theorem SaysTwice.value?_decode {root : Node} (h : SaysTwice root) (hroot : root.IsResolved) :
    value? (decode · root) = none := by
  rw [Option.eq_none_iff_forall_ne_some]
  intro config hconfig
  cases h with
  | @endpoint node hnode htwice =>
      obtain ⟨found, hfound⟩ := hnode.exists_value hroot hconfig
      have hnone : value? (EndpointConfig.decode · node) = none :=
        htwice.value?_decodeRecord EndpointConfig.readsFields (hnode.isResolved hroot)
      cases hnone.symm.trans hfound
  | address hnode htwice =>
      cases hnode with
      | intro hendpoint haddresses hentry =>
          have hresolved := hendpoint.isResolved hroot
          obtain ⟨found, hfound⟩ := hendpoint.exists_value hroot hconfig
          obtain ⟨setting, hsetting⟩ :=
            haddresses.exists_setting EndpointConfig.readsFields hresolved hfound
          obtain ⟨entries, hread, -⟩ := Node.value?_map_eq_some_iff.mp hsetting
          have hnone := hentry.value?_decodeList htwice (haddresses.isResolved hresolved)
          cases hnone.symm.trans hread

/-- A document without aliases and tags can be spelled in another way at any place, and the
configuration stays the same. No configuration is had where an endpoint or an address entry says
two things of one field. -/
theorem decode_of_respelled (document : Document) (hroot : document.root.IsResolved) :
    (∀ other : Document, Respelled document.root other.root → ∀ config,
        document.decode (decode .root) = .ok config → other.decode (decode .root) = .ok config) ∧
      (SaysTwice document.root → ∀ config, document.decode (decode .root) ≠ .ok config) := by
  constructor
  · intro other hother config hconfig
    have halike := Respelled.readsAlike hother
    rw [Document.decode_eq_ok_iff (settles_decode hroot)] at hconfig
    rw [Document.decode_eq_ok_iff (settles_decode (halike.isResolved hroot))]
    exact halike.value?_eq hroot config hconfig
  · intro htwice config hconfig
    rw [Document.decode_eq_ok_iff (settles_decode hroot), htwice.value?_decode hroot] at hconfig
    cases hconfig

/-! ## Documents of one endpoint -/

/-- A plain scalar. -/
def word (text : String) : Node := .scalar none .plain text

/-- An endpoint that calls, where these entries give its addresses. -/
def caller (entries : List (Node × Node)) : Node :=
  .mapping none ((word "role", word "client") :: (word "direction", word "output") :: entries)

/-- The document of this endpoint. -/
def calling (entries : List (Node × Node)) : Document where
  root := .mapping none [(word "servers", .sequence none
    [.mapping none [(word "endpoints", .sequence none [caller entries])]])]
  size := 0

theorem hasEndpoint_calling (entries : List (Node × Node)) :
    HasEndpoint (calling entries).root (caller entries) :=
  .intro (.intro (.head _) (by decide +kernel)) (.intro (.head _))
    (.intro (.head _) (by decide +kernel)) (.intro (.head _))

theorem respelled_calling {entries others : List (Node × Node)}
    (h : EndpointConfig.Respelled (caller entries) (caller others)) :
    Respelled (calling entries).root (calling others).root := by
  have hendpoints : field? ServerField.ofKey? (word "endpoints") = some .endpoints := by
    decide +kernel
  have hservers : field? ConfigField.ofKey? (word "servers") = some .servers := by decide +kernel
  exact .changed [] [] hservers (.intro [] [] (.changed [] [] hendpoints (.intro [] [] h)))

/-- An address entry with these entries beside the address. -/
def addressWith (entries : List (Node × Node)) : Node :=
  .mapping none ((word "address", word "a:1") :: entries)

/-- The configuration of one endpoint that calls. -/
def callingConfig (addresses : List AddressConfig) : Config where
  servers := [⟨[{ role := .client, direction := .output, addresses }]⟩]

/-- An endpoint whose only address has a role of its own, under the name `name`. -/
def hosting (name : String) : Document :=
  calling [(word "addresses", addressWith [(word name, word "host")])]

/-- An endpoint that has two roles, under two names. -/
def torn : Document := calling [(word "type", word "host"), (word "addresses", word "a:1")]

theorem isResolved_hosting : (hosting "role").root.IsResolved := by
  simp [hosting, calling, caller, addressWith, word]

theorem isResolved_torn : torn.root.IsResolved := by
  simp [torn, calling, caller, word]

theorem respelled_hosting : Respelled (hosting "role").root (hosting "type").root := by
  have hrole : AddressField.ofNode? (word "role") = some .role := by decide +kernel
  have htype : AddressField.ofNode? (word "type") = some .role := by decide +kernel
  have haddresses : field? EndpointField.ofKey? (word "addresses") = some .addresses := by
    decide +kernel
  exact respelled_calling
    (.changed [_, _] [] haddresses ⟨rfl, .entry (.renamed [_] [] hrole htype)⟩)

theorem saysTwice_torn : SaysTwice torn.root := by
  have hrole : field? EndpointField.ofKey? (word "role") = some .role := by decide +kernel
  have htype : field? EndpointField.ofKey? (word "type") = some .role := by decide +kernel
  exact .endpoint (hasEndpoint_calling _) (.intro [] [_] [_] hrole htype)

theorem decode_of_respelled_hosting :
    ((hosting "role").root.IsResolved ∧ Respelled (hosting "role").root (hosting "type").root ∧
        (hosting "role").decode (decode .root) =
          .ok (callingConfig [.detailed "a:1" (some .host) none]) ∧
        (hosting "type").decode (decode .root) =
          .ok (callingConfig [.detailed "a:1" (some .host) none])) ∧
      torn.root.IsResolved ∧ SaysTwice torn.root ∧
        torn.decode (decode .root) ≠ .ok (callingConfig [.plain "a:1"]) := by
  have hread : (hosting "role").decode (decode .root) =
      .ok (callingConfig [.detailed "a:1" (some .host) none]) := by decide +kernel
  exact ⟨⟨isResolved_hosting, respelled_hosting, hread,
      (decode_of_respelled _ isResolved_hosting).1 _ respelled_hosting _ hread⟩,
    isResolved_torn, saysTwice_torn, (decode_of_respelled _ isResolved_torn).2 saysTwice_torn _⟩

/-- A text in this many lists. -/
def nested : (depth : Nat) → Node
  | 0 => word "deep"
  | depth + 1 => .sequence none [nested depth]

/-- An entry that nobody reads still has to be a content: the same address entry is refused with
an integer beyond 64 bits beside the address, and with a list around it where there is no room
for one more collection. -/
theorem decode_refuses_content :
    AddressField.ofKey? (.text "note") = some none ∧
      (calling [(word "addresses", addressWith [])]).decode (decode .root) =
        .ok (callingConfig [.detailed "a:1" none none]) ∧
      ((calling [(word "addresses", addressWith
        [(word "note", word "18446744073709551616")])]).decode (decode .root)).toOption = none ∧
      (calling [(word "addresses", addressWith [(word "note", nested 122)])]).decode
        (decode .root) = .ok (callingConfig [.detailed "a:1" none none]) ∧
      (calling [(word "addresses", .sequence none
        [addressWith [(word "note", nested 122)]])]).decode (decode .root) =
        .error .tooDeep := by
  decide +kernel

end Config

end LiveRelay
