import LiveRelay.Proofs.Config.Settings

/-! # The addresses that hosts listen on

The checks go through the hosts one by one and remember the addresses that are taken. They
find nothing as long as the addresses are distinct and free, and the first host that they
find is one whose address is taken already, by a host before it in the same endpoint or in
an earlier one.
-/

namespace LiveRelay

namespace EndpointConfig

/-- The address that an entry claims: that of a host, unless a free port is chosen for it. -/
def listenKey? (config : EndpointConfig) (entry : AddressConfig) : Option ListenKey :=
  let key := ListenKey.ofAddress entry.address
  if config.roleOf entry = .host ∧ !key.isEphemeral then some key else none

/-- The addresses that the endpoint claims, in the order of its entries. -/
def listenKeys (config : EndpointConfig) : List ListenKey :=
  config.addresses.filterMap config.listenKey?

end EndpointConfig

/-! ## Checks that go through a list -/

namespace Config

section Scan

variable {State Item Fault : Type} (found : State → Item → List Fault)
  (next : State → Item → State)

/-- What a check finds that goes through a list and remembers what it has seen. -/
def scan : State → List Item → List Fault
  | _, [] => []
  | state, item :: items => found state item ++ scan (next state item) items

variable {found next}

/-- The first that is found is found at some item, and nothing is found before it. -/
theorem head_scan_iff {state : State} {items : List Item} {fault : Fault} :
    (scan found next state items).head? = some fault ↔
      ∃ first item rest, items = first ++ item :: rest ∧ scan found next state first = [] ∧
        (found (first.foldl next state) item).head? = some fault := by
  induction items generalizing state with
  | nil => simp [scan]
  | cons item items ih =>
      rw [scan, List.head?_append, Option.or_eq_some_iff, ih]
      constructor
      · rintro (hhere | ⟨hnone, first, other, rest, rfl, hnil, hthere⟩)
        · exact ⟨[], item, items, rfl, rfl, hhere⟩
        · refine ⟨item :: first, other, rest, rfl, ?_, hthere⟩
          rw [scan, List.head?_eq_none_iff.mp hnone, hnil, List.nil_append]
      · rintro ⟨first, other, rest, hitems, hnil, hfound⟩
        cases first with
        | nil =>
            obtain ⟨rfl, rfl⟩ := List.cons_eq_cons.mp hitems
            exact .inl hfound
        | cons head first =>
            obtain ⟨rfl, rfl⟩ := List.cons_eq_cons.mp hitems
            obtain ⟨hhere, hnil⟩ := List.append_eq_nil_iff.mp hnil
            exact .inr ⟨by rw [hhere]; rfl, first, other, rest, rfl, hnil, hfound⟩

/-- What is remembered, when every item adds what is its own. -/
theorem mem_foldl_iff {Key : Type} {next : List Key → Item → List Key}
    {keys : Item → List Key}
    (hnext : ∀ taken item key, key ∈ next taken item ↔ key ∈ taken ∨ key ∈ keys item)
    {taken : List Key} {items : List Item} {key : Key} :
    key ∈ items.foldl next taken ↔ key ∈ taken ∨ key ∈ items.flatMap keys := by
  induction items generalizing taken with
  | nil => simp
  | cons item items ih =>
      rw [List.foldl_cons, ih, hnext, List.flatMap_cons, List.mem_append, or_assoc]

end Scan

/-! ## The hosts of one endpoint -/

/-- The check of one connection against the addresses that are taken. -/
def clash (server : Nat) (taken : List ListenKey) (connection : ConnectionConfig) :
    List ConfigFault :=
  match connection.listenKey? with
  | none => []
  | some key => if key ∈ taken then [.sharedAddress server connection.address] else []

/-- The addresses that are taken after it. -/
def takenAfter (taken : List ListenKey) (connection : ConnectionConfig) : List ListenKey :=
  match connection.listenKey? with
  | none => taken
  | some key => if key ∈ taken then taken else key :: taken

theorem clashes_eq_scan (server : Nat) (taken : List ListenKey)
    (connections : List ConnectionConfig) :
    clashes server taken connections = scan (clash server) takenAfter taken connections := by
  induction connections generalizing taken with
  | nil => rfl
  | cons connection connections ih =>
      rw [clashes, scan, clash, takenAfter]
      cases connection.listenKey? with
      | none => exact ih taken
      | some key =>
          dsimp only
          split_ifs
          · rw [ih]
            rfl
          · exact ih (key :: taken)

theorem mem_takenAfter (taken : List ListenKey) (connection : ConnectionConfig)
    (key : ListenKey) :
    key ∈ takenAfter taken connection ↔
      key ∈ taken ∨ key ∈ connection.listenKey?.toList := by
  unfold takenAfter
  split
  next hnone => simp [hnone]
  next other hother =>
    rw [hother]
    split_ifs with htaken
    · simp only [Option.toList_some, List.mem_singleton]
      constructor
      · exact .inl
      · rintro (hmem | rfl)
        · exact hmem
        · exact htaken
    · rw [Option.toList_some, List.mem_singleton, List.mem_cons]
      exact or_comm

/-- The connections of an endpoint clash with none before them exactly when the addresses
that they claim are distinct and free. -/
theorem clashes_eq_nil_iff {server : Nat} {taken : List ListenKey}
    {connections : List ConnectionConfig} :
    clashes server taken connections = [] ↔
      (connections.filterMap (·.listenKey?)).Nodup ∧
        ∀ key ∈ connections.filterMap (·.listenKey?), key ∉ taken := by
  induction connections generalizing taken with
  | nil => simp [clashes]
  | cons connection connections ih =>
      unfold clashes
      split
      next hnone => rw [ih, List.filterMap_cons_none hnone]
      next key hkey =>
        rw [List.filterMap_cons_some hkey, List.nodup_cons]
        split_ifs with htaken
        · simp [htaken]
        · rw [ih]
          simp only [List.mem_cons, not_or, forall_eq_or_imp]
          constructor
          · rintro ⟨hnodup, hfree⟩
            exact ⟨⟨fun hmem => (hfree key hmem).1 rfl, hnodup⟩, htaken,
              fun other hmem => (hfree other hmem).2⟩
          · rintro ⟨⟨hnew, hnodup⟩, -, hfree⟩
            refine ⟨hnodup, fun other hmem => ⟨?_, hfree other hmem⟩⟩
            rintro rfl
            exact hnew hmem

/-- It only matters which addresses are taken. -/
theorem clashes_congr {server : Nat} {taken taken' : List ListenKey}
    (h : ∀ key, key ∈ taken ↔ key ∈ taken') (connections : List ConnectionConfig) :
    clashes server taken connections = clashes server taken' connections := by
  induction connections generalizing taken taken' with
  | nil => rfl
  | cons connection connections ih =>
      rw [clashes, clashes]
      cases connection.listenKey? with
      | none => exact ih h
      | some key =>
          have hcons : ∀ other, other ∈ key :: taken ↔ other ∈ key :: taken' := by
            intro other
            rw [List.mem_cons, List.mem_cons, h]
          simp only [h, ih h, ih hcons]

theorem head_clash_iff {server : Nat} {taken : List ListenKey} {connection : ConnectionConfig}
    {fault : ConfigFault} :
    (clash server taken connection).head? = some fault ↔
      ∃ key, connection.listenKey? = some key ∧ key ∈ taken ∧
        fault = .sharedAddress server connection.address := by
  unfold clash
  split
  next hnone => simp [hnone]
  next key hkey =>
    split_ifs with htaken
    · simp [hkey, htaken, eq_comm]
    · simp [hkey, htaken]

end Config

namespace EndpointConfig

theorem filterMap_mapIdx (config : EndpointConfig) (entries : List AddressConfig)
    (start : Nat) :
    (entries.mapIdx fun index entry => config.connection entry (index + start)).filterMap
      (·.listenKey?) = entries.filterMap config.listenKey? := by
  induction entries generalizing start with
  | nil => rfl
  | cons entry entries ih =>
      rw [List.mapIdx_cons, List.filterMap_cons, List.filterMap_cons]
      have hrest := ih (start + 1)
      simp only [← Nat.add_assoc, Nat.add_right_comm _ start 1] at hrest
      rw [hrest]
      rfl

/-- The connections of an endpoint claim what its entries say. -/
theorem filterMap_connections (config : EndpointConfig) :
    config.connections.filterMap (·.listenKey?) = config.listenKeys :=
  config.filterMap_mapIdx config.addresses 0

/-- The connections before one are those of the entries before its own. -/
theorem connections_eq_append_iff {config : EndpointConfig} {first rest : List ConnectionConfig}
    {connection : ConnectionConfig} :
    config.connections = first ++ connection :: rest ↔
      ∃ entries entry others, config.addresses = entries ++ entry :: others ∧
        first = entries.mapIdx (fun index entry => config.connection entry index) ∧
        connection = config.connection entry entries.length ∧
        rest = others.mapIdx fun index entry =>
          config.connection entry (index + 1 + entries.length) := by
  rw [connections, List.mapIdx_eq_append_iff]
  constructor
  · rintro ⟨entries, tail, haddresses, hfirst, htail⟩
    obtain ⟨entry, others, rfl, hentry, hrest⟩ := List.mapIdx_eq_cons_iff.mp htail
    exact ⟨entries, entry, others, haddresses, hfirst.symm,
      by rw [← hentry, Nat.zero_add], hrest.symm⟩
  · rintro ⟨entries, entry, others, haddresses, rfl, rfl, rfl⟩
    refine ⟨entries, entry :: others, haddresses, rfl, ?_⟩
    rw [List.mapIdx_cons, Nat.zero_add]

/-- The first host of an endpoint that listens where another does. -/
theorem head_clashes_iff (config : EndpointConfig) {server : Nat} {taken : List ListenKey}
    {fault : ConfigFault} :
    (Config.clashes server taken config.connections).head? = some fault ↔
      ∃ first entry rest key, config.addresses = first ++ entry :: rest ∧
        (first.filterMap config.listenKey?).Nodup ∧
        (∀ other ∈ first.filterMap config.listenKey?, other ∉ taken) ∧
        config.listenKey? entry = some key ∧
        (key ∈ taken ∨ key ∈ first.filterMap config.listenKey?) ∧
        fault = .sharedAddress server entry.address := by
  rw [Config.clashes_eq_scan, Config.head_scan_iff]
  constructor
  · rintro ⟨first, connection, rest, hconnections, hnil, hfound⟩
    obtain ⟨entries, entry, others, haddresses, rfl, rfl, rfl⟩ :=
      connections_eq_append_iff.mp hconnections
    obtain ⟨key, hkey, htaken, rfl⟩ := Config.head_clash_iff.mp hfound
    rw [← Config.clashes_eq_scan, Config.clashes_eq_nil_iff] at hnil
    rw [Config.mem_foldl_iff Config.mem_takenAfter, ← List.filterMap_eq_flatMap_toList] at htaken
    have hkeys := config.filterMap_mapIdx entries 0
    simp only [Nat.add_zero] at hkeys
    rw [hkeys] at hnil htaken
    exact ⟨entries, entry, others, key, haddresses, hnil.1, hnil.2, hkey, htaken, rfl⟩
  · rintro ⟨entries, entry, others, key, haddresses, hnodup, hfree, hkey, htaken, rfl⟩
    have hkeys := config.filterMap_mapIdx entries 0
    simp only [Nat.add_zero] at hkeys
    refine ⟨_, _, _, connections_eq_append_iff.mpr ⟨entries, entry, others, haddresses,
      rfl, rfl, rfl⟩, ?_, ?_⟩
    · rw [← Config.clashes_eq_scan, Config.clashes_eq_nil_iff, hkeys]
      exact ⟨hnodup, hfree⟩
    · apply Config.head_clash_iff.mpr
      refine ⟨key, hkey, ?_, rfl⟩
      rw [Config.mem_foldl_iff Config.mem_takenAfter, ← List.filterMap_eq_flatMap_toList, hkeys]
      exact htaken

end EndpointConfig

end LiveRelay
