import LiveRelay.Proofs.Config.Hosts

/-! # Which configurations are valid, and what is wrong with the others

What a valid configuration is can be said without an order: the settings of every endpoint
are in range, and no two hosts anywhere in the tree listen on the same address. The checks
have an order, and a configuration is refused for what they come across first. The part of
the tree that they have been through by then is a configuration too, and a valid one.
-/

namespace LiveRelay

namespace Config

variable {config : Config}

/-- The addresses that the hosts of a tree listen on, in the order of the tree. -/
def listenKeys (config : Config) : List ListenKey :=
  config.servers.flatMap fun server => server.endpoints.flatMap EndpointConfig.listenKeys

/-- Whether a relay can be built from the configuration. -/
structure IsBuildable (config : Config) : Prop where
  timeout : ∀ seconds ∈ config.timeout, seconds.IsPositiveSpan
  endpoints : ∀ server ∈ config.servers, ∀ endpoint ∈ server.endpoints, endpoint.IsBuildable
  /-- No two hosts listen on the same address. -/
  listenKeys : config.listenKeys.Nodup

/-- The part of a tree that lies before an endpoint: some servers, and of the next one the
endpoints `earlier`. -/
def upTo (config : Config) (before : List ServerConfig) (earlier : List EndpointConfig) :
    Config :=
  { config with servers := before ++ [⟨earlier⟩] }

/-- What is wrong with a configuration of which everything before is right. -/
inductive FirstFault (config : Config) : ConfigFault → Prop
  | timeout {seconds : Single} (htimeout : config.timeout = some seconds)
      (hspan : ¬ seconds.IsPositiveSpan) : FirstFault config .timeout
  /-- An endpoint has a fault of its own. -/
  | endpoint {before after : List ServerConfig} {earlier later : List EndpointConfig}
      {endpoint : EndpointConfig} {fault : EndpointFault}
      (hservers : config.servers = before ++ ⟨earlier ++ endpoint :: later⟩ :: after)
      (hbefore : (config.upTo before earlier).IsBuildable)
      (hfault : endpoint.FirstFault fault) :
      FirstFault config (.endpoint endpoint.displayName fault)
  /-- The endpoint has none, but one of its hosts listens where another does: one of an
  endpoint before, or one of its own whose entry is among `first`. -/
  | sharedAddress {before after : List ServerConfig} {earlier later : List EndpointConfig}
      {endpoint : EndpointConfig} {first rest : List AddressConfig} {entry : AddressConfig}
      {key : ListenKey}
      (hservers : config.servers = before ++ ⟨earlier ++ endpoint :: later⟩ :: after)
      (hbefore : (config.upTo before earlier).IsBuildable)
      (hendpoint : endpoint.IsBuildable)
      (hentries : endpoint.addresses = first ++ entry :: rest)
      (hdistinct : ((config.upTo before earlier).listenKeys ++
        first.filterMap endpoint.listenKey?).Nodup)
      (hkey : endpoint.listenKey? entry = some key)
      (hshared : key ∈ (config.upTo before earlier).listenKeys ++
        first.filterMap endpoint.listenKey?) :
      FirstFault config (.sharedAddress before.length entry.address)

/-! ### The checks of one endpoint among the others -/

/-- What the checks find at an endpoint, when `taken` are the addresses before it. -/
def placeFaults (taken : List ListenKey) (place : Nat × EndpointConfig) : List ConfigFault :=
  place.2.faults.map (.endpoint place.2.displayName) ++ clashes place.1 taken place.2.connections

/-- The addresses that are taken after it. -/
def takenUpTo (taken : List ListenKey) (place : Nat × EndpointConfig) : List ListenKey :=
  place.2.connections.filterMap (·.listenKey?) ++ taken

theorem endpointFaults_eq_scan (taken : List ListenKey) (places : List (Nat × EndpointConfig)) :
    endpointFaults taken places = scan placeFaults takenUpTo taken places := by
  induction places generalizing taken with
  | nil => rfl
  | cons place places ih =>
      rw [endpointFaults, ih]
      rfl

theorem mem_takenUpTo (taken : List ListenKey) (place : Nat × EndpointConfig)
    (key : ListenKey) :
    key ∈ takenUpTo taken place ↔ key ∈ taken ∨ key ∈ place.2.listenKeys := by
  rw [takenUpTo, EndpointConfig.filterMap_connections, List.mem_append]
  exact or_comm

theorem placeFaults_eq_nil_iff {taken : List ListenKey} {place : Nat × EndpointConfig} :
    placeFaults taken place = [] ↔
      place.2.IsBuildable ∧ place.2.listenKeys.Nodup ∧
        ∀ key ∈ place.2.listenKeys, key ∉ taken := by
  rw [placeFaults, List.append_eq_nil_iff, List.map_eq_nil_iff,
    EndpointConfig.faults_eq_nil_iff, clashes_eq_nil_iff,
    EndpointConfig.filterMap_connections]

/-- Nothing is found among endpoints exactly when each has no fault of its own, and the
addresses of all their hosts are distinct and free. -/
theorem scan_eq_nil_iff {taken : List ListenKey} {places : List (Nat × EndpointConfig)} :
    scan placeFaults takenUpTo taken places = [] ↔
      (∀ place ∈ places, place.2.IsBuildable) ∧
        (places.flatMap (·.2.listenKeys)).Nodup ∧
        ∀ key ∈ places.flatMap (·.2.listenKeys), key ∉ taken := by
  induction places generalizing taken with
  | nil => simp [scan]
  | cons place places ih =>
      rw [scan, List.append_eq_nil_iff, placeFaults_eq_nil_iff, ih, List.flatMap_cons,
        List.nodup_append]
      simp only [List.forall_mem_cons, List.mem_append, mem_takenUpTo, not_or]
      constructor
      · rintro ⟨⟨hplace, hnodup, hfree⟩, hplaces, hrest, hothers⟩
        refine ⟨⟨hplace, hplaces⟩, ⟨hnodup, hrest, ?_⟩, ?_⟩
        · rintro key hkey other hother rfl
          exact (hothers key hother).2 hkey
        · rintro key (hkey | hkey)
          · exact hfree key hkey
          · exact (hothers key hkey).1
      · rintro ⟨⟨hplace, hplaces⟩, ⟨hnodup, hrest, hapart⟩, hfree⟩
        refine ⟨⟨hplace, hnodup, fun key hkey => hfree key (.inl hkey)⟩, hplaces, hrest, ?_⟩
        intro key hkey
        exact ⟨hfree key (.inr hkey), fun hother => hapart key hother key hkey rfl⟩

/-! ### Endpoints by their place in the tree -/

/-- The endpoints of servers that are numbered from `start`. -/
def numbered (start : Nat) : List ServerConfig → List (Nat × EndpointConfig)
  | [] => []
  | server :: servers => server.endpoints.map (start, ·) ++ numbered (start + 1) servers

theorem flatten_mapIdx (servers : List ServerConfig) (start : Nat) :
    (servers.mapIdx fun index server => server.endpoints.map (index + start, ·)).flatten =
      numbered start servers := by
  induction servers generalizing start with
  | nil => rfl
  | cons server servers ih =>
      have hrest := ih (start + 1)
      simp only [← Nat.add_assoc, Nat.add_right_comm _ start 1] at hrest
      rw [List.mapIdx_cons, List.flatten_cons, hrest, Nat.zero_add]
      rfl

theorem endpoints_eq (config : Config) : config.endpoints = numbered 0 config.servers :=
  flatten_mapIdx config.servers 0

theorem numbered_append (start : Nat) (first rest : List ServerConfig) :
    numbered start (first ++ rest) =
      numbered start first ++ numbered (start + first.length) rest := by
  induction first generalizing start with
  | nil => rfl
  | cons server first ih =>
      rw [List.cons_append, numbered, ih, numbered, List.append_assoc, List.length_cons,
        Nat.add_assoc start 1, Nat.add_comm 1]

theorem map_snd_numbered (start : Nat) (servers : List ServerConfig) :
    (numbered start servers).map Prod.snd = servers.flatMap (·.endpoints) := by
  induction servers generalizing start with
  | nil => rfl
  | cons server servers ih =>
      rw [numbered, List.map_append, ih, List.flatMap_cons, List.map_map]
      congr 1
      exact List.map_id _

/-- What lies before an endpoint, and the place of its server. -/
theorem exists_of_numbered {start server : Nat} {servers : List ServerConfig}
    {endpoint : EndpointConfig} {first rest : List (Nat × EndpointConfig)}
    (h : numbered start servers = first ++ (server, endpoint) :: rest) :
    ∃ before earlier later after, servers = before ++ ⟨earlier ++ endpoint :: later⟩ :: after ∧
      server = start + before.length ∧ first = numbered start (before ++ [⟨earlier⟩]) := by
  induction servers generalizing start first with
  | nil => simp [numbered] at h
  | cons head servers ih =>
      rw [numbered] at h
      -- Either the endpoint is one of this server, or of one that follows.
      have hcases : (∃ others, first = head.endpoints.map (start, ·) ++ others ∧
            numbered (start + 1) servers = others ++ (server, endpoint) :: rest) ∨
          ∃ others, head.endpoints.map (start, ·) = first ++ (server, endpoint) :: others := by
        rcases List.append_eq_append_iff.mp h with ⟨others, hfirst, hrest⟩ | ⟨others, hhead, hrest⟩
        · exact .inl ⟨others, hfirst, hrest⟩
        · cases others with
          | nil => exact .inl ⟨[], by simpa using hhead.symm, by simpa using hrest.symm⟩
          | cons other others =>
              rw [List.cons_append, List.cons_eq_cons] at hrest
              rw [← hrest.1] at hhead
              exact .inr ⟨others, hhead⟩
      rcases hcases with ⟨others, rfl, hrest⟩ | ⟨others, hhead⟩
      · obtain ⟨before, earlier, later, after, rfl, rfl, rfl⟩ := ih hrest
        exact ⟨head :: before, earlier, later, after, rfl,
          by rw [List.length_cons]; omega, rfl⟩
      · obtain ⟨earlier, tail, hendpoints, rfl, htail⟩ := List.map_eq_append_iff.mp hhead
        obtain ⟨endpoint', later, rfl, hplace, -⟩ := List.map_eq_cons_iff.mp htail
        obtain ⟨rfl, rfl⟩ := Prod.mk.inj hplace
        refine ⟨[], earlier, later, servers, ?_, rfl, ?_⟩
        · rw [← hendpoints]
          rfl
        · exact (List.append_nil _).symm

theorem numbered_of_eq (before after : List ServerConfig) (earlier later : List EndpointConfig)
    (endpoint : EndpointConfig) :
    ∃ rest, numbered 0 (before ++ ⟨earlier ++ endpoint :: later⟩ :: after) =
      numbered 0 (before ++ [⟨earlier⟩]) ++ (before.length, endpoint) :: rest := by
  refine ⟨later.map (before.length, ·) ++ numbered (before.length + 1) after, ?_⟩
  rw [numbered_append, numbered_append, Nat.zero_add, numbered, numbered, numbered,
    List.map_append, List.map_cons]
  simp only [List.append_assoc, List.cons_append, List.append_nil]

/-! ### What the checks accept, and what they refuse -/

theorem listenKeys_eq (config : Config) :
    config.listenKeys = config.endpoints.flatMap (·.2.listenKeys) := by
  have hkeys : config.endpoints.flatMap (·.2.listenKeys) =
      (config.endpoints.map Prod.snd).flatMap EndpointConfig.listenKeys := by
    rw [List.flatMap_map]
  rw [hkeys, endpoints_eq, map_snd_numbered, List.flatMap_assoc]
  rfl

theorem forall_endpoints_iff (config : Config) :
    (∀ place ∈ config.endpoints, place.2.IsBuildable) ↔
      ∀ server ∈ config.servers, ∀ endpoint ∈ server.endpoints, endpoint.IsBuildable := by
  have hsnd : (∀ place ∈ config.endpoints, place.2.IsBuildable) ↔
      ∀ endpoint ∈ config.endpoints.map Prod.snd, endpoint.IsBuildable := by
    rw [List.forall_mem_map]
  rw [hsnd, endpoints_eq, map_snd_numbered]
  simp only [List.mem_flatMap, forall_exists_index, and_imp]
  exact ⟨fun h server hserver endpoint hmem => h endpoint server hserver hmem,
    fun h endpoint server hserver hmem => h server hserver endpoint hmem⟩

/-- The test of the limit on the run. -/
theorem timeout_iff (config : Config) :
    config.timeout.all Single.isPositiveSpan = true ↔
      ∀ seconds ∈ config.timeout, seconds.IsPositiveSpan := by
  cases config.timeout with
  | none => simp
  | some seconds => simp [Single.isPositiveSpan_iff]

/-- Nothing is wrong with a configuration exactly when a relay can be built from it. -/
theorem faults_eq_nil_iff (config : Config) : config.faults = [] ↔ config.IsBuildable := by
  have htree : endpointFaults [] config.endpoints = [] ↔
      (∀ server ∈ config.servers, ∀ endpoint ∈ server.endpoints, endpoint.IsBuildable) ∧
        config.listenKeys.Nodup := by
    rw [endpointFaults_eq_scan, scan_eq_nil_iff, forall_endpoints_iff, ← listenKeys_eq]
    simp
  rw [faults, List.append_eq_nil_iff, htree]
  constructor
  · rintro ⟨htimeout, hendpoints, hkeys⟩
    refine ⟨(timeout_iff config).mp ?_, hendpoints, hkeys⟩
    by_contra hfalse
    rw [if_neg hfalse] at htimeout
    cases htimeout
  · rintro ⟨htimeout, hendpoints, hkeys⟩
    exact ⟨if_pos ((timeout_iff config).mpr htimeout), hendpoints, hkeys⟩

/-- What an endpoint is refused for, if anything. -/
theorem head_placeFaults_iff {taken : List ListenKey} {server : Nat}
    {endpoint : EndpointConfig} {fault : ConfigFault} :
    (placeFaults taken (server, endpoint)).head? = some fault ↔
      (∃ own, endpoint.FirstFault own ∧ fault = .endpoint endpoint.displayName own) ∨
        (endpoint.IsBuildable ∧
          (clashes server taken endpoint.connections).head? = some fault) := by
  rw [placeFaults, List.head?_append, Option.or_eq_some_iff, List.head?_map,
    Option.map_eq_some_iff, Option.map_eq_none_iff, List.head?_eq_none_iff,
    EndpointConfig.faults_eq_nil_iff]
  simp only [EndpointConfig.head_faults_iff, eq_comm (a := fault)]

/-- The tree before an endpoint is valid exactly when the checks have found nothing in it. -/
theorem isBuildable_upTo_iff
    (htimeout : ∀ seconds ∈ config.timeout, seconds.IsPositiveSpan)
    (before : List ServerConfig) (earlier : List EndpointConfig) :
    scan placeFaults takenUpTo [] (numbered 0 (before ++ [⟨earlier⟩])) = [] ↔
      (config.upTo before earlier).IsBuildable := by
  rw [← faults_eq_nil_iff, faults, List.append_eq_nil_iff, endpointFaults_eq_scan,
    endpoints_eq]
  have hall := (timeout_iff config).mpr htimeout
  exact ⟨fun hnil => ⟨if_pos hall, hnil⟩, fun hnil => hnil.2⟩

/-- The addresses that the checks have seen by then are those of its hosts. -/
theorem placeFaults_upTo (config : Config) (before : List ServerConfig)
    (earlier : List EndpointConfig) (place : Nat × EndpointConfig) :
    placeFaults ((numbered 0 (before ++ [⟨earlier⟩])).foldl takenUpTo []) place =
      placeFaults (config.upTo before earlier).listenKeys place := by
  unfold placeFaults
  congr 1
  apply clashes_congr
  intro key
  rw [mem_foldl_iff mem_takenUpTo, listenKeys_eq, endpoints_eq]
  exact or_iff_right List.not_mem_nil

/-- What the tree is refused for is found at some endpoint, the tree before it being valid. -/
theorem head_endpointFaults_iff
    (htimeout : ∀ seconds ∈ config.timeout, seconds.IsPositiveSpan) {fault : ConfigFault} :
    (endpointFaults [] config.endpoints).head? = some fault ↔
      ∃ before earlier endpoint later after,
        config.servers = before ++ ⟨earlier ++ endpoint :: later⟩ :: after ∧
        (config.upTo before earlier).IsBuildable ∧
        (placeFaults (config.upTo before earlier).listenKeys
          (before.length, endpoint)).head? = some fault := by
  rw [endpointFaults_eq_scan, head_scan_iff, endpoints_eq]
  constructor
  · rintro ⟨first, ⟨server, endpoint⟩, rest, hplaces, hnil, hfound⟩
    obtain ⟨before, earlier, later, after, hservers, rfl, rfl⟩ := exists_of_numbered hplaces
    rw [placeFaults_upTo config, Nat.zero_add] at hfound
    exact ⟨before, earlier, endpoint, later, after, hservers,
      (isBuildable_upTo_iff htimeout before earlier).mp hnil, hfound⟩
  · rintro ⟨before, earlier, endpoint, later, after, hservers, hbefore, hfound⟩
    obtain ⟨rest, hplaces⟩ := numbered_of_eq before after earlier later endpoint
    rw [← hservers] at hplaces
    refine ⟨_, _, rest, hplaces, (isBuildable_upTo_iff htimeout before earlier).mpr hbefore, ?_⟩
    rwa [placeFaults_upTo config]

/-- The checks come across the first fault first. -/
theorem head_faults_iff (config : Config) (fault : ConfigFault) :
    config.faults.head? = some fault ↔ config.FirstFault fault := by
  rw [faults]
  split_ifs with hall
  case neg =>
    rw [timeout_iff] at hall
    rw [List.singleton_append, List.head?_cons, Option.some.injEq]
    constructor
    · rintro rfl
      cases hlimit : config.timeout with
      | none => simp [hlimit] at hall
      | some seconds => exact .timeout hlimit (by simpa [hlimit] using hall)
    · intro hfault
      cases hfault with
      | timeout => rfl
      | endpoint _ hbefore => exact absurd hbefore.timeout hall
      | sharedAddress _ hbefore => exact absurd hbefore.timeout hall
  case pos =>
    rw [timeout_iff] at hall
    rw [List.nil_append, head_endpointFaults_iff hall]
    constructor
    · rintro ⟨before, earlier, endpoint, later, after, hservers, hbefore, hfound⟩
      rcases head_placeFaults_iff.mp hfound with ⟨own, hown, rfl⟩ | ⟨hendpoint, hclash⟩
      · exact .endpoint hservers hbefore hown
      · obtain ⟨first, entry, rest, key, hentries, hnodup, hfree, hkey, hshared, rfl⟩ :=
          endpoint.head_clashes_iff.mp hclash
        apply FirstFault.sharedAddress hservers hbefore hendpoint hentries _ hkey
        · exact List.mem_append.mpr hshared
        · apply hbefore.listenKeys.append hnodup
          exact fun other htaken hfirst => hfree other hfirst htaken
    · intro hfault
      cases hfault with
      | timeout hlimit hspan => exact absurd (hall _ hlimit) hspan
      | endpoint hservers hbefore hown =>
          exact ⟨_, _, _, _, _, hservers, hbefore,
            head_placeFaults_iff.mpr (.inl ⟨_, hown, rfl⟩)⟩
      | sharedAddress hservers hbefore hendpoint hentries hdistinct hkey hshared =>
          obtain ⟨-, hnodup, hapart⟩ := List.nodup_append.mp hdistinct
          refine ⟨_, _, _, _, _, hservers, hbefore,
            head_placeFaults_iff.mpr (.inr ⟨hendpoint, ?_⟩)⟩
          apply (EndpointConfig.head_clashes_iff _).mpr
          exact ⟨_, _, _, _, hentries, hnodup,
            fun other hfirst htaken => hapart other htaken other hfirst rfl, hkey,
            List.mem_append.mp hshared, rfl⟩

/-- A configuration is accepted exactly when a relay can be built from it, and otherwise it
is refused for the first fault. -/
theorem validate_spec (config : Config) :
    (config.validate = .ok () ↔ config.IsBuildable) ∧
      ∀ fault, config.validate = .error fault ↔ config.FirstFault fault := by
  constructor
  · rw [← faults_eq_nil_iff, validate]
    cases config.faults <;> simp
  · intro fault
    rw [← head_faults_iff, validate]
    cases config.faults <;> simp

end Config

end LiveRelay
