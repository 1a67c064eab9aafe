import Ucentral.Plat.Apply
import Ucentral.Plat.Switch

/-! The RADIUS servers, configured and on the switch.

    The switch keeps two tables by host address: the RADIUS servers and the clients that may change
    an authorisation. A set merges: what it does not name stays, so a server that is set without a
    key keeps the key it had. `gnma_radius_host_remove` deletes from the second table. -/

namespace Ucentral.Plat
open Effect

variable {δ : Type}

/-! ### The two tables -/

structure RadiusEntry where
  authPort : ℕ
  priority : ℕ
  key : Option String
  deriving DecidableEq

/-- The servers, and the keys of the DAC clients. -/
structure AaaView where
  radius : String → Option RadiusEntry
  dac : String → Option (Option String)

/-- An empty key is not sent. -/
def mergeKey (passkey : String) (old : Option String) : Option String :=
  if passkey = "" then old else some passkey

/-- What a granted request does to the tables. -/
def aaaStore (op : Op) (v : AaaView) : AaaView :=
  match op with
  | .radiusServerSet host passkey authPort prio =>
    { v with
      radius := Function.update v.radius host
        (some ⟨authPort, prio, mergeKey passkey ((v.radius host).bind RadiusEntry.key)⟩) }
  | .dasClientSet host passkey =>
    { v with dac := Function.update v.dac host (some (mergeKey passkey (v.dac host).join)) }
  | .dasClientDel host => { v with dac := Function.update v.dac host none }
  | _ => v

/-- A switch that keeps the two tables and lists its servers when asked. -/
structure AaaSwitch (δ : Type) extends Switch δ AaaView fun op v v' => v' = aaaStore op v where
  names : δ → List String
  mem_names : ∀ d h, h ∈ names d ↔ ((view d).radius h).isSome
  listed : ∀ d, (dev.radiusHosts d).1 = some (names d)
  names_radiusHosts : ∀ d, names (dev.radiusHosts d).2 = names d

/-! ### The requests of a call -/

/-- A cached host that is gone, or that loses its password. -/
def staleHost (hosts : List RadiusHost) (k : String) : Bool :=
  !hosts.any (fun h => h.hostname == k) || hosts.any (fun h => h.hostname == k && h.passkey == "")

def radiusRequests (keys : List String) (hosts : List RadiusHost) : List Op :=
  (keys.filter (staleHost hosts)).map Op.dasClientDel ++
    hosts.map fun h => .radiusServerSet h.hostname h.passkey h.authPort h.priority

theorem platRadiusHostsListSet_eq (dv : Dev δ) (hosts : List RadiusHost) :
    platRadiusHostsListSet dv hosts = (do
      let keys := (← getCache).radiusKeys
      sendAll dv (radiusRequests keys hosts)
      Prog.when (keys.any (staleHost hosts) || !hosts.isEmpty)
        (Prog.ignore (platStateRadiusInit dv))) := by
  unfold platRadiusHostsListSet hostsListSet radiusRequests
  simp only [sendAll_append, forM_gnmiRequest, forM_when_gnmiRequest, bind_assoc]
  rfl

/-- Reading the cache again gives the servers of the switch. -/
theorem platStateRadiusInit_run (sw : AaaSwitch δ) (s : PlatSt δ) :
    ∃ d, platStateRadiusInit sw.dev s =
        (.ok (), ⟨⟨{ s.state.cache with radiusKeys := sw.names s.state.dev }, d⟩, s.log⟩) ∧
      sw.view d = sw.view s.state.dev := by
  have hfirst := sw.listed s.state.dev
  have hsecond := sw.listed (sw.dev.radiusHosts s.state.dev).2
  have hview := sw.radiusHosts s.state.dev
  rw [sw.names_radiusHosts] at hsecond
  unfold platStateRadiusInit
  rw [Prog.bind_run_ok (modifyCache_run _ s), Prog.bind_run_ok (ask_run _ _)]
  dsimp only
  rw [hfirst]
  rcases hnames : sw.names s.state.dev with _ | ⟨h, hs⟩
  · exact ⟨_, rfl, hview⟩
  · dsimp only
    rw [Prog.bind_run_ok (ask_run _ _)]
    dsimp only
    rw [hsecond, hnames]
    dsimp only
    rw [if_neg (lt_irrefl _)]
    exact ⟨_, rfl, (sw.radiusHosts _).trans hview⟩

/-! ### What the requests leave -/

theorem foldl_remove : ∀ (keys : List String) (v : AaaView),
    (keys.map Op.dasClientDel).foldl (fun v op => aaaStore op v) v =
      ⟨v.radius, fun h => if h ∈ keys then none else v.dac h⟩
  | [], v => by simp
  | k :: keys, v => by
      rw [List.map_cons, List.foldl_cons, foldl_remove keys]
      congr 1
      funext h
      by_cases hk : h = k
      · simp [aaaStore, hk]
      · simp [aaaStore, hk]

/-- A configured host with the key it had. -/
def mergedEntry (x : RadiusHost) (old : Option RadiusEntry) : RadiusEntry :=
  ⟨x.authPort, x.priority, mergeKey x.passkey (old.bind RadiusEntry.key)⟩

theorem foldl_add : ∀ (hosts : List RadiusHost) (v : AaaView),
    (hosts.map RadiusHost.hostname).Nodup →
    (hosts.map fun x => Op.radiusServerSet x.hostname x.passkey x.authPort x.priority).foldl
      (fun v op => aaaStore op v) v =
      ⟨fun h => match hosts.find? (·.hostname == h) with
        | some x => some (mergedEntry x (v.radius h))
        | none => v.radius h, v.dac⟩
  | [], v, _ => rfl
  | x :: hosts, v, hnodup => by
      rw [List.map_cons, List.nodup_cons] at hnodup
      rw [List.map_cons, List.foldl_cons, foldl_add hosts _ hnodup.2]
      congr 1
      funext h
      by_cases hx : x.hostname = h
      · -- the host comes only once
        have hnone : hosts.find? (·.hostname == h) = none := by
          rw [List.find?_eq_none]
          intro y hy heq
          refine hnodup.1 (List.mem_map.mpr ⟨y, hy, ?_⟩)
          rw [hx]
          exact eq_of_beq heq
        rw [hnone, List.find?_cons_of_pos (by simp [hx])]
        subst hx
        exact Function.update_self ..
      · have hsame : (aaaStore (.radiusServerSet x.hostname x.passkey x.authPort x.priority) v).radius h
            = v.radius h := Function.update_of_ne (Ne.symm hx) ..
        rw [List.find?_cons_of_neg (by simp [hx]), hsame]

/-- The tables after a call whose requests are all granted. -/
def aaaAfter (keys : List String) (hosts : List RadiusHost) (v : AaaView) : AaaView :=
  ⟨fun h => match hosts.find? (·.hostname == h) with
    | some x => some (mergedEntry x (v.radius h))
    | none => v.radius h,
   fun h => if h ∈ keys.filter (staleHost hosts) then none else v.dac h⟩

/-- A call that returns 0, from a cache that lists the servers of the switch. -/
theorem platRadiusHostsListSet_ok (sw : AaaSwitch δ) {hosts : List RadiusHost} {s : PlatSt δ}
    (hnodup : (hosts.map RadiusHost.hostname).Nodup)
    (hcached : ∀ h, h ∈ s.state.cache.radiusKeys ↔ ((sw.view s.state.dev).radius h).isSome)
    (hret : Prog.retCode (platRadiusHostsListSet sw.dev hosts s).1 = 0) :
    let t := (platRadiusHostsListSet sw.dev hosts s).2
    sw.view t.state.dev = aaaAfter s.state.cache.radiusKeys hosts (sw.view s.state.dev) ∧
      ∀ h, h ∈ t.state.cache.radiusKeys ↔ ((sw.view t.state.dev).radius h).isSome := by
  obtain ⟨l, hsend⟩ := sendAll_run sw.dev (radiusRequests s.state.cache.radiusKeys hosts) s
  rw [platRadiusHostsListSet_eq, Prog.bind_run_ok (getCache_run s)] at hret ⊢
  dsimp only at hret ⊢
  cases hsent : (sentAll sw.dev (radiusRequests s.state.cache.radiusKeys hosts) s.state.dev).1 with
  | false =>
    rw [if_neg (by rw [hsent]; decide)] at hsend
    rw [Prog.bind_run_error hsend] at hret
    exact absurd hret (by simp [Prog.retCode])
  | true =>
    have hview := sw.view_sentAll _ _ hsent
    rw [radiusRequests, List.foldl_append, foldl_remove, foldl_add hosts _ hnodup] at hview
    change _ = aaaAfter s.state.cache.radiusKeys hosts (sw.view s.state.dev) at hview
    rw [if_pos hsent] at hsend
    rw [Prog.bind_run_ok hsend]
    unfold Prog.when
    split
    · -- the cache is read again
      obtain ⟨d, hinit, hd⟩ := platStateRadiusInit_run sw ⟨⟨s.state.cache,
        (sentAll sw.dev (radiusRequests s.state.cache.radiusKeys hosts) s.state.dev).2⟩, l⟩
      rw [Prog.ignore_run, hinit]
      refine ⟨hd.trans hview, fun h => ?_⟩
      dsimp only at hd ⊢
      rw [sw.mem_names, hd]
    · -- no hosts, and none cached
      next hskip =>
      simp only [Bool.or_eq_true, Bool.not_eq_true', not_or, Bool.not_eq_true, Bool.not_eq_false,
        List.isEmpty_iff] at hskip
      obtain ⟨hstale, rfl⟩ := hskip
      have hnone : s.state.cache.radiusKeys = [] := by
        rcases hkeys : s.state.cache.radiusKeys with _ | ⟨k, ks⟩
        · rfl
        · rw [hkeys] at hstale
          cases hstale
      refine ⟨hview, fun h => ?_⟩
      change h ∈ s.state.cache.radiusKeys ↔ ((sw.view _).radius h).isSome
      rw [hcached h]
      have hradius := congrArg (fun v : AaaView => v.radius h) hview
      exact (iff_of_eq (congrArg (fun o : Option RadiusEntry => o.isSome = true) hradius)).symm

/-! ### When the configured servers are installed -/

/-- A server as configured: no key where the configuration has none. -/
def entryOf (x : RadiusHost) : RadiusEntry := ⟨x.authPort, x.priority, mergeKey x.passkey none⟩

/-- The servers of the switch and of the cache are those configured, and the clients are unchanged. -/
structure RadiusInstalled (sw : AaaSwitch δ) (hosts : List RadiusHost) (s t : PlatSt δ) : Prop where
  servers : ∀ h, (sw.view t.state.dev).radius h = (hosts.find? (·.hostname == h)).map entryOf
  cached : ∀ h, h ∈ t.state.cache.radiusKeys ↔ h ∈ hosts.map RadiusHost.hostname
  clients : (sw.view t.state.dev).dac = (sw.view s.state.dev).dac

/-- No cached host is gone, and none loses a key or has an entry among the clients. -/
def NothingToRemove (hosts : List RadiusHost) (keys : List String) (v : AaaView) : Prop :=
  (∀ k ∈ keys, k ∈ hosts.map RadiusHost.hostname) ∧
  ∀ x ∈ hosts, x.passkey = "" → ∀ e, v.radius x.hostname = some e →
    e.key = none ∧ v.dac x.hostname = none

theorem find?_hostname {hosts : List RadiusHost} (hnodup : (hosts.map RadiusHost.hostname).Nodup)
    {x : RadiusHost} (hx : x ∈ hosts) : hosts.find? (·.hostname == x.hostname) = some x := by
  rcases hfind : hosts.find? (·.hostname == x.hostname) with _ | y
  · exact absurd (List.find?_eq_none.mp hfind x hx) (by simp)
  · have hy := List.mem_of_find?_eq_some hfind
    have hname := List.find?_some hfind
    rw [hfind, List.inj_on_of_nodup_map hnodup hy hx (eq_of_beq hname)]

theorem find?_hostname_none {hosts : List RadiusHost} {h : String} :
    hosts.find? (·.hostname == h) = none ↔ h ∉ hosts.map RadiusHost.hostname := by
  rw [List.find?_eq_none, List.mem_map]
  constructor
  · rintro hnone ⟨x, hx, rfl⟩
    exact hnone x hx (beq_self_eq_true _)
  · intro hnot x hx heq
    exact hnot ⟨x, hx, eq_of_beq heq⟩

/-- A configured host is stale exactly if its password is empty. -/
theorem staleHost_of_mem {hosts : List RadiusHost} (hnodup : (hosts.map RadiusHost.hostname).Nodup)
    {x : RadiusHost} (hx : x ∈ hosts) : staleHost hosts x.hostname = true ↔ x.passkey = "" := by
  have hany : hosts.any (fun h => h.hostname == x.hostname) = true :=
    List.any_eq_true.mpr ⟨x, hx, beq_self_eq_true _⟩
  rw [staleHost, hany, Bool.not_true, Bool.false_or, List.any_eq_true]
  constructor
  · rintro ⟨y, hy, hboth⟩
    rw [Bool.and_eq_true] at hboth
    have heq : y = x := List.inj_on_of_nodup_map hnodup hy hx (eq_of_beq hboth.1)
    exact heq ▸ eq_of_beq hboth.2
  · intro hpass
    exact ⟨x, hx, by simp [hpass]⟩

section Installed

variable {keys : List String} {hosts : List RadiusHost} {v : AaaView}
  (hnodup : (hosts.map RadiusHost.hostname).Nodup) (hcached : ∀ h, h ∈ keys ↔ (v.radius h).isSome)
include hcached

/-- With nothing to remove, the servers are those configured. -/
theorem servers_aaaAfter (h : NothingToRemove hosts keys v) (host : String) :
    (aaaAfter keys hosts v).radius host = (hosts.find? (·.hostname == host)).map entryOf := by
  change (match hosts.find? (·.hostname == host) with
    | some x => some (mergedEntry x (v.radius host))
    | none => v.radius host) = _
  rcases hfind : hosts.find? (·.hostname == host) with _ | x
  · -- a host that is not configured was not cached
    rw [hfind]
    rcases hold : v.radius host with _ | e
    · rfl
    · have hk : host ∈ keys := (hcached host).mpr (by rw [hold]; rfl)
      exact absurd (h.1 host hk) (find?_hostname_none.mp hfind)
  · have hx := List.mem_of_find?_eq_some hfind
    have hname := List.find?_some hfind
    obtain rfl : x.hostname = host := eq_of_beq hname
    rw [hfind]
    simp only [Option.map_some, mergedEntry, entryOf]
    rcases hold : v.radius x.hostname with _ | e
    · rfl
    · by_cases hpass : x.passkey = ""
      · simp [mergeKey, hpass, (h.2 x hx hpass e hold).1]
      · simp [mergeKey, hpass]

include hnodup

/-- And the clients are those there were. -/
theorem clients_aaaAfter (h : NothingToRemove hosts keys v) : (aaaAfter keys hosts v).dac = v.dac := by
  funext host
  change (if host ∈ keys.filter (staleHost hosts) then none else v.dac host) = v.dac host
  by_cases hmem : host ∈ keys.filter (staleHost hosts)
  · rw [if_pos hmem]
    obtain ⟨hk, hstale⟩ := List.mem_filter.mp hmem
    obtain ⟨x, hx, rfl⟩ := List.mem_map.mp (h.1 host hk)
    obtain ⟨e, he⟩ := Option.isSome_iff_exists.mp ((hcached x.hostname).mp hk)
    exact (h.2 x hx ((staleHost_of_mem hnodup hx).mp hstale) e he).2.symm
  · rw [if_neg hmem]

/-- A host that should be gone is still there, a key is kept, or a client is removed. -/
theorem nothingToRemove_of_aaaAfter
    (hservers : ∀ host, (aaaAfter keys hosts v).radius host =
      (hosts.find? (·.hostname == host)).map entryOf)
    (hclients : (aaaAfter keys hosts v).dac = v.dac) : NothingToRemove hosts keys v := by
  refine ⟨fun k hk => ?_, fun x hx hpass e he => ⟨?_, ?_⟩⟩
  · by_contra hnot
    have hnone := find?_hostname_none.mpr hnot
    have hgone := hservers k
    simp only [aaaAfter, hnone, Option.map_none] at hgone
    have hthere := (hcached k).mp hk
    rw [hgone] at hthere
    cases hthere
  · have hentry := hservers x.hostname
    simp only [aaaAfter, find?_hostname hnodup hx, Option.map_some, Option.some.injEq] at hentry
    have hkey := congrArg RadiusEntry.key hentry
    simpa [mergedEntry, entryOf, mergeKey, hpass, he] using hkey
  · have hmem : x.hostname ∈ keys := (hcached x.hostname).mpr (by rw [he]; rfl)
    have hstale := List.mem_filter.mpr ⟨hmem, (staleHost_of_mem hnodup hx).mpr hpass⟩
    have hsame := congrFun hclients x.hostname
    simp only [aaaAfter] at hsame
    rw [if_pos hstale] at hsame
    exact hsame.symm

end Installed

/-- A call that returns 0 leaves the configured servers, and the clients as they were, exactly if it
    had nothing to remove. -/
theorem radius_hosts_installed_iff (sw : AaaSwitch δ) (hosts : List RadiusHost) (s : PlatSt δ)
    (hnodup : (hosts.map RadiusHost.hostname).Nodup)
    (hcached : ∀ h, h ∈ s.state.cache.radiusKeys ↔ ((sw.view s.state.dev).radius h).isSome)
    (hret : Prog.retCode (platRadiusHostsListSet sw.dev hosts s).1 = 0) :
    RadiusInstalled sw hosts s (platRadiusHostsListSet sw.dev hosts s).2 ↔
      NothingToRemove hosts s.state.cache.radiusKeys (sw.view s.state.dev) := by
  obtain ⟨hview, hkeys⟩ := platRadiusHostsListSet_ok sw hnodup hcached hret
  constructor
  · rintro ⟨hservers, -, hclients⟩
    rw [hview] at hservers hclients
    exact nothingToRemove_of_aaaAfter hnodup hcached hservers hclients
  · intro h
    have hservers := servers_aaaAfter hcached h
    refine ⟨fun host => by rw [hview, hservers host], fun host => ?_, ?_⟩
    · rw [hkeys host, hview, hservers host, Option.isSome_map]
      by_cases hmem : host ∈ hosts.map RadiusHost.hostname
      · refine iff_of_true ?_ hmem
        rw [Option.isSome_iff_ne_none, Ne, find?_hostname_none]
        exact fun hnot => hnot hmem
      · refine iff_of_false ?_ hmem
        rw [find?_hostname_none.mpr hmem]
        simp
    · rw [hview, clients_aaaAfter hnodup hcached h]

/-! ### A switch that grants everything -/

/-- The servers as a list, the last one set in front, and the clients. -/
abbrev AaaState := List (String × RadiusEntry) × (String → Option (Option String))

def AaaState.view (d : AaaState) : AaaView := ⟨fun h => (d.1.find? (·.1 == h)).map (·.2), d.2⟩

/-- The state with the tables changed as a request says. -/
def AaaState.store (op : Op) (d : AaaState) : AaaState :=
  match op with
  | .radiusServerSet host passkey authPort prio =>
    ((host, ⟨authPort, prio, mergeKey passkey ((AaaState.view d).radius host |>.bind
      RadiusEntry.key)⟩) :: d.1, d.2)
  | op => (d.1, (aaaStore op (AaaState.view d)).dac)

theorem AaaState.view_store (op : Op) (d : AaaState) :
    AaaState.view (AaaState.store op d) = aaaStore op (AaaState.view d) := by
  cases op with
  | radiusServerSet host passkey authPort prio =>
    unfold AaaState.store aaaStore AaaState.view
    congr 1
    funext h
    by_cases hh : host = h
    · subst hh
      simp
    · rw [Function.update_of_ne (Ne.symm hh), List.find?_cons_of_neg (by simp [hh])]
  | _ => rfl

def plainAaa : AaaSwitch AaaState where
  dev :=
    { request := fun op d => (true, AaaState.store op d)
      vlanList := fun d => (none, d)
      vlanMembers := fun d => (none, d)
      vlanErif := fun _ d => (none, d)
      portList := fun d => (none, d)
      dacHosts := fun d => (none, d)
      radiusHosts := fun d => (some (d.1.map (·.1)), d) }
  view := AaaState.view
  granted op d _ := AaaState.view_store op d
  refused _ _ h := by cases h
  vlanList _ := rfl
  vlanMembers _ := rfl
  vlanErif _ _ := rfl
  portList _ := rfl
  dacHosts _ := rfl
  radiusHosts _ := rfl
  names d := d.1.map (·.1)
  mem_names d h := by
    rw [AaaState.view, Option.isSome_map, List.find?_isSome, List.mem_map]
    simp only [beq_iff_eq]
  listed _ := rfl
  names_radiusHosts _ := rfl

/-- A switch with one server, which may also be a client. -/
def oneServer (dac : String → Option (Option String)) : PlatSt AaaState :=
  ⟨⟨{ radiusKeys := ["a"] }, ([("a", ⟨1812, 1, some "k"⟩)], dac)⟩, []⟩

theorem oneServer_cached (dac : String → Option (Option String)) (h : String) :
    h ∈ (oneServer dac).state.cache.radiusKeys ↔
      ((plainAaa.view (oneServer dac).state.dev).radius h).isSome :=
  plainAaa.mem_names (oneServer dac).state.dev h

/-- The server with another key, and one more server. -/
def twoHosts : List RadiusHost := [⟨"a", "k2", 1812, 1⟩, ⟨"b", "", 1645, 2⟩]

theorem radius_hosts_installed_two :
    RadiusInstalled plainAaa twoHosts (oneServer fun _ => none)
        (platRadiusHostsListSet plainAaa.dev twoHosts (oneServer fun _ => none)).2 ↔
      NothingToRemove twoHosts ["a"] (AaaState.view (oneServer fun _ => none).state.dev) :=
  radius_hosts_installed_iff plainAaa twoHosts (oneServer fun _ => none) (by decide)
    (oneServer_cached _) (by decide +kernel)

/-- The configuration names no server: 0 is returned, the server and its cache entry stay, and the
    client of that address is gone. -/
theorem radius_host_stays :
    let s := oneServer fun h => if h = "a" then some (some "dac") else none
    let t := (platRadiusHostsListSet plainAaa.dev [] s).2
    Prog.retCode (platRadiusHostsListSet plainAaa.dev [] s).1 = 0 ∧
    t.log = [(.dasClientDel "a", true)] ∧
    (plainAaa.view t.state.dev).radius "a" = some ⟨1812, 1, some "k"⟩ ∧
    t.state.cache.radiusKeys = ["a"] ∧
    (plainAaa.view s.state.dev).dac "a" = some (some "dac") ∧
    (plainAaa.view t.state.dev).dac "a" = none ∧ ¬ RadiusInstalled plainAaa [] s t := by
  refine ⟨by decide +kernel, by decide +kernel, by decide +kernel, by decide +kernel,
    by decide +kernel, by decide +kernel, fun h => ?_⟩
  exact absurd (h.servers "a") (by decide +kernel)

end Ucentral.Plat
