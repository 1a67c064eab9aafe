import Mathlib.Data.List.Count
import Mathlib.Data.List.Forall2
import Ucentral.Lib.Block
import Ucentral.Lib.Inet
import Ucentral.Plat.Cfg
import Ucentral.Plat.MacList

/-! The default gateways, with the ports they are behind.

    The dynamic routes of the switch are asked for twice, first for their number. The default routes among
    them are counted, and then filled in. A route that leaves through a VLAN is given the port on which
    its gateway was learned in that VLAN:

        routes     0.0.0.0/0 via 10.0.0.1, Vlan10        neighbour  10.0.0.1  MAC m
        learned    Ethernet4, 10, m                      port       Ethernet4 -/

namespace Ucentral.Plat.Gateways
open CJson CString Inet MacList

/-! ### The routes -/

/-- A `struct gnma_ip_prefix`, and the `struct gnma_route_attrs` of a route that has a next hop. -/
structure Route where
  addr : InAddr
  prefixLen : ℤ
  gw : InAddr
  egressPort : List UInt8
  metric : ℕ
  deriving DecidableEq

/-- A turn of the loop of `gnma_dyn_route_list_get`, over what the variables `prefix` and `attrs` hold
    and the routes so far. A route that is skipped may leave something in the variables. -/
def dynRoute (s : Route × List Route) (route : Json) : Route × List Route :=
  let v := s.1
  match getStringValue (getItem (some route) "prefix") with
  | none => s
  | some text =>
    let pref := inetNetPton text.toList v.addr
    let v := { v with addr := pref.2, prefixLen := (pref.1.map Int.ofNat).getD (-1) }
    if pref.1.isNone then (v, s.2)
    else
      let nh := getItem (getItem (some route) "openconfig-aft-deviation:next-hops") "next-hop"
      let nh := getArrayItem nh 0
      let state := getItem nh "state"
      if state.isNone then (v, s.2)
      else if isTrue (getItem state "directly-connected") then (v, s.2)
      else
        match getStringValue (getItem state "ip-address") with
        | none => (v, s.2)
        | some text =>
          let gw := inetNetPton text.toList v.gw
          let v := { v with gw := gw.2 }
          if gw.1.isNone then (v, s.2)
          else
            match getStringValue (getItem (getItem (getItem nh "interface-ref") "state") "interface") with
            | none => (v, s.2)
            | some name =>
              let v := { v with egressPort := strncpy 32 name }
              let metric := getItem (getItem (some route) "state") "metric"
              if metric.isNone then (v, s.2)
              else
                let v := { v with metric := (getNumberValue metric).toUInt 32 }
                (v, s.2 ++ [v])

/-- The routes of an answer, if it has a list of them; `stack` is what is in the variables at first. -/
def dynRoutes (stack : Route) (root : Ptr) : Option (List Route) :=
  let routeList := getItem root "openconfig-network-instance:ipv4-entry"
  if isArray routeList then some ((children routeList).foldl dynRoute (stack, [])).2 else none

/-- `gnma_dyn_route_list_get` on an answer with these routes: what it returns, `*list_size`, and the
    slots that it fills. -/
def gnmaDynRouteListGet (routes : Option (List Route)) (listSize : ℕ) : ℤ × ℕ × List Route :=
  match routes with
  | none => (-1, listSize, [])
  | some rs => (if listSize < rs.length then -2 else 0, rs.length, rs.take listSize)

/-- `gpath` of `gnma_nei_addr_get`: a VLAN is routed itself, a port through its first subinterface. -/
def neiPath (iface : List UInt8) (ip : InAddr) : List UInt8 :=
  let ipv4 := if iface.head? = some (Char.toUInt8 'V') then
      "]/openconfig-vlan:routed-vlan/openconfig-if-ip:ipv4/neighbors/neighbor[ip="
    else "]/subinterfaces/subinterface[index=0]/openconfig-if-ip:ipv4/neighbors/neighbor[ip="
  bytes "/openconfig-interfaces:interfaces/interface[name=" ++ iface.takeWhile (· != 0) ++
    bytes ipv4 ++ (inetNtop ip).map Char.toUInt8 ++ bytes "]/state/link-layer-address"

/-- `gnma_nei_addr_get`, with a buffer of 18 bytes; `get` answers the request for a path. -/
def gnmaNeiAddrGet (get : List UInt8 → Ptr) (iface : List UInt8) (ip : InAddr) :
    Option (List UInt8) :=
  match getStringValue (getItem (get (neiPath iface ip)) "openconfig-if-ip:link-layer-address") with
  | none => none
  | some mac => if bytes mac = [] then none else some (strncpy 18 mac)

/-! ### The gateways -/

/-- `strncmp(a, b, n) == 0` -/
def strncmpEq (n : ℕ) (a b : List UInt8) : Bool :=
  (a.take n).takeWhile (· != 0) == (b.take n).takeWhile (· != 0)

/-- `NAME_TO_VLAN`: `sscanf(name, "Vlan%hu", &vid)`, on a field that ends where the name does, at the
    latest. -/
def nameToVlan (name : List UInt8) : Option ℕ :=
  let cs := (name.takeWhile (· != 0)).map fun b => Char.ofNat b.toNat
  if cs.take 4 = "Vlan".toList then scanHu (cs.drop 4) else none

/-- `struct plat_gw_address` -/
structure GwAddress where
  ip : InAddr
  metric : ℕ
  port : List UInt8
  mac : List UInt8
  deriving DecidableEq

/-- As `calloc` leaves it. -/
def GwAddress.zero : GwAddress := ⟨InAddr.zero, 0, List.replicate 32 0, List.replicate 18 0⟩

/-- `gw_addr_list` and `gw_addr_list_size` of the state. -/
structure GwState where
  list : Option (Block GwAddress)
  size : ℕ
  deriving DecidableEq

def GwState.null : GwState := ⟨none, 0⟩

/-- The test on a prefix, which skips a non-default route. -/
def isDefault (r : Route) : Bool := !(decide (r.addr.sAddr ≠ 0) || decide (r.prefixLen ≠ 0))

/-- The loop over the learned addresses. -/
def findPort (vid : ℕ) (mac port : List UInt8) : List LearnedMac → List UInt8
  | [] => port
  | m :: ms =>
    if decide ((m.vid % 65536).toNat ≠ vid) || !strncmpEq 18 m.mac mac then findPort vid mac port ms
    else m.port

/-- What `port` points to for a route. -/
def portOf (learned : List LearnedMac) (r : Route) (mac : List UInt8) : List UInt8 :=
  match nameToVlan r.egressPort with
  | some vid => findPort vid mac r.egressPort learned
  | none => r.egressPort

/-- The answers about neighbours: to the request for the route with this index, by its path. -/
abbrev Neighbours := ℕ → List UInt8 → Ptr

/-- The loop that fills the list: what it returns, `num_addrs`, and the list. -/
def fillGw (learned : List LearnedMac) (nei : Neighbours) :
    ℕ → List Route → ℕ → Block GwAddress → Option (ℤ × ℕ × Block GwAddress)
  | _, [], num, list => some (0, num, list)
  | idx, r :: rs, num, list =>
    if !isDefault r then fillGw learned nei (idx + 1) rs num list
    else
      match gnmaNeiAddrGet (nei idx) r.egressPort r.gw with
      | none => some (-1, num, list)
      | some mac => do
        let list ← list.store num
          ⟨r.gw, r.metric, strncpyField 32 (portOf learned r mac), strncpyField 18 mac⟩
        fillGw learned nei (idx + 1) rs (num + 1) list

/-- `plat_state_gw_ip_get`: what it returns, and the state; none where it writes outside of the list.
    `calloc` tells whether there is memory for the prefixes, the attributes and the gateways. -/
def platStateGwIpGet (calloc : Bool × Bool × Bool) (first second : Option (List Route))
    (nei : Neighbours) (learned : List LearnedMac) (st : GwState) : Option (ℤ × GwState) :=
  let (ret, listSize, _) := gnmaDynRouteListGet first 0
  if ret ≠ 0 ∧ ret ≠ -2 then some (-1, st)
  else if listSize = 0 then some (0, st)
  else if !calloc.1 || !calloc.2.1 then some (-1, .null)
  else
    let (ret, _, routes) := gnmaDynRouteListGet second listSize
    if ret ≠ 0 then some (-1, .null)
    else if !calloc.2.2 then some (-1, .null)
    else do
      let room := Block.holding (List.replicate (routes.countP isDefault) GwAddress.zero)
      let (ret, num, list) ← fillGw learned nei 0 routes 0 room
      return if ret ≠ 0 then (ret, .null) else (0, ⟨some list, num⟩)

/-! ### What is promised -/

/-- Was the MAC learned there in the VLAN? `same` tells when the number of an entry is that of a VLAN. -/
def Learned (same : ℤ → ℕ → Prop) (vid : ℕ) (mac : List UInt8) (m : LearnedMac) : Prop :=
  same m.vid vid ∧ strncmpEq 18 m.mac mac = true

/-- The port of the first entry with the VLAN of the route and the MAC, if it leaves through a VLAN and
    there is such an entry; else the interface of the route. -/
def IsGwPort (same : ℤ → ℕ → Prop) (learned : List LearnedMac) (r : Route) (mac port : List UInt8) :
    Prop :=
  (∃ vid pre m post, nameToVlan r.egressPort = some vid ∧ learned = pre ++ m :: post ∧
      Learned same vid mac m ∧ (∀ x ∈ pre, ¬ Learned same vid mac x) ∧ port = m.port) ∨
    (∀ vid, nameToVlan r.egressPort = some vid → ∀ m ∈ learned, ¬ Learned same vid mac m) ∧
      port = r.egressPort

/-- The entry for a route, and its place among the routes. -/
def IsGateway (same : ℤ → ℕ → Prop) (nei : Neighbours) (learned : List LearnedMac) (p : Route × ℕ)
    (e : GwAddress) : Prop :=
  ∃ mac port, gnmaNeiAddrGet (nei p.2) p.1.egressPort p.1.gw = some mac ∧
    IsGwPort same learned p.1 mac port ∧
    e = ⟨p.1.gw, p.1.metric, strncpyField 32 port, mac⟩

/-- With 0 and a route, the list has an entry for each default route, in order; without 0 there is no
    list. Nothing is written outside of it. -/
def GwRight (same : ℤ → ℕ → Prop) (calloc : Bool × Bool × Bool) (routes : List Route) (nei : Neighbours)
    (learned : List LearnedMac) : Prop :=
  ∃ ret st, platStateGwIpGet calloc (some routes) (some routes) nei learned .null = some (ret, st) ∧
    (ret = 0 → routes ≠ [] → ∃ entries, st = ⟨some (Block.holding entries), entries.length⟩ ∧
      List.Forall₂ (IsGateway same nei learned) (routes.zipIdx.filter fun p => isDefault p.1) entries) ∧
    (ret ≠ 0 → st = .null)

/-! ### The port -/

section Port

variable {vid : ℕ} {mac port : List UInt8}

/-- VLANs are compared as `uint16_t`. -/
def SameLow (v : ℤ) (vid : ℕ) : Prop := (v % 65536).toNat = vid

theorem learned_low_iff (m : LearnedMac) :
    (decide ((m.vid % 65536).toNat ≠ vid) || !strncmpEq 18 m.mac mac) = false ↔
      Learned SameLow vid mac m := by
  unfold Learned SameLow
  simp

/-- The loop stops at the first entry that matches. -/
theorem findPort_cases (vid : ℕ) (mac port : List UInt8) : ∀ ms : List LearnedMac,
    (∃ pre m post, ms = pre ++ m :: post ∧ Learned SameLow vid mac m ∧
        (∀ x ∈ pre, ¬ Learned SameLow vid mac x) ∧ findPort vid mac port ms = m.port) ∨
      (∀ m ∈ ms, ¬ Learned SameLow vid mac m) ∧ findPort vid mac port ms = port
  | [] => Or.inr ⟨List.forall_mem_nil _, rfl⟩
  | m :: ms => by
      rw [findPort]
      by_cases hm : Learned SameLow vid mac m
      · rw [(learned_low_iff m).mpr hm]
        exact Or.inl ⟨[], m, ms, rfl, hm, List.forall_mem_nil _, rfl⟩
      · have hskip := mt (learned_low_iff m).mp hm
        rw [Bool.not_eq_false] at hskip
        rw [hskip]
        rcases findPort_cases vid mac port ms with ⟨pre, x, post, rfl, hx, hpre, hport⟩ | ⟨hnone, hport⟩
        · exact Or.inl ⟨m :: pre, x, post, rfl, hx, List.forall_mem_cons.mpr ⟨hm, hpre⟩, hport⟩
        · exact Or.inr ⟨List.forall_mem_cons.mpr ⟨hm, hnone⟩, hport⟩

theorem isGwPort_portOf (learned : List LearnedMac) (r : Route) (mac : List UInt8) :
    IsGwPort SameLow learned r mac (portOf learned r mac) := by
  unfold IsGwPort portOf
  cases hvid : nameToVlan r.egressPort with
  | none => exact Or.inr ⟨fun vid h => (by cases h), rfl⟩
  | some vid =>
    rcases findPort_cases vid mac r.egressPort learned with
      ⟨pre, m, post, rfl, hm, hpre, hport⟩ | ⟨hnone, hport⟩
    · exact Or.inl ⟨vid, pre, m, post, rfl, rfl, hm, hpre, hport⟩
    · refine Or.inr ⟨fun v hv => ?_, hport⟩
      cases hv
      exact hnone

/-- Where all VLANs have 16 bits, they are compared as they are. -/
theorem IsGwPort.of_uint16 {learned : List LearnedMac} (h16 : ∀ m ∈ learned, 0 ≤ m.vid ∧ m.vid < 65536)
    {r : Route} (h : IsGwPort SameLow learned r mac port) :
    IsGwPort (fun v k => v = k) learned r mac port := by
  have hsame : ∀ m ∈ learned, ∀ vid, Learned SameLow vid mac m ↔
      Learned (fun v k => v = k) vid mac m := by
    intro m hm vid
    have hm := h16 m hm
    have hiff : SameLow m.vid vid ↔ m.vid = (vid : ℤ) := by
      unfold SameLow
      omega
    unfold Learned
    rw [hiff]
  rcases h with ⟨vid, pre, m, post, hvid, rfl, hm, hpre, hport⟩ | ⟨hnone, hport⟩
  · refine Or.inl ⟨vid, pre, m, post, hvid, rfl, (hsame m (by simp) vid).mp hm, fun x hx => ?_, hport⟩
    rw [← hsame x (by simp [hx]) vid]
    exact hpre x hx
  · refine Or.inr ⟨fun vid hvid m hm => ?_, hport⟩
    rw [← hsame m hm vid]
    exact hnone vid hvid m hm

end Port

/-! ### The list -/

/-- The MAC of a neighbour fills a field of its own, which a copy does not change. -/
theorem strncpyField_nei {get : List UInt8 → Ptr} {iface mac : List UInt8} {ip : InAddr}
    (h : gnmaNeiAddrGet get iface ip = some mac) : strncpyField 18 mac = mac := by
  unfold gnmaNeiAddrGet at h
  split at h
  · cases h
  · split at h
    · cases h
    · cases h
      exact strncpyField_strncpy 18 _

/-- The next free slot is written. -/
theorem store_next (done : List GwAddress) (x : Option GwAddress) (rest : Block GwAddress)
    (e : GwAddress) : (Block.holding done ++ x :: rest).store done.length e =
      some (Block.holding (done ++ [e]) ++ rest) := by
  have hlen : (Block.holding done).length = done.length := Block.length_holding done
  have hlt : done.length < (Block.holding done ++ x :: rest).length := by
    rw [List.length_append, hlen, List.length_cons]
    omega
  rw [Block.store_eq hlt, List.set_append_right _ _ (Nat.le_of_eq hlen), hlen, Nat.sub_self,
    List.set_cons_zero, Block.holding, Block.holding, List.map_append, List.append_assoc]
  rfl

/-- The list has as many slots as there are default routes left; they are all filled, unless a neighbour
    is not known. -/
theorem fillGw_fills (learned : List LearnedMac) (nei : Neighbours) : ∀ (routes : List Route) (idx : ℕ)
    (done : List GwAddress) (rest : Block GwAddress), rest.length = routes.countP isDefault →
    (∃ entries, fillGw learned nei idx routes done.length (Block.holding done ++ rest) =
        some (0, (done ++ entries).length, Block.holding (done ++ entries)) ∧
      List.Forall₂ (IsGateway SameLow nei learned)
        ((routes.zipIdx idx).filter fun p => isDefault p.1) entries) ∨
      ∃ num list, fillGw learned nei idx routes done.length (Block.holding done ++ rest) =
        some (-1, num, list)
  | [], idx, done, rest, hrest => by
      have hnil : rest = [] := List.length_eq_zero_iff.mp hrest
      refine Or.inl ⟨[], ?_, List.Forall₂.nil⟩
      rw [hnil, List.append_nil, List.append_nil]
      rfl
  | r :: routes, idx, done, rest, hrest => by
      rw [fillGw, List.zipIdx_cons]
      cases hdef : isDefault r with
      | false =>
        rw [List.countP_cons_of_neg (by rw [hdef]; exact Bool.false_ne_true)] at hrest
        rw [List.filter_cons_of_neg (by rw [hdef]; exact Bool.false_ne_true)]
        exact fillGw_fills learned nei routes (idx + 1) done rest hrest
      | true =>
        rw [List.countP_cons_of_pos hdef] at hrest
        rw [List.filter_cons_of_pos (by exact hdef)]
        obtain ⟨x, rest, rfl⟩ := List.exists_cons_of_length_eq_add_one hrest
        cases hmac : gnmaNeiAddrGet (nei idx) r.egressPort r.gw with
        | none => exact Or.inr ⟨_, _, rfl⟩
        | some mac =>
          obtain ⟨e, he⟩ : ∃ e : GwAddress, e =
            ⟨r.gw, r.metric, strncpyField 32 (portOf learned r mac), strncpyField 18 mac⟩ := ⟨_, rfl⟩
          have hgateway : IsGateway SameLow nei learned (r, idx) e :=
            ⟨mac, _, hmac, isGwPort_portOf learned r mac, by rw [he, strncpyField_nei hmac]⟩
          have hnext := fillGw_fills learned nei routes (idx + 1) (done ++ [e]) rest
            (Nat.succ.inj hrest)
          rw [List.length_append, List.length_singleton] at hnext
          simp only [Bool.not_true, Bool.false_eq_true, if_false, ← he, store_next,
            Option.bind_eq_bind, Option.bind_some]
          rcases hnext with ⟨entries, hfill, hall⟩ | hfail
          · refine Or.inl ⟨e :: entries, ?_, List.Forall₂.cons hgateway hall⟩
            rw [hfill, List.append_assoc]
            rfl
          · exact Or.inr hfail

/-- The first query tells how many routes there are; that there are any makes it an overflow. -/
theorem dynRouteListGet_count (known : List Route) :
    ∃ ret, gnmaDynRouteListGet (some known) 0 = (ret, known.length, []) ∧ ¬ (ret ≠ 0 ∧ ret ≠ -2) := by
  refine ⟨if 0 < known.length then -2 else 0, rfl, ?_⟩
  split <;> simp

/-- The second query gives all routes, unless there are more than before. -/
theorem dynRouteListGet_fill (routes : List Route) (room : ℕ) :
    (gnmaDynRouteListGet (some routes) room).1 ≠ 0 ∨
      gnmaDynRouteListGet (some routes) room = (0, routes.length, routes) := by
  unfold gnmaDynRouteListGet
  by_cases hover : room < routes.length
  · left
    simp [hover]
  · right
    dsimp only
    rw [if_neg hover, List.take_of_length_le (Nat.not_lt.mp hover)]

/-- With room for the default routes, the list is filled, or a neighbour is not known. -/
theorem fillGw_room (learned : List LearnedMac) (nei : Neighbours) (routes : List Route) :
    (∃ entries, fillGw learned nei 0 routes 0
        (Block.holding (List.replicate (routes.countP isDefault) GwAddress.zero)) =
          some (0, entries.length, Block.holding entries) ∧
      List.Forall₂ (IsGateway SameLow nei learned)
        (routes.zipIdx.filter fun p => isDefault p.1) entries) ∨
      ∃ num list, fillGw learned nei 0 routes 0
        (Block.holding (List.replicate (routes.countP isDefault) GwAddress.zero)) =
          some (-1, num, list) := by
  have hroom : (Block.holding (List.replicate (routes.countP isDefault) GwAddress.zero)).length =
      routes.countP isDefault := by
    rw [Block.length_holding, List.length_replicate]
  exact fillGw_fills learned nei routes 0 [] _ hroom

/-- The calls end early and leave the state, or without a list, or with the gateways of the second
    answer. -/
theorem platStateGwIpGet_cases (calloc : Bool × Bool × Bool) (first second : Option (List Route))
    (nei : Neighbours) (learned : List LearnedMac) (st : GwState) :
    platStateGwIpGet calloc first second nei learned st = some (-1, st) ∨
      (first = some [] ∧ platStateGwIpGet calloc first second nei learned st = some (0, st)) ∨
      platStateGwIpGet calloc first second nei learned st = some (-1, .null) ∨
      ∃ routes entries, second = some routes ∧
        platStateGwIpGet calloc first second nei learned st =
          some (0, ⟨some (Block.holding entries), entries.length⟩) ∧
        List.Forall₂ (IsGateway SameLow nei learned)
          (routes.zipIdx.filter fun p => isDefault p.1) entries := by
  unfold platStateGwIpGet
  cases first with
  | none => exact Or.inl rfl
  | some known =>
    obtain ⟨ret, hquery, hret⟩ := dynRouteListGet_count known
    rw [hquery]
    dsimp only
    rw [if_neg hret]
    by_cases hempty : known.length = 0
    · rw [if_pos hempty]
      exact Or.inr (Or.inl ⟨congrArg some (List.length_eq_zero_iff.mp hempty), rfl⟩)
    rw [if_neg hempty]
    right
    right
    by_cases hcalloc : (!calloc.1 || !calloc.2.1) = true
    · rw [if_pos hcalloc]
      exact Or.inl rfl
    rw [if_neg hcalloc]
    cases second with
    | none => exact Or.inl rfl
    | some routes =>
      rcases dynRouteListGet_fill routes known.length with hover | hsecond
      · rw [if_pos hover]
        exact Or.inl rfl
      rw [hsecond]
      dsimp only
      rw [if_neg (not_not_intro rfl)]
      by_cases hlist : (!calloc.2.2) = true
      · rw [if_pos hlist]
        exact Or.inl rfl
      rw [if_neg hlist]
      rcases fillGw_room learned nei routes with ⟨entries, hfill, hgateways⟩ | ⟨num, list, hfill⟩
      · rw [hfill]
        exact Or.inr ⟨routes, entries, rfl, rfl, hgateways⟩
      · rw [hfill]
        exact Or.inl rfl

theorem gwRight_low (calloc : Bool × Bool × Bool) (routes : List Route) (nei : Neighbours)
    (learned : List LearnedMac) : GwRight SameLow calloc routes nei learned := by
  rcases platStateGwIpGet_cases calloc (some routes) (some routes) nei learned .null with
    h | ⟨hnil, h⟩ | h | ⟨rs, entries, hrs, h, hgateways⟩
  · exact ⟨-1, .null, h, by simp, fun _ => rfl⟩
  · exact ⟨0, .null, h, fun _ hne => absurd (Option.some.inj hnil) hne, fun _ => rfl⟩
  · exact ⟨-1, .null, h, by simp, fun _ => rfl⟩
  · cases hrs
    exact ⟨0, _, h, fun _ _ => ⟨entries, rfl, hgateways⟩, fun hret => absurd rfl hret⟩

theorem GwRight.of_uint16 {calloc : Bool × Bool × Bool} {routes : List Route} {nei : Neighbours}
    {learned : List LearnedMac} (h16 : ∀ m ∈ learned, 0 ≤ m.vid ∧ m.vid < 65536)
    (h : GwRight SameLow calloc routes nei learned) :
    GwRight (fun v k => v = k) calloc routes nei learned := by
  obtain ⟨ret, st, hrun, hok, hfail⟩ := h
  refine ⟨ret, st, hrun, fun hret hne => ?_, hfail⟩
  obtain ⟨entries, hst, hall⟩ := hok hret hne
  refine ⟨entries, hst, hall.imp fun p e => ?_⟩
  rintro ⟨mac, port, hmac, hport, he⟩
  exact ⟨mac, port, hmac, hport.of_uint16 h16, he⟩

/-! ### A VLAN of more than 16 bits -/

/-- A default route through `Vlan10`, and a host route. -/
def sampleRoutes : List Route :=
  [⟨InAddr.zero, 0, ⟨10, 0, 0, 1⟩, strncpy 32 "Vlan10", 5⟩,
    ⟨⟨10, 9, 0, 1⟩, 32, ⟨10, 0, 0, 1⟩, strncpy 32 "Vlan10", 5⟩]

/-- The two routes as the switch tells them. -/
def sampleRoute (pref : String) : Json :=
  .obj [("prefix", .str pref), ("state", .obj [("metric", .num (.fin 5))]),
    ("openconfig-aft-deviation:next-hops", .obj [("next-hop", .arr [.obj
      [("state", .obj [("ip-address", .str "10.0.0.1")]),
        ("interface-ref", .obj [("state", .obj [("interface", .str "Vlan10")])])]])])]

example : dynRoutes ⟨InAddr.zero, 0, InAddr.zero, [], 0⟩ (some (.obj
    [("openconfig-network-instance:ipv4-entry",
      .arr [sampleRoute "0.0.0.0/0", sampleRoute "10.9.0.1"])])) = some sampleRoutes := by
  decide +kernel

def sampleMac : String := "00:11:22:33:44:55"

def samplePath : String :=
  "/openconfig-interfaces:interfaces/interface[name=Vlan10]/openconfig-vlan:routed-vlan" ++
    "/openconfig-if-ip:ipv4/neighbors/neighbor[ip=10.0.0.1]/state/link-layer-address"

/-- The switch knows the neighbour 10.0.0.1 of `Vlan10`, and no other. -/
def sampleNei (_ : ℕ) (gpath : List UInt8) : Ptr :=
  if gpath = bytes samplePath then
    some (.obj [("openconfig-if-ip:link-layer-address", .str sampleMac)])
  else none

/-- The MAC of the gateway, learned in a VLAN of this number. -/
def sampleLearned (vid : ℤ) : List LearnedMac :=
  [⟨strncpy 32 "Ethernet4", vid, strncpy 18 sampleMac⟩]

def sampleGw : GwAddress := ⟨⟨10, 0, 0, 1⟩, 5, strncpy 32 "Ethernet4", strncpy 18 sampleMac⟩

theorem run_sample : platStateGwIpGet (true, true, true) (some sampleRoutes) (some sampleRoutes)
    sampleNei (sampleLearned 65546) .null = some (0, ⟨some (Block.holding [sampleGw]), 1⟩) := by
  decide +kernel

theorem sample_not_vlan10 {mac port : List UInt8}
    (h : IsGwPort (fun v k => v = k) (sampleLearned 65546) ⟨InAddr.zero, 0, ⟨10, 0, 0, 1⟩,
      strncpy 32 "Vlan10", 5⟩ mac port) : port = strncpy 32 "Vlan10" := by
  have hvlan : nameToVlan (strncpy 32 "Vlan10") = some 10 := by decide +kernel
  rcases h with ⟨vid, pre, m, post, hvid, hlearned, hm, -, -⟩ | ⟨-, hport⟩
  · obtain rfl : 10 = vid := Option.some.inj (hvlan.symm.trans hvid)
    have hmem : m ∈ sampleLearned 65546 := by rw [hlearned]; simp
    obtain rfl := List.mem_singleton.mp hmem
    exact absurd hm.1 (by decide)
  · exact hport

/-- The number 65546 of an entry is taken for the VLAN 10. -/
theorem gateway_behind_other_vlan : ¬ ∀ (calloc : Bool × Bool × Bool) (routes : List Route)
    (nei : Neighbours) (learned : List LearnedMac), GwRight (fun v k => v = k) calloc routes nei learned := by
  intro h
  obtain ⟨ret, st, hrun, hok, -⟩ := h (true, true, true) sampleRoutes sampleNei (sampleLearned 65546)
  rw [run_sample] at hrun
  cases hrun
  obtain ⟨entries, hst, hall⟩ := hok rfl (List.cons_ne_nil _ _)
  have hentries : [sampleGw] = entries := by
    have hlist := Option.some.inj (GwState.mk.inj hst).1
    exact List.map_injective_iff.mpr (Option.some_injective _) hlist
  have hdefault : (sampleRoutes.zipIdx.filter fun p => isDefault p.1) =
      [(⟨InAddr.zero, 0, ⟨10, 0, 0, 1⟩, strncpy 32 "Vlan10", 5⟩, 0)] := by
    decide +kernel
  rw [← hentries, hdefault] at hall
  obtain ⟨mac, port, -, hport, hgw⟩ := (List.forall₂_cons.mp hall).1
  have hname := (GwAddress.mk.inj hgw).2.2.1
  rw [sample_not_vlan10 hport] at hname
  exact absurd hname (by decide +kernel)

/-- The gateways are those of the default routes, each with the port of the first entry that was learned
    with its MAC in its VLAN, where VLANs are told apart by their low 16 bits; if all VLANs have 16 bits
    these are the VLANs themselves. Without success there is no list, whatever the two answers are. -/
theorem platStateGwIpGet_joins (calloc : Bool × Bool × Bool) (nei : Neighbours)
    (learned : List LearnedMac) : (∀ routes, GwRight SameLow calloc routes nei learned) ∧
      ((∀ m ∈ learned, 0 ≤ m.vid ∧ m.vid < 65536) →
        ∀ routes, GwRight (fun v k => v = k) calloc routes nei learned) ∧
      ∀ first second, ∃ ret st, platStateGwIpGet calloc first second nei learned .null =
        some (ret, st) ∧ (ret ≠ 0 → st = .null) := by
  refine ⟨fun routes => gwRight_low calloc routes nei learned,
    fun h16 routes => (gwRight_low calloc routes nei learned).of_uint16 h16, fun first second => ?_⟩
  rcases platStateGwIpGet_cases calloc first second nei learned .null with
    h | ⟨-, h⟩ | h | ⟨routes, entries, -, h, -⟩
  · exact ⟨-1, .null, h, fun _ => rfl⟩
  · exact ⟨0, .null, h, fun _ => rfl⟩
  · exact ⟨-1, .null, h, fun _ => rfl⟩
  · exact ⟨0, _, h, fun hret => absurd rfl hret⟩

theorem platStateGwIpGet_joins_vlan10 :
    (∀ routes, GwRight SameLow (true, true, true) routes sampleNei (sampleLearned 10)) ∧
      (∀ routes, GwRight (fun v k => v = k) (true, true, true) routes sampleNei (sampleLearned 10)) ∧
      ∀ first second, ∃ ret st, platStateGwIpGet (true, true, true) first second sampleNei
        (sampleLearned 10) .null = some (ret, st) ∧ (ret ≠ 0 → st = .null) :=
  ⟨(platStateGwIpGet_joins _ _ _).1,
    (platStateGwIpGet_joins _ _ _).2.1 (List.forall_mem_singleton.mpr (by decide)),
    (platStateGwIpGet_joins _ _ _).2.2⟩

end Ucentral.Plat.Gateways
