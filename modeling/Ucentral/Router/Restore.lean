import Ucentral.Router.Walk
import Ucentral.Lib.Json

/-! Static routes written to the switch and read back.

    `gnma_route_create` writes a JSON object with the prefix, the VRF and, by kind, a blackhole flag
    or an interface and a nexthop. `gnma_route_list_get` reads the objects back for the route cache
    that `plat_state_init` builds after a restore. For now it only knows blackhole routes: the other
    kinds are skipped, so the cache misses them and the next `config_router_apply` leaves them
    alone. -/

namespace Ucentral.Router
open Inet Merge Effect Plat CJson Decimal

/-! ### The object of a route -/

/-- `%d`. -/
def printInt (z : ℤ) : List Char := if z < 0 then '-' :: print z.natAbs else print z.natAbs

/-- The `prefix` member: `addr/len`. -/
def routePrefixText (p : IpPrefix) : String :=
  String.ofList (inetNtop p.ip ++ '/' :: printInt p.prefixLen)

/-- The members that depend on the kind of the route. -/
def routeAttrMembers : RouteAttrs → List (String × Json)
  | .blackhole => [("blackhole", .str "true,false")]
  | .connected vid => [("ifname", .str ("Vlan" ++ toString vid))]
  | .nexthop vid gw =>
    [("ifname", .str ("Vlan" ++ toString vid)), ("nexthop", .str (String.ofList (inetNtop gw)))]

/-- The object `gnma_route_create` puts into `STATIC_ROUTE_LIST`. -/
def staticRouteObj (p : IpPrefix) (a : RouteAttrs) : Json :=
  .obj (("prefix", .str (routePrefixText p)) :: ("vrf-name", .str "default") :: routeAttrMembers a)

/-! ### Reading the list back -/

/-- The locals of the loop of `gnma_route_list_get`: the prefix buffer, the number of routes found,
    and the entries filled in. -/
structure RouteScan where
  buf : InAddr
  cnt : ℕ
  out : List (IpPrefix × RouteAttrs)
  deriving DecidableEq

/-- Parse the prefix and the attributes of one object, and fill the list while there is room. -/
def routeListEntry (listSize : ℕ) (st : RouteScan) (entry : Json) : RouteScan :=
  match getStringValue (getItem (some entry) "prefix") with
  | none => st
  | some buf =>
    match inetNetPton buf.toList st.buf with
    | (none, addr) => { st with buf := addr }
    | (some len, addr) =>
      if (getItem (some entry) "blackhole").isSome then
        { buf := addr
          cnt := st.cnt + 1
          out := if st.cnt < listSize then st.out ++ [(⟨addr, len⟩, .blackhole)] else st.out }
      else { st with buf := addr }

/-- One turn of the loop: objects of another VRF are skipped. -/
def routeListStep (listSize : ℕ) (st : RouteScan) (entry : Json) : RouteScan :=
  match getStringValue (getItem (some entry) "vrf-name") with
  | some vrf => if vrf ≠ "default" then st else routeListEntry listSize st entry
  | none => routeListEntry listSize st entry

/-- `gnma_route_list_get` on the reply to its get (`none` if the get failed, `some none` if the text
    is not JSON): the return value, the size and the list. The prefix buffer starts out with what
    is on the stack. -/
def gnmaRouteListGet (vrId listSize : ℕ) (reply : Option Ptr) (stack : InAddr) :
    ℤ × ℕ × List (IpPrefix × RouteAttrs) :=
  if vrId ≠ 0 then (-1, listSize, [])
  else match reply with
    | none => (-1, listSize, [])
    | some root =>
      let st := (children (getItem root "sonic-static-route:STATIC_ROUTE_LIST")).foldl
        (routeListStep listSize) ⟨stack, 0, []⟩
      (if listSize < st.cnt then -2 else 0, st.cnt, st.out)

/-- `gnma_prefix2router_fib_key`. -/
def gnmaPrefix2routerFibKey (p : IpPrefix) : FibKey := ⟨p.ip, p.prefixLen⟩

/-- `gnma_attr2router_fib_info`. -/
def gnmaAttr2routerFibInfo : RouteAttrs → FibInfo
  | .blackhole => .blackhole
  | .connected vid => .connected vid
  | .nexthop vid gw => .nh vid gw

/-- The node the cache gets for a route that was read back. -/
def routeNode (x : IpPrefix × RouteAttrs) : FibNode :=
  ⟨gnmaPrefix2routerFibKey x.1, gnmaAttr2routerFibInfo x.2⟩

/-- The routes of `plat_state_init`: ask for the size, ask for the list, rebuild the table. -/
def platStateInitRoutes (reply : Option Ptr) (stack : InAddr) : Option Table :=
  let (ret, size, _) := gnmaRouteListGet 0 0 reply stack
  if ret ≠ 0 ∧ ret ≠ -2 then none
  else
    let (ret, size, list) := gnmaRouteListGet 0 size reply stack
    if ret ≠ 0 then none
    else list.foldlM (fun r x => fibDbAppend r (routeNode x)) (fibDbAlloc size)

/-! ### What is read is what was written, for blackholes -/

/-- A prefix length that an IPv4 prefix can have. -/
def CanonicalPrefix (p : IpPrefix) : Prop := 0 ≤ p.prefixLen ∧ p.prefixLen ≤ 32

theorem routePrefixText_eq {p : IpPrefix} (h : CanonicalPrefix p) :
    (routePrefixText p).toList = prefixText p.ip p.prefixLen.toNat := by
  have hneg : ¬ p.prefixLen < 0 := by have := h.1; omega
  have habs : p.prefixLen.natAbs = p.prefixLen.toNat := by have := h.1; omega
  rw [routePrefixText, String.toList_ofList, printInt, if_neg hneg, habs, prefixText]

/-- Reading a written prefix back gives the prefix, whatever the buffer held. -/
theorem inetNetPton_routePrefixText {p : IpPrefix} (h : CanonicalPrefix p) (stack : InAddr) :
    inetNetPton (routePrefixText p).toList stack = (some p.prefixLen.toNat, p.ip) := by
  rw [routePrefixText_eq h]
  exact inetNetPton_prefixText p.ip (by have := h.2; omega) stack

theorem getItem_prefix (p : IpPrefix) (a : RouteAttrs) :
    getItem (some (staticRouteObj p a)) "prefix" = some (.str (routePrefixText p)) := by
  rw [staticRouteObj, getItem_obj_cons, if_pos rfl]

theorem getItem_vrf (p : IpPrefix) (a : RouteAttrs) :
    getItem (some (staticRouteObj p a)) "vrf-name" = some (.str "default") := by
  rw [staticRouteObj, getItem_obj_cons, if_neg (by decide), getItem_obj_cons, if_pos rfl]

theorem getItem_blackhole (p : IpPrefix) (a : RouteAttrs) :
    (getItem (some (staticRouteObj p a)) "blackhole").isSome ↔ a = .blackhole := by
  rw [staticRouteObj, getItem_obj_cons, if_neg (by decide), getItem_obj_cons,
    if_neg (by decide)]
  cases a with
  | blackhole => simp [routeAttrMembers, getItem]
  | connected vid => simp [routeAttrMembers, getItem]
  | nexthop vid gw => simp [routeAttrMembers, getItem]

/-- One written object in one turn of the loop. -/
theorem routeListStep_obj {p : IpPrefix} (h : CanonicalPrefix p) (a : RouteAttrs) (listSize : ℕ)
    (st : RouteScan) :
    routeListStep listSize st (staticRouteObj p a) =
      if a = .blackhole then
        ⟨p.ip, st.cnt + 1, if st.cnt < listSize then st.out ++ [(p, a)] else st.out⟩
      else { st with buf := p.ip } := by
  have hlen : ((p.prefixLen.toNat : ℕ) : ℤ) = p.prefixLen := Int.toNat_of_nonneg h.1
  unfold routeListStep routeListEntry
  rw [getItem_vrf, getItem_prefix]
  simp only [getStringValue_str, ne_eq, not_true_eq_false, if_false,
    inetNetPton_routePrefixText h, getItem_blackhole, hlen]
  by_cases ha : a = .blackhole
  · rw [if_pos ha, if_pos ha, ha]
  · rw [if_neg ha, if_neg ha]

/-- The blackhole routes among the given ones. -/
def blackholes (routes : List (IpPrefix × RouteAttrs)) : List (IpPrefix × RouteAttrs) :=
  routes.filter (·.2 = .blackhole)

/-- The loop over the written objects counts the blackholes and keeps as many as there is room. -/
theorem routeListStep_foldl (listSize : ℕ) : ∀ (routes : List (IpPrefix × RouteAttrs))
    (st : RouteScan), (∀ x ∈ routes, CanonicalPrefix x.1) → st.out.length = min st.cnt listSize →
    let st' := (routes.map fun x => staticRouteObj x.1 x.2).foldl (routeListStep listSize) st
    st'.cnt = st.cnt + (blackholes routes).length ∧
      st'.out = st.out ++ (blackholes routes).take (listSize - st.cnt)
  | [], st, _, _ => by simp [blackholes]
  | (p, a) :: routes, st, hc, hlen => by
      have hp : CanonicalPrefix p := hc (p, a) (List.mem_cons_self ..)
      have hrest : ∀ x ∈ routes, CanonicalPrefix x.1 := fun x hx => hc x (List.mem_cons_of_mem _ hx)
      simp only [List.map_cons, List.foldl_cons, routeListStep_obj hp]
      by_cases ha : a = .blackhole
      · have hb : blackholes ((p, a) :: routes) = (p, a) :: blackholes routes := by
          simp [blackholes, ha]
        rw [if_pos ha, hb]
        by_cases hroom : st.cnt < listSize
        · -- the entry is kept
          rw [if_pos hroom]
          obtain ⟨hcnt, hout⟩ := routeListStep_foldl listSize routes
            ⟨p.ip, st.cnt + 1, st.out ++ [(p, a)]⟩ hrest (by simp [hlen]; omega)
          have hsub : listSize - st.cnt = (listSize - (st.cnt + 1)) + 1 := by omega
          refine ⟨by rw [hcnt]; simp; omega, ?_⟩
          rw [hout, hsub, List.take_succ_cons]
          simp
        · -- the list is full: only counted
          rw [if_neg hroom]
          obtain ⟨hcnt, hout⟩ := routeListStep_foldl listSize routes
            ⟨p.ip, st.cnt + 1, st.out⟩ hrest (by simp [hlen]; omega)
          refine ⟨by rw [hcnt]; simp; omega, ?_⟩
          rw [hout, show listSize - st.cnt = 0 by omega, show listSize - (st.cnt + 1) = 0 by omega]
          simp
      · have hb : blackholes ((p, a) :: routes) = blackholes routes := by simp [blackholes, ha]
        rw [if_neg ha, hb]
        exact routeListStep_foldl listSize routes { st with buf := p.ip } hrest hlen

/-! ### A switch that returns what it was sent -/

/-- The routes the switch was sent, oldest first. -/
abbrev RouteStore := List (IpPrefix × RouteAttrs)

/-- Its reply to a get of `STATIC_ROUTE_LIST`: the objects, as they were sent. -/
def storeReply (d : RouteStore) : Option Ptr :=
  some (some (.obj [("sonic-static-route:STATIC_ROUTE_LIST",
    .arr (d.map fun x => staticRouteObj x.1 x.2))]))

/-- Creating a route replaces the object of the same prefix. -/
def storeRequest (op : Op) (d : RouteStore) : Bool × RouteStore :=
  match op with
  | .routeCreate p a => (true, d.filter (·.1 ≠ p) ++ [(p, a)])
  | .routeRemove p => (true, d.filter (·.1 ≠ p))
  | _ => (true, d)

def storeDev : Dev RouteStore where
  request := storeRequest
  vlanList d := (none, d)
  vlanMembers d := (none, d)
  vlanErif _ d := (none, d)
  portList d := (none, d)
  dacHosts d := (none, d)
  radiusHosts d := (none, d)

/-- The attribute stored for a prefix. -/
def storeTbl (d : RouteStore) (p : IpPrefix) : Option RouteAttrs :=
  (d.find? (·.1 = p)).map (·.2)

theorem storeTbl_filter (d : RouteStore) (p q : IpPrefix) :
    storeTbl (d.filter (·.1 ≠ p)) q = if q = p then none else storeTbl d q := by
  induction d with
  | nil => simp [storeTbl]
  | cons x d ih =>
    unfold storeTbl at ih ⊢
    by_cases hx : x.1 = p
    · rw [List.filter_cons_of_neg (by simp [hx]), ih]
      by_cases hq : q = p
      · rw [if_pos hq, if_pos hq]
      · rw [if_neg hq, if_neg hq, List.find?_cons_of_neg (by simp [hx, Ne.symm hq])]
    · rw [List.filter_cons_of_pos (by simp [hx])]
      by_cases hxq : x.1 = q
      · have hqp : q ≠ p := fun h => hx (hxq.trans h)
        simp [hxq, hqp]
      · rw [List.find?_cons_of_neg (by simp [hxq]), ih, List.find?_cons_of_neg (by simp [hxq])]

theorem storeTbl_append (d : RouteStore) (p : IpPrefix) (a : RouteAttrs)
    (h : storeTbl d p = none) (q : IpPrefix) :
    storeTbl (d ++ [(p, a)]) q = if q = p then some a else storeTbl d q := by
  simp only [storeTbl, Option.map_eq_none_iff] at h ⊢
  rw [List.find?_append]
  by_cases hq : q = p
  · rw [if_pos hq, hq, h]
    simp
  · rw [if_neg hq, List.find?_cons_of_neg (by simp [Ne.symm hq])]
    simp

/-- The store keeps routes and grants everything. -/
def storeSwitch : RouteSwitch RouteStore where
  dev := storeDev
  tbl := storeTbl
  willing _ := True
  effect op d _ := by
    funext q
    cases op with
    | routeCreate p a =>
      have hnone : storeTbl (d.filter (·.1 ≠ p)) p = none := by
        rw [storeTbl_filter, if_pos rfl]
      simp only [storeDev, storeRequest, routeEffect, storeTbl_append _ _ _ hnone,
        storeTbl_filter, Function.update_apply]
      by_cases hq : q = p
      · simp [hq]
      · simp [hq]
    | routeRemove p =>
      simp only [storeDev, storeRequest, routeEffect, storeTbl_filter, Function.update_apply]
    | _ => rfl
  willing_granted op d _ := by cases op <;> rfl
  willing_step _ _ _ := trivial

/-- The state of a client that has not sent anything to an empty store. -/
def storeStart : St RouteStore := ⟨⟨{}, []⟩, []⟩

/-- Send routes one after another. -/
def createRoutes (routes : List (IpPrefix × RouteAttrs)) : ApplyM RouteStore Unit :=
  forM routes fun x => gnmaRouteCreate storeDev 0 x.1 x.2

/-- Routes with new prefixes are appended to the store. -/
theorem createRoutes_run : ∀ (routes : List (IpPrefix × RouteAttrs)) (s : St RouteStore),
    ((s.state.dev ++ routes).map Prod.fst).Nodup →
    ∃ l, createRoutes routes s =
      (.ok (), ⟨{ s.state with dev := s.state.dev ++ routes }, s.log ++ l⟩)
  | [], s, _ => ⟨[], by simp [createRoutes]⟩
  | (p, a) :: routes, s, hd => by
      have hnew : s.state.dev.filter (·.1 ≠ p) = s.state.dev := by
        rw [List.filter_eq_self]
        intro x hx
        rw [List.map_append, List.nodup_append] at hd
        have := hd.2.2 x.1 (List.mem_map_of_mem hx) p (by simp)
        simpa using this
      have hstep : gnmaRouteCreate storeDev 0 p a s =
          (.ok (), ⟨{ s.state with dev := s.state.dev ++ [(p, a)] },
            s.log ++ [(.routeCreate p a, true)]⟩) := by
        rw [gnmaRouteCreate, if_neg (by simp), gnmiRequest_run]
        simp only [storeDev, storeRequest, hnew, if_true]
      obtain ⟨l, hl⟩ := createRoutes_run routes
        ⟨{ s.state with dev := s.state.dev ++ [(p, a)] }, s.log ++ [(.routeCreate p a, true)]⟩
        (by simpa using hd)
      refine ⟨(.routeCreate p a, true) :: l, ?_⟩
      rw [createRoutes, List.forM_cons, Prog.bind_run_ok hstep]
      rw [createRoutes] at hl
      rw [hl]
      simp

/-! ### The cache after a restore -/

theorem gnmaRouteListGet_store {d : RouteStore} (hc : ∀ x ∈ d, CanonicalPrefix x.1) (n : ℕ)
    (stack : InAddr) :
    gnmaRouteListGet 0 n (storeReply d) stack =
      (if n < (blackholes d).length then -2 else 0, (blackholes d).length,
        (blackholes d).take n) := by
  obtain ⟨hcnt, hout⟩ := routeListStep_foldl n d ⟨stack, 0, []⟩ hc (by simp)
  simp only [List.nil_append, Nat.sub_zero, Nat.zero_add] at hcnt hout
  unfold gnmaRouteListGet storeReply
  rw [if_neg (by simp)]
  simp only [getItem_obj_cons, if_true, children, hcnt, hout]

theorem fibDbAppend_foldlM : ∀ (ns : List (IpPrefix × RouteAttrs)) (r : Table),
    r.arr.length + ns.length ≤ r.max →
    ∃ t, ns.foldlM (fun r x => fibDbAppend r (routeNode x)) r = some t ∧
      t.arr = r.arr ++ ns.map routeNode
  | [], r, _ => ⟨r, rfl, by simp⟩
  | x :: ns, r, h => by
      have hroom : ¬ r.arr.length = r.max := by simp at h; omega
      rw [List.foldlM_cons, fibDbAppend, dif_neg hroom]
      obtain ⟨t, ht, harr⟩ := fibDbAppend_foldlM ns
        ⟨r.arr ++ [routeNode x], r.max, false, by simp at h ⊢; omega, by simp⟩
        (by simp at h ⊢; omega)
      refine ⟨t, ht, ?_⟩
      rw [harr]
      simp

/-- The rebuilt table holds the blackholes of the store, in order. -/
theorem platStateInitRoutes_store {d : RouteStore} (hc : ∀ x ∈ d, CanonicalPrefix x.1)
    (stack : InAddr) :
    ∃ t, platStateInitRoutes (storeReply d) stack = some t ∧
      t.arr = (blackholes d).map routeNode := by
  obtain ⟨t, ht, harr⟩ := fibDbAppend_foldlM (blackholes d) (fibDbAlloc (blackholes d).length)
    (by simp [fibDbAlloc])
  refine ⟨t, ?_, by simpa [fibDbAlloc] using harr⟩
  rw [platStateInitRoutes, gnmaRouteListGet_store hc]
  simp only [gnmaRouteListGet_store hc, lt_self_iff_false, if_false, List.take_length]
  rw [if_neg (by split <;> simp), if_neg (by simp)]
  exact ht

theorem gpref_routeNode (x : IpPrefix × RouteAttrs) : (routeNode x).gpref = x.1 := rfl

/-- The state of a client that restarts on a switch: only the route cache is rebuilt here. -/
def restarted (d : RouteStore) (t : Table) : St RouteStore := ⟨⟨{ router := t }, d⟩, []⟩

/-- Of the routes sent to a switch that returns what it was sent, exactly the blackholes are read
    back, the rebuilt cache holds exactly them, and the next `config_router_apply` removes those of
    them that its configuration lacks. -/
theorem blackholes_survive_restore (routes : List (IpPrefix × RouteAttrs)) (stack : InAddr)
    (hd : (routes.map Prod.fst).Nodup) (hc : ∀ x ∈ routes, CanonicalPrefix x.1) :
    (createRoutes routes storeStart).1 = .ok () ∧
    (∀ n, (blackholes routes).length ≤ n →
      gnmaRouteListGet 0 n (storeReply (createRoutes routes storeStart).2.state.dev) stack =
        (0, (blackholes routes).length, blackholes routes)) ∧
    ∃ t, platStateInitRoutes (storeReply (createRoutes routes storeStart).2.state.dev) stack =
        some t ∧
      t.arr = (blackholes routes).map routeNode ∧
      ∀ (qs : Qsort) (cfg : PlatCfg) (u : St RouteStore),
        ((∀ n ∈ cfg.router.arr, n.gattr.isSome) →
          (configRouterApply qs storeDev cfg
            (restarted (createRoutes routes storeStart).2.state.dev t)).1 = .ok ()) ∧
        (configRouterApply qs storeDev cfg
            (restarted (createRoutes routes storeStart).2.state.dev t) = (.ok (), u) →
          ∀ x ∈ blackholes routes, x.1 ∉ cfg.router.arr.map FibNode.gpref →
            storeTbl u.state.dev x.1 = none) := by
  obtain ⟨l, hrun⟩ := createRoutes_run routes storeStart hd
  have hdev : (createRoutes routes storeStart).2.state.dev = routes := by rw [hrun]; rfl
  refine ⟨by rw [hrun], ?_, ?_⟩
  · intro n hn
    rw [hdev, gnmaRouteListGet_store hc, if_neg (by omega), List.take_of_length_le hn]
  · obtain ⟨t, ht, harr⟩ := platStateInitRoutes_store hc stack
    rw [hdev]
    refine ⟨t, ht, harr, fun qs cfg u => ?_⟩
    obtain ⟨l, hcall⟩ := call_configRouterApply storeSwitch qs (restarted routes t) cfg.router
    refine ⟨fun hk => hcall.succeeds trivial ?_, ?_⟩
    · refine supported_of_gattr (fun n hn => hk n ?_)
      exact (ensureSorted_perm qs (fibDbCopy cfg.router)).mem_iff.mp hn
    · intro happ x hx hlack
      have hu : u = (configRouterApply qs storeDev cfg (restarted routes t)).2 := by rw [happ]
      have hcached : x.1 ∈ (restarted routes t).state.cache.router.arr.map FibNode.gpref := by
        simp only [restarted, harr, List.map_map]
        exact List.mem_map.mpr ⟨x, hx, gpref_routeNode x⟩
      rw [hu]
      exact hcall.removes storeSwitch (congrArg Prod.fst happ) (hcall.granted trivial) hcached hlack

/-- 10.0.0.0/8 through a gateway, and 10.1.0.0/16 into a blackhole. -/
def nexthopRoute : IpPrefix × RouteAttrs := (⟨.ofOctets 10 0 0 0, 8⟩, .nexthop 10 (.ofOctets 192 168 0 1))

def blackholeRoute : IpPrefix × RouteAttrs := (⟨.ofOctets 10 1 0 0, 16⟩, .blackhole)

/-- Both are sent; the blackhole comes back. -/
theorem blackholes_survive_restore_of_two :
    (gnmaRouteListGet 0 1
      (storeReply (createRoutes [nexthopRoute, blackholeRoute] storeStart).2.state.dev)
      InAddr.zero).2.2 = [blackholeRoute] := by
  have h := (blackholes_survive_restore [nexthopRoute, blackholeRoute] InAddr.zero (by decide) (by
    intro x hx
    rcases List.mem_pair.mp hx with rfl | rfl <;>
      simp [CanonicalPrefix, nexthopRoute, blackholeRoute])).2.1 1 (by decide)
  rw [h]
  decide

/-- The nexthop route is written and not read back: the rebuilt cache is empty, and applying an
    empty configuration leaves the route on the switch. -/
theorem nexthop_lost_by_restore :
    (createRoutes [nexthopRoute] storeStart).1 = .ok () ∧
    gnmaRouteListGet 0 1 (storeReply (createRoutes [nexthopRoute] storeStart).2.state.dev)
      InAddr.zero = (0, 0, []) ∧
    (platStateInitRoutes (storeReply (createRoutes [nexthopRoute] storeStart).2.state.dev)
      InAddr.zero).map Table.arr = some [] ∧
    (configRouterApply insertionQsort storeDev {}
      (restarted (createRoutes [nexthopRoute] storeStart).2.state.dev (fibDbAlloc 0))).1 = .ok () ∧
    storeTbl (configRouterApply insertionQsort storeDev {}
      (restarted (createRoutes [nexthopRoute] storeStart).2.state.dev (fibDbAlloc 0))).2.state.dev
      nexthopRoute.1 = some nexthopRoute.2 := by
  refine ⟨rfl, by decide, by decide, rfl, by decide⟩

end Ucentral.Router
