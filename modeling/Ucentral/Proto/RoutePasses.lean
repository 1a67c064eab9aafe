import Ucentral.Proto.CfgParse

/-! The two passes over the routes of a configuration.

    `cfg_router_parse` goes through all routes twice: without a table, to count them, and again with a
    table of that size, where nobody looks at what the appends return. The address functions of the
    C library are parameters here; with those that read as glibc does, the second pass is the parser of
    the whole configuration. -/

namespace Ucentral.Proto.RoutePasses
open CJson Inet Router Plat Parse

/-! ### The traversal -/

/-- `inet_net_pton` and `inet_pton`: what they return, and the destination. -/
structure Libc where
  inetNetPton : List Char → InAddr → Option ℕ × InAddr
  inetPton : List Char → Option InAddr

/-- The whole address is written, whatever was there before. -/
def Libc.Whole (lib : Libc) : Prop := ∀ s a b, lib.inetNetPton s a = lib.inetNetPton s b

def glibc : Libc := ⟨Inet.inetNetPton, Inet.inetPton⟩

/-- The locals of `cfg_process_prefixes` and what `router` points to, with the number of appends that
    have failed. -/
structure Pass where
  index : ℕ
  node : FibNode
  router : Option Table
  refused : ℕ

/-- The key as `inet_net_pton` leaves it, with -1 for the length of what it refuses. -/
def Libc.readKey (lib : Libc) (s : List Char) (old : InAddr) : FibKey :=
  let r := lib.inetNetPton s old
  ⟨r.2, r.1.elim (-1) fun n => n⟩

/-- A test of the locals. -/
def test (f : Pass → Bool) : Parser Pass Unit := fun p => need (f p) p

/-- `route_prefix_obj2node_key` -/
def routePrefixObj2nodeKey (lib : Libc) (obj : Json) : Parser Pass Unit := do
  let addrStr := getItem (some obj) "prefix"
  need (isString addrStr)
  Parser.fill fun p =>
    { p with node := { p.node with key := lib.readKey (strOf addrStr).toList p.node.key.pref } }
  test fun p => decide (p.node.key.prefixLen ≠ -1)

/-- The four loops, one for each kind of route. -/
inductive Kind
  | blackhole
  | unreachable
  | gateway (vid : ℕ)
  | broadcast (vid : ℕ)
  deriving DecidableEq

def setInfo (info : FibInfo) : Parser Pass Unit :=
  Parser.fill fun p => { p with node := { p.node with info := info } }

/-- What a loop stores in `node.info`. -/
def Kind.fill (lib : Libc) (iter : Json) : Kind → Parser Pass Unit
  | blackhole => setInfo .blackhole
  | unreachable => setInfo .unreachable
  | gateway vid => do
    let addrStr := getItem (some iter) "nexthop"
    let gw := lib.inetPton (strOf addrStr).toList
    need (isString addrStr && gw.isSome)
    setInfo (.nh vid (gw.getD InAddr.zero))
  | broadcast vid => setInfo (.broadcast vid)

/-- `if (!router) continue;` -/
def withRouter (x : Parser Pass Unit) : Parser Pass Unit := fun p =>
  match p.router with
  | none => (.ok (), p)
  | some _ => x p

/-- `ucentral_router_fib_db_append(router, &node);` -/
def append (p : Pass) : Pass :=
  match p.router with
  | none => p
  | some r =>
    match fibDbAppend r p.node with
    | none => { p with refused := p.refused + 1 }
    | some r' => { p with router := some r' }

/-- One turn of a loop. -/
def turn (lib : Libc) (kind : Kind) (iter : Json) : Parser Pass Unit := do
  Parser.fill fun p => { p with index := p.index + 1 }
  withRouter (do
    routePrefixObj2nodeKey lib iter
    kind.fill lib iter
    Parser.fill append)

/-- The two loops inside the one over the interfaces. -/
def interfaceTurns (lib : Libc) (interface : Json) : Parser Pass Unit :=
  let vid := cfgInterface2vid (some interface)
  Parser.when (decide (vid ≠ maxVlans)) (do
    forM (gatewaysOf interface) (turn lib (.gateway vid))
    forM (broadcastsOf interface) (turn lib (.broadcast vid)))

/-- `cfg_process_prefixes` -/
def cfgProcessPrefixes (lib : Libc) (root : Ptr) : Parser Pass Unit := do
  forM (blackholesOf root) (turn lib .blackhole)
  forM (unreachablesOf root) (turn lib .unreachable)
  forM (children (getItemCI root "interfaces")) (interfaceTurns lib)

/-- The first pass, and the number it returns. -/
def countPass (lib : Libc) (root : Ptr) (node : FibNode) : Except Stop Unit × Pass :=
  cfgProcessPrefixes lib root ⟨0, node, none, 0⟩

/-- `cfg_router_parse`, with what the stack holds in `node` when each pass begins. -/
def cfgRouterParse (lib : Libc) (root : Ptr) (node node' : FibNode) : Option Pass :=
  match countPass lib root node with
  | (.error _, _) => none
  | (.ok _, counted) =>
    match cfgProcessPrefixes lib root ⟨0, node', some (fibDbAlloc counted.index), 0⟩ with
    | (.error _, _) => none
    | (.ok _, filled) => some filled

/-! ### The routes of a configuration -/

/-- The elements below an interface; one without a VLAN is passed over. -/
def elementsOf (interface : Json) : List (Kind × Json) :=
  let vid := cfgInterface2vid (some interface)
  if vid = maxVlans then []
  else (gatewaysOf interface).map (Kind.gateway vid, ·) ++
    (broadcastsOf interface).map (Kind.broadcast vid, ·)

/-- All elements, in the order of the loops. -/
def elements (root : Ptr) : List (Kind × Json) :=
  (blackholesOf root).map (Kind.blackhole, ·) ++ ((unreachablesOf root).map (Kind.unreachable, ·) ++
    (children (getItemCI root "interfaces")).flatMap elementsOf)

def elementTurn (lib : Libc) (e : Kind × Json) : Parser Pass Unit := turn lib e.1 e.2

theorem forM_flatMap {α β : Type} {f : β → Parser Pass Unit} {g : α → List β} {h : α → Parser Pass Unit}
    (hg : ∀ a, h a = forM (g a) f) : ∀ l : List α, forM l h = forM (l.flatMap g) f
  | [] => rfl
  | a :: l => by rw [List.forM_cons, List.flatMap_cons, List.forM_append, hg, forM_flatMap hg l]

theorem interfaceTurns_eq (lib : Libc) (interface : Json) :
    interfaceTurns lib interface = forM (elementsOf interface) (elementTurn lib) := by
  unfold interfaceTurns elementsOf
  by_cases hvid : cfgInterface2vid (some interface) = maxVlans
  · simp only [hvid, ne_eq, not_true_eq_false, decide_false, if_true]
    rfl
  · simp only [hvid, ne_eq, not_false_eq_true, decide_true, if_false]
    rw [List.forM_append, List.forM_map, List.forM_map]
    rfl

/-- The nested loops are one loop over the elements. -/
theorem cfgProcessPrefixes_eq (lib : Libc) (root : Ptr) :
    cfgProcessPrefixes lib root = forM (elements root) (elementTurn lib) := by
  unfold cfgProcessPrefixes elements
  rw [List.forM_append, List.forM_append, List.forM_map, List.forM_map,
    forM_flatMap (interfaceTurns_eq lib)]
  rfl

/-! ### The first pass -/

theorem turn_count (lib : Libc) (e : Kind × Json) {p : Pass} (h : p.router = none) :
    elementTurn lib e p = (.ok (), { p with index := p.index + 1 }) := by
  unfold elementTurn turn
  rw [fill_bind]
  unfold withRouter
  simp only [h]

/-- Without a table nothing stops the pass. -/
theorem forM_count (lib : Libc) : ∀ (es : List (Kind × Json)) {p : Pass}, p.router = none →
    forM es (elementTurn lib) p = (.ok (), { p with index := p.index + es.length })
  | [], _, _ => rfl
  | e :: es, p, h => by
      rw [List.forM_cons]
      have hrest := forM_count lib es (p := { p with index := p.index + 1 }) h
      refine (Parser.bind_of_ok (turn_count lib e h)).trans (hrest.trans ?_)
      simp only [List.length_cons, Nat.add_assoc, Nat.add_comm 1]

theorem countPass_eq (lib : Libc) (root : Ptr) (node : FibNode) :
    countPass lib root node = (.ok (), ⟨(elements root).length, node, none, 0⟩) := by
  unfold countPass
  rw [cfgProcessPrefixes_eq, forM_count lib _ rfl, Nat.zero_add]

/-! ### The second pass -/

/-- The key that the library reads from a text, whatever the destination holds. -/
def Libc.Reads (lib : Libc) (s : String) (key : FibKey) : Prop :=
  ∃ len, key.prefixLen = (len : ℕ) ∧ ∀ old, lib.inetNetPton s.toList old = (some len, key.pref)

/-- The information of a route. -/
def Kind.Describes (lib : Libc) (iter : Json) (info : FibInfo) : Kind → Prop
  | blackhole => info = .blackhole
  | unreachable => info = .unreachable
  | gateway vid => ∃ s gw, getItem (some iter) "nexthop" = some (.str s) ∧
      lib.inetPton s.toList = some gw ∧ info = .nh vid gw
  | broadcast vid => info = .broadcast vid

/-- The node is that of the element. -/
structure Entry (lib : Libc) (e : Kind × Json) (n : FibNode) : Prop where
  key : ∃ s, getItem (some e.2) "prefix" = some (.str s) ∧ lib.Reads s n.key
  info : e.1.Describes lib e.2 n.info

/-- The node as a turn stores it, with the address that the destination held before. -/
structure Added (lib : Libc) (e : Kind × Json) (old : InAddr) (n : FibNode) : Prop where
  key : ∃ s len, getItem (some e.2) "prefix" = some (.str s) ∧
    lib.inetNetPton s.toList old = (some len, n.key.pref) ∧ n.key.prefixLen = len
  info : e.1.Describes lib e.2 n.info

theorem Added.entry {lib : Libc} (hwhole : lib.Whole) {e : Kind × Json} {old : InAddr} {n : FibNode}
    (h : Added lib e old n) : Entry lib e n := by
  obtain ⟨⟨s, len, hs, hread, hlen⟩, hinfo⟩ := h
  exact ⟨⟨s, hs, len, hlen, fun old' => (hwhole _ _ _).trans hread⟩, hinfo⟩

theorem isString_iff {j : Ptr} : isString j = true ↔ ∃ s, j = some (.str s) := by
  constructor
  · intro h
    match j, h with
    | some (.str s), _ => exact ⟨s, rfl⟩
  · rintro ⟨s, rfl⟩
    rfl

/-- A prefix is read over what the node held, or refused. -/
theorem routePrefixObj2nodeKey_cases (lib : Libc) (obj : Json) (p : Pass) :
    (∃ s len addr, getItem (some obj) "prefix" = some (.str s) ∧
      lib.inetNetPton s.toList p.node.key.pref = (some len, addr) ∧
      routePrefixObj2nodeKey lib obj p =
        (.ok (), { p with node := { p.node with key := ⟨addr, len⟩ } })) ∨
    ∃ q, routePrefixObj2nodeKey lib obj p = (.error .reject, q) ∧ q.router = p.router := by
  unfold routePrefixObj2nodeKey
  cases hstring : isString (getItem (some obj) "prefix") with
  | false => exact Or.inr ⟨p, rfl, rfl⟩
  | true =>
    obtain ⟨s, hs⟩ := isString_iff.mp hstring
    rw [hs, need_bind, if_pos rfl, fill_bind]
    dsimp only [test, strOf, getStringValue, Option.getD_some, Libc.readKey]
    cases hread : lib.inetNetPton s.toList p.node.key.pref with
    | mk r addr =>
      cases r with
      | none => exact Or.inr ⟨_, rfl, rfl⟩
      | some len => exact Or.inl ⟨s, len, addr, rfl, hread, rfl⟩

/-- What a loop stores is what the element describes, or it refuses the element. -/
theorem Kind.fill_cases (lib : Libc) (iter : Json) (kind : Kind) (p : Pass) :
    (∃ info, kind.Describes lib iter info ∧
      kind.fill lib iter p = (.ok (), { p with node := { p.node with info := info } })) ∨
    kind.fill lib iter p = (.error .reject, p) := by
  cases kind with
  | blackhole => exact Or.inl ⟨_, rfl, rfl⟩
  | unreachable => exact Or.inl ⟨_, rfl, rfl⟩
  | broadcast vid => exact Or.inl ⟨_, rfl, rfl⟩
  | gateway vid =>
    simp only [Kind.fill]
    rw [need_bind]
    split
    · rename_i hread
      rw [Bool.and_eq_true] at hread
      obtain ⟨s, hs⟩ := isString_iff.mp hread.1
      obtain ⟨gw, hgw⟩ := Option.isSome_iff_exists.mp hread.2
      rw [hs] at hgw ⊢
      rw [hgw]
      exact Or.inl ⟨_, ⟨s, gw, hs, hgw, rfl⟩, rfl⟩
    · exact Or.inr rfl

/-- There is room for one more. -/
theorem append_room {p : Pass} {r : Table} (hr : p.router = some r) (h : r.arr.length < r.max) :
    ∃ r', append p = { p with router := some r' } ∧ r'.max = r.max ∧ r'.arr = r.arr ++ [p.node] := by
  unfold append fibDbAppend
  simp only [hr, dif_neg h.ne]
  exact ⟨_, rfl, rfl, rfl⟩

/-- A turn with a table. -/
theorem turn_eq (lib : Libc) (kind : Kind) (iter : Json) {p : Pass} {r : Table} (hr : p.router = some r) :
    turn lib kind iter p =
      (routePrefixObj2nodeKey lib iter >>= fun _ => kind.fill lib iter >>= fun _ => Parser.fill append)
        { p with index := p.index + 1 } := by
  unfold turn
  rw [fill_bind]
  unfold withRouter
  simp only [hr]

/-- One element goes into the table, or the pass stops before. -/
theorem turn_cases (lib : Libc) (e : Kind × Json) {p : Pass} {r : Table} (hr : p.router = some r)
    (hroom : r.arr.length < r.max) :
    (∃ n r', Added lib e p.node.key.pref n ∧ r'.max = r.max ∧ r'.arr = r.arr ++ [n] ∧
      elementTurn lib e p = (.ok (), ⟨p.index + 1, n, some r', p.refused⟩)) ∨
    ∃ q, elementTurn lib e p = (.error .reject, q) ∧ q.router = some r := by
  unfold elementTurn
  rw [turn_eq lib e.1 e.2 hr]
  rcases routePrefixObj2nodeKey_cases lib e.2 { p with index := p.index + 1 } with
    ⟨s, len, addr, hs, hread, hkey⟩ | ⟨q, hkey, hq⟩
  · rw [Parser.bind_of_ok hkey]
    rcases Kind.fill_cases lib e.2 e.1 ⟨p.index + 1, { p.node with key := ⟨addr, len⟩ }, p.router,
      p.refused⟩ with ⟨info, hdescribes, hfill⟩ | hfill
    · obtain ⟨r', happend, hmax, harr⟩ :=
        append_room (p := ⟨p.index + 1, ⟨⟨addr, len⟩, info⟩, p.router, p.refused⟩) hr hroom
      refine Or.inl ⟨⟨⟨addr, len⟩, info⟩, r', ⟨⟨s, len, hs, hread, rfl⟩, hdescribes⟩, hmax, harr, ?_⟩
      rw [Parser.bind_of_ok hfill]
      exact congrArg (Prod.mk _) happend
    · rw [Parser.bind_of_error hfill]
      exact Or.inr ⟨_, rfl, hr⟩
  · rw [Parser.bind_of_error hkey]
    exact Or.inr ⟨q, rfl, hq.trans hr⟩

/-- As long as there is room for all of them, no append fails. -/
theorem forM_fill {lib : Libc} (hwhole : lib.Whole) : ∀ (es : List (Kind × Json)) {p : Pass} {r : Table},
    p.router = some r → r.arr.length + es.length ≤ r.max → (forM es (elementTurn lib) p).1 = .ok () →
    ∃ ns r', (forM es (elementTurn lib) p).2.router = some r' ∧ List.Forall₂ (Entry lib) es ns ∧
      r'.max = r.max ∧ r'.arr = r.arr ++ ns ∧ (forM es (elementTurn lib) p).2.refused = p.refused
  | [], p, r, hr, _, _ => ⟨[], r, hr, .nil, rfl, (List.append_nil _).symm, rfl⟩
  | e :: es, p, r, hr, hroom, h => by
      rw [List.length_cons] at hroom
      rw [List.forM_cons] at h ⊢
      rcases turn_cases lib e hr (by omega) with ⟨n, r₁, hadded, hmax₁, harr₁, hturn⟩ | ⟨q, hturn, -⟩
      swap
      · rw [Parser.bind_of_error hturn] at h
        cases h
      rw [Parser.bind_of_ok hturn] at h ⊢
      have hroom₁ : r₁.arr.length + es.length ≤ r₁.max := by
        rw [harr₁, hmax₁, List.length_append, List.length_singleton]
        omega
      obtain ⟨ns, r', hr', hentries, hmax, harr, hrefused⟩ := forM_fill hwhole es rfl hroom₁ h
      refine ⟨n :: ns, r', hr', .cons (hadded.entry hwhole) hentries, hmax.trans hmax₁, ?_, hrefused⟩
      rw [harr, harr₁, List.append_assoc]
      rfl

/-- An accepted configuration fills its table exactly, for every configuration and every stack. -/
theorem cfgRouterParse_fills {lib : Libc} (hwhole : lib.Whole) {root : Ptr} {node node' : FibNode}
    {p : Pass} (h : cfgRouterParse lib root node node' = some p) :
    (countPass lib root node).1 = .ok () ∧
    ∃ r, p.router = some r ∧ r.arr.length = (countPass lib root node).2.index ∧
      r.max = (countPass lib root node).2.index ∧ p.refused = 0 ∧
      List.Forall₂ (Entry lib) (elements root) r.arr := by
  unfold cfgRouterParse at h
  rw [countPass_eq] at h ⊢
  rw [cfgProcessPrefixes_eq] at h
  dsimp only at h ⊢
  split at h
  · cases h
  · rename_i filled hrun
    cases h
    have hok := congrArg Prod.fst hrun
    have hroom : (fibDbAlloc (elements root).length).arr.length + (elements root).length ≤
        (fibDbAlloc (elements root).length).max := (Nat.zero_add _).le
    obtain ⟨ns, r, hr, hentries, hmax, harr, hrefused⟩ := forM_fill hwhole _ rfl hroom hok
    rw [hrun] at hr hrefused
    obtain rfl : r.arr = ns := harr
    exact ⟨rfl, r, hr, hentries.length_eq.symm, hmax, hrefused, hentries⟩

/-- One black hole and an interface with a gateway. -/
def gatewayConfig : Ptr :=
  some (.obj [
    ("globals", .obj [("ipv4-blackhole", .arr [.obj [("prefix", .str "10.1.0.0/16")]])]),
    ("interfaces", .arr [.obj [("vlan", .obj [("id", .num (.fin 7))]),
      ("ipv4", .obj [("gateway", .arr
        [.obj [("prefix", .str "0.0.0.0/0"), ("nexthop", .str "10.7.0.1")]])])]])])

/-- The readers on a cleared destination. -/
def cleared : Libc := ⟨fun s _ => Inet.inetNetPton s InAddr.zero, Inet.inetPton⟩

def emptyNode : FibNode := ⟨⟨InAddr.zero, 0⟩, .blackhole⟩

theorem gatewayConfig_fills : ∃ p r, cfgRouterParse cleared gatewayConfig emptyNode emptyNode = some p ∧
    p.router = some r ∧ r.arr.length = 2 := by
  obtain ⟨p, hp⟩ : ∃ p, cfgRouterParse cleared gatewayConfig emptyNode emptyNode = some p :=
    Option.isSome_iff_exists.mp (by decide +kernel)
  obtain ⟨-, r, hr, hlen, -⟩ := cfgRouterParse_fills (fun _ _ _ => rfl) hp
  refine ⟨p, r, hp, hr, hlen.trans ?_⟩
  rw [countPass_eq]
  decide +kernel

/-! ### The parser of the configuration -/

/-- From the same table and the same destination both stop alike, with the same table and destination. -/
def Same (x : Parser RouteFill Unit) (y : Parser Pass Unit) : Prop :=
  ∀ p r, p.router = some r →
    ∃ r', (y p).2.router = some r' ∧ x ⟨r, p.node.key.pref⟩ = ((y p).1, ⟨r', (y p).2.node.key.pref⟩)

theorem same_bind {x x' : Parser RouteFill Unit} {y y' : Parser Pass Unit} (h : Same x y)
    (h' : Same x' y') : Same (x >>= fun _ => x') (y >>= fun _ => y') := by
  intro p r hr
  obtain ⟨r₁, hr₁, hrun⟩ := h p r hr
  cases hy : y p with
  | mk res q =>
    rw [hy] at hr₁ hrun
    cases res with
    | error e =>
      refine ⟨r₁, ?_, (Parser.bind_of_error hrun).trans ?_⟩
      · rw [Parser.bind_of_error hy]
        exact hr₁
      · rw [Parser.bind_of_error hy]
    | ok _ =>
      obtain ⟨r₂, hr₂, hrun₂⟩ := h' q r₁ hr₁
      refine ⟨r₂, ?_, (Parser.bind_of_ok hrun).trans ?_⟩
      · rw [Parser.bind_of_ok hy]
        exact hr₂
      · rw [Parser.bind_of_ok hy]
        exact hrun₂

theorem same_forM {α : Type} {f : α → Parser RouteFill Unit} {g : α → Parser Pass Unit}
    (h : ∀ a, Same (f a) (g a)) : ∀ l : List α, Same (forM l f) (forM l g)
  | [] => fun _ r hr => ⟨r, hr, rfl⟩
  | a :: l => by
      rw [List.forM_cons, List.forM_cons]
      exact same_bind (h a) (same_forM h l)

theorem same_when {x : Parser RouteFill Unit} {y : Parser Pass Unit} (b : Bool) (h : Same x y) :
    Same (Parser.when b x) (Parser.when b y) := by
  cases b with
  | false => exact fun _ r hr => ⟨r, hr, rfl⟩
  | true => exact h

/-- Both read the key of an element, or refuse it. -/
theorem routePrefixObj2nodeKey_same (obj : Json) (p : Pass) (r : Table) :
    (∃ key, routePrefixObj2nodeKey glibc obj p =
        (.ok (), { p with node := { p.node with key := key } }) ∧
      Proto.routePrefixObj2nodeKey obj ⟨r, p.node.key.pref⟩ = (.ok (), ⟨r, key.pref⟩) ∧
      key.prefixLen = ((netWidth (strOf (getItem (some obj) "prefix")).toList).getD 0 : ℕ)) ∨
    (∃ q, routePrefixObj2nodeKey glibc obj p = (.error .reject, q) ∧ q.router = p.router ∧
      Proto.routePrefixObj2nodeKey obj ⟨r, p.node.key.pref⟩ =
        (.error .reject, ⟨r, q.node.key.pref⟩)) := by
  unfold routePrefixObj2nodeKey Proto.routePrefixObj2nodeKey
  cases hstring : isString (getItem (some obj) "prefix") with
  | false => exact Or.inr ⟨p, rfl, rfl, rfl⟩
  | true =>
    obtain ⟨s, hs⟩ := isString_iff.mp hstring
    rw [hs]
    have hwidth := inetNetPton_fst s.toList p.node.key.pref
    cases hread : netWidth s.toList with
    | none =>
      rw [hread] at hwidth
      refine Or.inr ⟨{ p with node := { p.node with
        key := glibc.readKey s.toList p.node.key.pref } }, ?_, rfl, ?_⟩
      · change (need (decide ((glibc.readKey s.toList p.node.key.pref).prefixLen ≠ -1)) :
          Parser Pass Unit) _ = _
        have hlen : (glibc.readKey s.toList p.node.key.pref).prefixLen = -1 := by
          simp only [Libc.readKey, glibc, hwidth, Option.elim]
        rw [hlen]
        rfl
      · change (need (netWidth s.toList).isSome : Parser RouteFill Unit) _ = _
        rw [hread]
        rfl
    | some n =>
      rw [hread] at hwidth
      have hlen : (glibc.readKey s.toList p.node.key.pref).prefixLen = n := by
        simp only [Libc.readKey, glibc, hwidth, Option.elim]
      refine Or.inl ⟨glibc.readKey s.toList p.node.key.pref, ?_, ?_, ?_⟩
      · change (need (decide ((glibc.readKey s.toList p.node.key.pref).prefixLen ≠ -1)) :
          Parser Pass Unit) _ = _
        rw [hlen]
        rfl
      · change (need (netWidth s.toList).isSome : Parser RouteFill Unit) _ = _
        rw [hread]
        rfl
      · rw [hlen]
        change ((n : ℕ) : ℤ) = ((netWidth s.toList).getD 0 : ℕ)
        rw [hread]
        rfl

theorem append_eq {p : Pass} {r : Table} (hr : p.router = some r) :
    (append p).router = some ((fibDbAppend r p.node).getD r) ∧ (append p).node = p.node := by
  unfold append
  simp only [hr]
  cases fibDbAppend r p.node with
  | none => exact ⟨rfl, rfl⟩
  | some r' => exact ⟨rfl, rfl⟩

/-- What the configuration's parser does with an element of a kind. -/
def routeOf : Kind → Json → Parser RouteFill Unit
  | .blackhole => plainRoute .blackhole
  | .unreachable => plainRoute .unreachable
  | .gateway vid => gatewayRoute vid
  | .broadcast vid => plainRoute (.broadcast vid)

/-- A key and then an information go into the table alike. -/
theorem appendRoute_same {iter : Json} {p : Pass} {r : Table} (hr : p.router = some r) {key : FibKey}
    (hlen : key.prefixLen = ((netWidth (strOf (getItem (some iter) "prefix")).toList).getD 0 : ℕ))
    (info : FibInfo) :
    let q := append { p with node := ⟨key, info⟩ }
    ∃ r', q.router = some r' ∧ appendRoute iter info ⟨r, key.pref⟩ = ⟨r', q.node.key.pref⟩ := by
  obtain ⟨hrouter, hnode⟩ := append_eq (p := { p with node := ⟨key, info⟩ }) hr
  refine ⟨_, hrouter, ?_⟩
  rw [hnode]
  dsimp only [appendRoute]
  rw [← hlen]

/-- What comes after the key. -/
def restOf (iter : Json) : Kind → Parser RouteFill Unit
  | .blackhole => Parser.fill (appendRoute iter .blackhole)
  | .unreachable => Parser.fill (appendRoute iter .unreachable)
  | .gateway vid => do
    let nh := getItem (some iter) "nexthop"
    let gw := Inet.inetPton (strOf nh).toList
    need (isString nh && gw.isSome)
    Parser.fill (appendRoute iter (.nh vid (gw.getD InAddr.zero)))
  | .broadcast vid => Parser.fill (appendRoute iter (.broadcast vid))

theorem routeOf_eq (kind : Kind) (iter : Json) :
    routeOf kind iter = Proto.routePrefixObj2nodeKey iter >>= fun _ => restOf iter kind := by
  cases kind with
  | blackhole => rfl
  | unreachable => rfl
  | broadcast vid => rfl
  | gateway vid =>
    refine congrArg (Parser.bind _) (funext fun _ => ?_)
    unfold restOf
    dsimp only
    rw [need_and_bind]
    cases hstring : isString (getItem (some iter) "nexthop") with
    | false => rfl
    | true =>
      obtain ⟨s, hs⟩ := isString_iff.mp hstring
      rw [hs]
      rfl

/-- A node with its key goes on alike. -/
theorem rest_same (kind : Kind) {iter : Json} {p : Pass} {r : Table} (hr : p.router = some r)
    (hlen : p.node.key.prefixLen =
      ((netWidth (strOf (getItem (some iter) "prefix")).toList).getD 0 : ℕ)) :
    let out := (kind.fill glibc iter >>= fun _ => Parser.fill append) p
    ∃ r', out.2.router = some r' ∧
      restOf iter kind ⟨r, p.node.key.pref⟩ = (out.1, ⟨r', out.2.node.key.pref⟩) := by
  have hfill : ∀ info, ∃ r', (append { p with node := { p.node with info := info } }).router = some r' ∧
      Parser.fill (appendRoute iter info) ⟨r, p.node.key.pref⟩ =
        (.ok (), ⟨r', (append { p with node := { p.node with info := info } }).node.key.pref⟩) := by
    intro info
    obtain ⟨r', hr', happend⟩ := appendRoute_same hr hlen info
    exact ⟨r', hr', congrArg (Prod.mk _) happend⟩
  cases kind with
  | blackhole => exact hfill _
  | unreachable => exact hfill _
  | broadcast vid => exact hfill _
  | gateway vid =>
    unfold restOf
    simp only [Kind.fill]
    cases hread : isString (getItem (some iter) "nexthop") &&
        (Inet.inetPton (strOf (getItem (some iter) "nexthop")).toList).isSome with
    | false =>
      have hread' : (isString (getItem (some iter) "nexthop") &&
        (glibc.inetPton (strOf (getItem (some iter) "nexthop")).toList).isSome) = false := hread
      rw [hread']
      exact ⟨r, hr, rfl⟩
    | true =>
      have hread' : (isString (getItem (some iter) "nexthop") &&
        (glibc.inetPton (strOf (getItem (some iter) "nexthop")).toList).isSome) = true := hread
      rw [hread']
      exact hfill _

theorem turn_same (kind : Kind) (iter : Json) : Same (routeOf kind iter) (turn glibc kind iter) := by
  intro p r hr
  rw [turn_eq glibc kind iter hr, routeOf_eq]
  rcases routePrefixObj2nodeKey_same iter { p with index := p.index + 1 } r with
    ⟨key, hnew, hold, hlen⟩ | ⟨q, hnew, hq, hold⟩
  · rw [Parser.bind_of_ok hnew, Parser.bind_of_ok hold]
    exact rest_same kind (p := ⟨p.index + 1, { p.node with key := key }, p.router, p.refused⟩) hr hlen
  · rw [Parser.bind_of_error hnew, Parser.bind_of_error hold]
    exact ⟨r, hq.trans hr, rfl⟩

/-- With glibc's readers the second pass is the one of the configuration's parser. -/
theorem cfgProcessPrefixes_same (root : Ptr) :
    Same (Proto.cfgProcessPrefixes root) (cfgProcessPrefixes glibc root) := by
  refine same_bind (same_forM (turn_same .blackhole) _) ?_
  refine same_bind (same_forM (turn_same .unreachable) _) (same_forM (fun interface => ?_) _)
  refine same_when _ (same_bind (same_forM (turn_same (.gateway _)) _) ?_)
  exact same_forM (turn_same (.broadcast _)) _

/-- The number of elements is what the configuration's parser counts. -/
theorem countPass_index (lib : Libc) (root : Ptr) (node : FibNode) :
    (countPass lib root node).2.index = cfgCountPrefixes root := by
  rw [countPass_eq]
  unfold elements cfgCountPrefixes
  simp only [List.length_append, List.length_map, List.length_flatMap, Nat.add_assoc]
  congr 4
  funext interface
  by_cases hvid : cfgInterface2vid (some interface) = maxVlans
  · simp [elementsOf, hvid]
  · simp [elementsOf, hvid]

/-- Both parsers of the routes accept the same configurations, with the same table. -/
theorem cfgRouterParse_same (ports : Ports) (root : Ptr) (node node' : FibNode)
    (hstack : node'.key.pref = ports.stack) (c : PlatCfg) :
    match cfgRouterParse glibc root node node' with
    | none => (Proto.cfgRouterParse ports root c).1 ≠ .ok ()
    | some p => ∃ r, p.router = some r ∧
        Proto.cfgRouterParse ports root c = (.ok (), { c with router := r }) := by
  have hindex := countPass_index glibc root node
  obtain ⟨r, hr, hsame⟩ := cfgProcessPrefixes_same root
    ⟨0, node', some (fibDbAlloc (cfgCountPrefixes root)), 0⟩ _ rfl
  rw [hstack] at hsame
  unfold cfgRouterParse
  rw [countPass_eq] at hindex ⊢
  dsimp only at hindex ⊢
  rw [hindex]
  cases hrun : cfgProcessPrefixes glibc root ⟨0, node', some (fibDbAlloc (cfgCountPrefixes root)), 0⟩ with
  | mk res p =>
    rw [hrun] at hr hsame
    cases res with
    | error e =>
      have hstop : Proto.cfgRouterParse ports root c = (.error e, c) := by
        refine Parser.bind_of_error ?_
        unfold Parser.scratch
        rw [hsame]
      rw [hstop]
      exact nofun
    | ok _ =>
      refine ⟨r, hr, ?_⟩
      refine (Parser.bind_of_ok (t := c) (a := ⟨r, p.node.key.pref⟩) ?_).trans rfl
      unfold Parser.scratch
      rw [hsame]

end Ucentral.Proto.RoutePasses
