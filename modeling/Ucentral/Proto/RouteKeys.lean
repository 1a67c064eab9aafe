import Ucentral.Proto.RoutePasses

/-! What the key of a route depends on.

    `cfg_process_prefixes` reads every prefix into one node, which it never clears, and
    `inet_net_pton` writes no more octets than the prefix needs. What is left of the address is that of
    an earlier route, or of the stack. The parser of the interfaces clears its address first. -/

namespace Ucentral.Proto.RouteKeys
open CJson Inet Router Plat Parse RoutePasses

/-! ### The keys in the table -/

/-- `cfg_process_prefixes` on a fresh table, with what the stack holds in `node`. -/
def filled (root : Ptr) (node : FibNode) : Except Stop Unit × Pass :=
  RoutePasses.cfgProcessPrefixes glibc root
    ⟨0, node, some (fibDbAlloc (countPass glibc root node).2.index), 0⟩

/-- The key that is stored for the element at place `i`, whose prefix is `s`; the pass may stop at a
    later one. -/
def Stored (root : Ptr) (node : FibNode) (i : ℕ) (s : String) (key : FibKey) : Prop :=
  ∃ e r n, (elements root)[i]? = some e ∧ getItem (some e.2) "prefix" = some (.str s) ∧
    (filled root node).2.router = some r ∧ r.arr[i]? = some n ∧ n.key = key

/-- Each node in the table is that of the element at its place, read over some address. -/
theorem forM_stored : ∀ (es : List (RoutePasses.Kind × Json)) {p : Pass} {r : Table},
    p.router = some r → r.arr.length + es.length ≤ r.max →
    ∃ (ns : List FibNode) (r' : Table),
      (forM es (elementTurn glibc) p).2.router = some r' ∧ r'.arr = r.arr ++ ns ∧
      ∀ (i : ℕ) e n, es[i]? = some e → ns[i]? = some n → ∃ old, Added glibc e old n
  | [], p, r, hr, _ => ⟨[], r, hr, (List.append_nil _).symm, nofun⟩
  | e :: es, p, r, hr, hroom => by
      rw [List.length_cons] at hroom
      rw [List.forM_cons]
      rcases turn_cases glibc e hr (by omega) with ⟨n, r₁, hadded, hmax, harr, hturn⟩ | ⟨q, hturn, hq⟩
      · rw [Parser.bind_of_ok hturn]
        have hroom₁ : r₁.arr.length + es.length ≤ r₁.max := by
          rw [harr, hmax, List.length_append, List.length_singleton]
          omega
        obtain ⟨ns, r', hr', harr', hall⟩ :=
          forM_stored es (p := ⟨p.index + 1, n, some r₁, p.refused⟩) rfl hroom₁
        refine ⟨n :: ns, r', hr', ?_, ?_⟩
        · rw [harr', harr, List.append_assoc]
          rfl
        · intro i e' n' he hn
          cases i with
          | zero =>
            cases he
            cases hn
            exact ⟨_, hadded⟩
          | succ i => exact hall i e' n' he hn
      · rw [Parser.bind_of_error hturn]
        exact ⟨[], r, hq, (List.append_nil _).symm, fun _ _ _ _ h => nomatch h⟩

theorem Stored.read {root : Ptr} {node : FibNode} {i : ℕ} {s : String} {key : FibKey}
    (h : Stored root node i s key) :
    ∃ (old : InAddr) (w : ℕ), netWidth s.toList = some w ∧
      key = ⟨old.putAll 0 (octets s.toList w), w⟩ := by
  obtain ⟨e, r, n, he, hs, hr, hn, rfl⟩ := h
  unfold filled at hr
  rw [countPass_eq, cfgProcessPrefixes_eq] at hr
  have hroom : (fibDbAlloc (elements root).length).arr.length + (elements root).length ≤
      (fibDbAlloc (elements root).length).max := (Nat.zero_add _).le
  obtain ⟨ns, r', hr', harr, hall⟩ := forM_stored (elements root) (p := ⟨0, node, _, 0⟩) rfl hroom
  obtain rfl := Option.some.inj (hr.symm.trans hr')
  obtain rfl : r.arr = ns := harr
  obtain ⟨old, ⟨s', w, hs', hread, hlen⟩, -⟩ := hall i e n he hn
  obtain rfl : s' = s := Json.str.inj (Option.some.inj (hs'.symm.trans hs))
  have hwidth : netWidth s'.toList = some w :=
    (inetNetPton_fst s'.toList old).symm.trans (congrArg Prod.fst hread)
  have haddr := hread.symm.trans (inetNetPton_octets hwidth old)
  refine ⟨old, w, hwidth, ?_⟩
  rw [← (Prod.mk.inj haddr).2, ← hlen]

/-! ### One black hole -/

def blackholeOf (s : String) : Json := .obj [("prefix", .str s)]

/-- A configuration with that route alone. -/
def blackholeConfig (s : String) : Ptr :=
  some (.obj [("globals", .obj [("ipv4-blackhole", .arr [blackholeOf s])])])

theorem getItem_blackholeOf (s : String) :
    getItem (some (blackholeOf s)) "prefix" = some (.str s) := by
  simp [blackholeOf, getItem]

theorem elements_blackhole (s : String) :
    elements (blackholeConfig s) = [(.blackhole, blackholeOf s)] := by
  simp [elements, blackholesOf, unreachablesOf, blackholeConfig, getItemCI, children]

theorem turn_blackhole {s : String} {w : ℕ} (h : netWidth s.toList = some w) {p : Pass} {r : Table}
    (hr : p.router = some r) :
    elementTurn glibc (.blackhole, blackholeOf s) p =
      (.ok (), append ⟨p.index + 1, ⟨⟨p.node.key.pref.putAll 0 (octets s.toList w), w⟩, .blackhole⟩,
        p.router, p.refused⟩) := by
  unfold elementTurn
  rw [turn_eq glibc _ _ hr]
  have hread : glibc.readKey s.toList p.node.key.pref =
      ⟨p.node.key.pref.putAll 0 (octets s.toList w), w⟩ := by
    unfold Libc.readKey glibc
    dsimp only
    rw [inetNetPton_octets h]
    rfl
  have hkey : RoutePasses.routePrefixObj2nodeKey glibc (blackholeOf s)
      { p with index := p.index + 1 } =
      (.ok (), ⟨p.index + 1, { p.node with
        key := ⟨p.node.key.pref.putAll 0 (octets s.toList w), w⟩ }, p.router, p.refused⟩) := by
    unfold RoutePasses.routePrefixObj2nodeKey
    rw [getItem_blackholeOf]
    change test (fun p => decide (p.node.key.prefixLen ≠ -1)) ⟨p.index + 1,
      { p.node with key := glibc.readKey s.toList p.node.key.pref }, p.router, p.refused⟩ = _
    rw [hread]
    rfl
  rw [Parser.bind_of_ok hkey]
  rfl

/-- The key of that route, over what the stack holds. -/
theorem stored_blackhole {s : String} {w : ℕ} (h : netWidth s.toList = some w) (node : FibNode) :
    Stored (blackholeConfig s) node 0 s ⟨node.key.pref.putAll 0 (octets s.toList w), w⟩ := by
  have hrun : filled (blackholeConfig s) node =
      (.ok (), append ⟨1, ⟨⟨node.key.pref.putAll 0 (octets s.toList w), w⟩, .blackhole⟩,
        some (fibDbAlloc 1), 0⟩) := by
    unfold filled
    rw [countPass_eq, cfgProcessPrefixes_eq, elements_blackhole, List.forM_cons]
    exact Parser.bind_of_ok (turn_blackhole h rfl)
  obtain ⟨r', happend, -, harr⟩ := append_room (r := fibDbAlloc 1)
    (p := ⟨1, ⟨⟨node.key.pref.putAll 0 (octets s.toList w), w⟩, .blackhole⟩,
      some (fibDbAlloc 1), 0⟩) rfl Nat.zero_lt_one
  refine ⟨(.blackhole, blackholeOf s), r',
    ⟨⟨node.key.pref.putAll 0 (octets s.toList w), w⟩, .blackhole⟩, ?_, ?_, ?_, ?_, rfl⟩
  · rw [elements_blackhole]
    rfl
  · exact getItem_blackholeOf s
  · rw [hrun, happend]
  · rw [harr]
    rfl

/-! ### Which prefixes have a key of their own -/

/-- The key of `s` is the same in every configuration, at every place, and on every stack. -/
def KeyOfString (s : String) : Prop :=
  ∀ root root' node node' i i' key key',
    Stored root node i s key → Stored root' node' i' s key' → key = key'

/-- The prefix is refused, or it writes the whole address: it has four octets, or a width of more than
    24 bits. -/
def WritesWhole (s : List Char) : Prop :=
  ∀ w, netWidth s = some w → (readAddr s).1.length = 4 ∨ 24 < w

theorem octets_four_iff {s : List Char} {w : ℕ} (h : netWidth s = some w) :
    (octets s w).length = 4 ↔ (readAddr s).1.length = 4 ∨ 24 < w := by
  have hw := netWidth_le h
  have hos := readAddr_length s
  rw [(octets_length h).1]
  omega

theorem keyOfString_iff (s : String) : KeyOfString s ↔ WritesWhole s.toList := by
  constructor
  · intro hkey w hw
    rw [← octets_four_iff hw]
    by_contra hfew
    have hle := (octets_length hw).2
    have hleft : ∀ a : InAddr, (a.putAll 0 (octets s.toList w)).b3 = a.b3 :=
      fun a => putAll_b3 _ a 0 (by omega)
    have hsame := hkey _ _ _ _ 0 0 _ _ (stored_blackhole hw ⟨⟨⟨0, 0, 0, 0⟩, 0⟩, .blackhole⟩)
      (stored_blackhole hw ⟨⟨⟨0, 0, 0, 1⟩, 0⟩, .blackhole⟩)
    have hlast := congrArg (fun k : FibKey => k.pref.b3) hsame
    dsimp only at hlast
    rw [hleft, hleft] at hlast
    exact absurd hlast (by decide)
  · intro hwhole root root' node node' i i' key key' h h'
    obtain ⟨old, w, hw, rfl⟩ := h.read
    obtain ⟨old', w', hw', rfl⟩ := h'.read
    obtain rfl := Option.some.inj (hw.symm.trans hw')
    rw [putAll_four ((octets_four_iff hw).mpr (hwhole w hw)) old old']

/-- The short form after a host route, from a cleared stack: three octets of the host are left. -/
def hostConfig : Ptr :=
  some (.obj [("globals", .obj
    [("ipv4-blackhole", .arr [blackholeOf "1.2.3.4/32", blackholeOf "10/8"])])])

theorem short_form_keeps :
    Stored (blackholeConfig "10/8") emptyNode 0 "10/8" ⟨⟨10, 0, 0, 0⟩, 8⟩ ∧
    Stored hostConfig emptyNode 1 "10/8" ⟨⟨10, 2, 3, 4⟩, 8⟩ ∧ ¬ KeyOfString "10/8" := by
  have halone : Stored (blackholeConfig "10/8") emptyNode 0 "10/8" ⟨⟨10, 0, 0, 0⟩, 8⟩ :=
    stored_blackhole (s := "10/8") (w := 8) (by decide +kernel) emptyNode
  have hafter : Stored hostConfig emptyNode 1 "10/8" ⟨⟨10, 2, 3, 4⟩, 8⟩ := by
    have hsecond : (filled hostConfig emptyNode).2.router.bind (fun r => r.arr[1]?) =
        some ⟨⟨⟨10, 2, 3, 4⟩, 8⟩, .blackhole⟩ := by decide +kernel
    obtain ⟨r, hr, hn⟩ := Option.bind_eq_some_iff.mp hsecond
    refine ⟨(.blackhole, blackholeOf "10/8"), r, _, ?_, getItem_blackholeOf _, hr, hn, rfl⟩
    simp [elements, blackholesOf, unreachablesOf, hostConfig, getItemCI, children]
  refine ⟨halone, hafter, fun h => ?_⟩
  exact absurd (h _ _ _ _ _ _ _ _ halone hafter) (by decide)

end Ucentral.Proto.RouteKeys
