import Ucentral.Proto.CfgParse
import Mathlib.Data.Rat.Lemmas
import Mathlib.Algebra.Order.Field.Rat
import Mathlib.Tactic.Linarith

/-! The VLAN ids that `cfg_interface2vid` reads, and what becomes of them.

    The guard is written on doubles: a zero and everything from 4096 on stands for no VLAN. A
    missing id is a NaN, which gets past both comparisons, and so do fractions and negative numbers.
    What it gives back is an index into the VLAN array and the VLAN of a route. -/

namespace Ucentral.Proto
open CJson Inet Router Plat Parse

/-- The number an interface gives as its VLAN id. -/
def vlanIdOf (interface : Ptr) : Double := getNumberValue (getItem (getItem interface "vlan") "id")

/-- A VLAN id that is the number the interface gives. -/
def NamesVlan (interface : Ptr) (v : ℕ) : Prop :=
  1 ≤ v ∧ v < maxVlans ∧ vlanIdOf interface = .fin v

/-- The numbers on which the guard works: zero, 4096 and more, the VLAN ids, and the negative ones
    that happen to wrap to 4096. -/
def GoodId : Double → Prop
  | .nan => False
  | .inf neg => neg = false
  | .fin q => q = 0 ∨ (maxVlans : ℚ) ≤ q ∨ (0 < q ∧ q.den = 1) ∨
      (q < 0 ∧ q.num.tdiv q.den % 65536 = maxVlans)

/-- Below 4096 the integer part is below 4096 too. -/
theorem trunc_bounds {q : ℚ} (h0 : 0 < q) (h1 : q < (maxVlans : ℚ)) :
    0 ≤ (Double.fin q).trunc ∧ (Double.fin q).trunc < maxVlans := by
  have hnum : 0 < q.num := Rat.num_pos.mpr h0
  have hden : (0 : ℤ) < q.den := by exact_mod_cast q.den_pos
  refine ⟨Int.tdiv_nonneg hnum.le hden.le, ?_⟩
  change q.num.tdiv q.den < _
  rw [Int.tdiv_eq_ediv_of_nonneg hnum.le]
  refine Int.ediv_lt_of_lt_mul hden ?_
  have := (Rat.lt_iff q (maxVlans : ℚ)).mp h1
  simpa using this

/-- The integer part is the number itself exactly if that is integral. -/
theorem eq_trunc_iff (q : ℚ) : q = (((Double.fin q).trunc : ℤ) : ℚ) ↔ q.den = 1 := by
  constructor
  · intro h
    rw [h]
    exact Rat.den_intCast _
  · intro h
    simp [Double.trunc, h, (Rat.den_eq_one_iff q).mp h]

theorem interface2vid_eq (interface : Ptr) : cfgInterface2vid interface =
    if (vlanIdOf interface).isZero || (vlanIdOf interface).geNat maxVlans then maxVlans
    else (vlanIdOf interface).toUInt 16 := rfl

/-- A fraction or a VLAN id between the two comparisons. -/
theorem goodId_of_between {q : ℚ} (h0 : 0 < q) (h1 : q < (maxVlans : ℚ)) :
    ((Double.fin q).toUInt 16 = maxVlans ∨ 1 ≤ (Double.fin q).toUInt 16 ∧
      (Double.fin q).toUInt 16 < maxVlans ∧ q = ((Double.fin q).toUInt 16 : ℕ)) ↔ q.den = 1 := by
  obtain ⟨ht0, ht1⟩ := trunc_bounds h0 h1
  have hvid : ((Double.fin q).toUInt 16 : ℤ) = (Double.fin q).trunc := by
    unfold Double.toUInt
    unfold maxVlans at ht1
    omega
  have hcast : (((Double.fin q).toUInt 16 : ℕ) : ℚ) = ((Double.fin q).trunc : ℤ) := by
    exact_mod_cast congrArg (fun n : ℤ => (n : ℚ)) hvid
  rw [hcast, eq_trunc_iff]
  constructor
  · rintro (h | ⟨_, _, h⟩)
    · omega
    · exact h
  · intro h
    refine Or.inr ⟨?_, by omega, h⟩
    have hpos : (0 : ℚ) < ((Double.fin q).trunc : ℤ) := by
      rw [← (eq_trunc_iff q).mpr h]
      exact h0
    have : 0 < (Double.fin q).trunc := by exact_mod_cast hpos
    omega

/-- What `cfg_interface2vid` gives back is right exactly on the good numbers. -/
theorem interface2vid_iff (interface : Ptr) :
    (cfgInterface2vid interface = maxVlans ∨ NamesVlan interface (cfgInterface2vid interface)) ↔
      GoodId (vlanIdOf interface) := by
  unfold NamesVlan
  rw [interface2vid_eq]
  rcases vlanIdOf interface with _ | neg | q
  · simp [Double.isZero, Double.geNat, Double.toUInt, Double.trunc, GoodId, maxVlans]
  · cases neg <;> simp [Double.isZero, Double.geNat, Double.toUInt, Double.trunc, GoodId, maxVlans]
  · rcases lt_trichotomy q 0 with hneg | rfl | hpos
    · have hlt : q < (maxVlans : ℚ) := hneg.trans (by norm_num [maxVlans])
      have hge : ¬ (maxVlans : ℚ) ≤ q := not_le.mpr hlt
      have hnot : ∀ n : ℕ, q ≠ n := by
        rintro n rfl
        exact absurd hneg (not_lt.mpr (Nat.cast_nonneg n))
      simp only [Double.isZero, Double.geNat, GoodId, beq_iff_eq, hneg.ne, hge, decide_false,
        Bool.or_false, if_false, Double.fin.injEq, hnot, and_false, or_false,
        hneg.not_gt, false_and, false_or, hneg, true_and]
      change (q.num.tdiv q.den % 2 ^ 16).toNat = 4096 ↔ q.num.tdiv q.den % 65536 = 4096
      omega
    · simp [Double.isZero, GoodId]
    · by_cases hge : (maxVlans : ℚ) ≤ q
      · simp [Double.geNat, GoodId, hge]
      · simp only [Double.isZero, Double.geNat, GoodId, beq_iff_eq, hpos.ne', hge, decide_false,
          Bool.or_false, if_false, Double.fin.injEq, hpos, true_and, false_or,
          hpos.not_gt, false_and, or_false]
        exact goodId_of_between hpos (not_le.mp hge)

/-! ### Indices into the VLAN array -/

/-- A step that touches the array once. -/
theorem notes_one {α : Type} {vid : ℕ} {x : Parser Draft α}
    (h : ∀ d, (x d).2.vlanUse = d.vlanUse ++ [vid]) : Notes Draft.vlanUse (· = vid) x :=
  fun d => ⟨[vid], h d, by simp⟩

theorem vlanUse_setVlan (vid : ℕ) (f : PlatVlan → PlatVlan) (d : Draft) :
    (setVlan vid f d).vlanUse = d.vlanUse ++ [vid] := rfl

theorem vlanUse_foldl_setVlan (vid : ℕ) (f : ℕ → PlatVlan → PlatVlan) (l : List ℕ) (d : Draft) :
    (l.foldl (fun d i => setVlan vid (f i) d) d).vlanUse =
      d.vlanUse ++ List.replicate l.length vid := by
  induction l generalizing d with
  | nil => simp
  | cons i l ih => simp [ih, vlanUse_setVlan, List.replicate_succ]

theorem notes_vlanEthernet (ports : Ports) (vid : ℕ) (eth : Json) :
    Notes Draft.vlanUse (· = vid) (vlanEthernet ports vid eth) := by
  refine notes_bind (notes_scratch _ _) fun sel => notes_bind (notes_pass _) fun _ => ?_
  refine notes_bind (notes_pass _) fun _ => notes_bind (notes_pass _) fun _ => fun d => ?_
  refine ⟨_, vlanUse_foldl_setVlan vid _ _ d, ?_⟩
  intro v hv
  exact List.eq_of_mem_replicate hv

theorem notes_vlanDhcp (vid : ℕ) (dhcp : Ptr) :
    Notes Draft.vlanUse (· = vid) (vlanDhcp vid dhcp) := by
  refine notes_bind (notes_pass _) fun _ => notes_bind (notes_pass _) fun _ => ?_
  refine notes_bind (notes_one fun _ => rfl) fun _ => notes_bind (notes_pass _) fun _ => ?_
  exact notes_bind (notes_pass _) fun _ => notes_one fun _ => rfl

theorem notes_vlanIpv4 (vid : ℕ) (ipv4 : Ptr) :
    Notes Draft.vlanUse (· = vid) (vlanIpv4 vid ipv4) := by
  refine notes_bind (notes_when (notes_one fun _ => rfl)) fun _ => ?_
  refine notes_bind (notes_when ?_) fun _ => notes_when (notes_vlanDhcp vid _)
  exact notes_bind (notes_scratch _ _) fun _ => notes_one fun _ => rfl

theorem notes_vlanBody (ports : Ports) (vid : ℕ) (interface : Ptr) :
    Notes Draft.vlanUse (· = vid) (vlanBody ports vid interface) := by
  refine notes_bind (notes_forM (notes_vlanEthernet ports vid) _) fun _ => ?_
  exact notes_bind (notes_one fun _ => rfl) fun _ => notes_when (notes_vlanIpv4 vid _)

/-- `cfg_vlan_interface_parse` only uses the index it reads, and uses it if there is one. -/
theorem cfgVlanInterfaceParse_uses (ports : Ports) (interface : Ptr) (d : Draft) :
    ∃ new, (cfgVlanInterfaceParse ports interface d).2.vlanUse = d.vlanUse ++ new ∧
      (∀ v ∈ new, v = cfgInterface2vid interface) ∧
      (new ≠ [] ↔ (getItem interface "vlan").isSome = true ∧
        cfgInterface2vid interface ≠ maxVlans) := by
  unfold cfgVlanInterfaceParse
  by_cases h : (getItem interface "vlan").isSome = true ∧ cfgInterface2vid interface ≠ maxVlans
  · simp only [need_bind, fill_bind, h.1, h.2, ne_eq, not_false_eq_true, decide_true, if_true]
    -- the bitmap comes first, the rest only adds to it
    obtain ⟨more, heq, hmore⟩ := notes_vlanBody ports (cfgInterface2vid interface) interface
      { cfg := { d.cfg with vlansToCfg := d.cfg.vlansToCfg.setBit (cfgInterface2vid interface) }
        vlanUse := d.vlanUse ++ [cfgInterface2vid interface] }
    refine ⟨cfgInterface2vid interface :: more, ?_, ?_, ?_⟩
    · simpa using heq
    · intro v hv
      rcases List.mem_cons.mp hv with rfl | hv
      · rfl
      · exact hmore v hv
    · simp
  · refine ⟨[], ?_, by simp, by simpa using h⟩
    rw [need_bind]
    split
    · next hvlan =>
      have hvid : cfgInterface2vid interface = maxVlans := by
        by_contra hne
        exact h ⟨hvlan, hne⟩
      simp [need_bind, hvid]
    · simp

/-- The indices of one call are right exactly if the interface has no VLAN or a good number. -/
theorem uses_named_iff (ports : Ports) (interface : Ptr) (d : Draft) :
    (∀ v ∈ (cfgVlanInterfaceParse ports interface d).2.vlanUse.drop d.vlanUse.length,
      NamesVlan interface v) ↔
      ((getItem interface "vlan").isSome = true → GoodId (vlanIdOf interface)) := by
  obtain ⟨new, heq, hall, hne⟩ := cfgVlanInterfaceParse_uses ports interface d
  rw [heq, List.drop_left, ← interface2vid_iff]
  constructor
  · intro h hvlan
    by_cases hvid : cfgInterface2vid interface = maxVlans
    · exact Or.inl hvid
    · obtain ⟨v, hv⟩ := List.exists_mem_of_ne_nil new (hne.mpr ⟨hvlan, hvid⟩)
      have hnamed := h v hv
      rw [hall v hv] at hnamed
      exact Or.inr hnamed
  · intro h v hv
    obtain ⟨hvlan, hvid⟩ := hne.mp (List.ne_nil_of_mem hv)
    rw [hall v hv]
    exact (h hvlan).resolve_left hvid

/-! ### Routes -/

/-- The kinds of the routes stored so far. -/
def RouteFill.infos (r : RouteFill) : List FibInfo := r.table.arr.map (·.info)

/-- If it ends well and there is room, a part of the route parser stores these routes. -/
def Adds (infos : List FibInfo) (x : Parser RouteFill Unit) : Prop :=
  ∀ r, (x r).1 = .ok () → r.infos.length + infos.length ≤ r.table.max →
    (x r).2.table.max = r.table.max ∧ (x r).2.infos = r.infos ++ infos

/-- A part that leaves the table alone. -/
theorem adds_of_eq {x : Parser RouteFill Unit} (h : ∀ r, (x r).2.table = r.table) : Adds [] x := by
  intro r _ _
  simp [RouteFill.infos, h r]

theorem adds_pass (c : Check) : Adds [] c.pass := adds_of_eq fun r => by rw [pass_snd]

theorem adds_bind {is js : List FibInfo} {x : Parser RouteFill Unit}
    {f : Unit → Parser RouteFill Unit} (hx : Adds is x) (hf : Adds js (f ())) :
    Adds (is ++ js) (x >>= f) := by
  intro r hok hroom
  obtain ⟨⟨⟩, hxok, heq⟩ := Parser.bind_ok hok
  rw [heq] at hok ⊢
  rw [List.length_append] at hroom
  obtain ⟨hmax, hinfos⟩ := hx r hxok (by omega)
  obtain ⟨hmax', hinfos'⟩ := hf _ hok (by rw [hinfos, hmax, List.length_append]; omega)
  exact ⟨hmax'.trans hmax, by rw [hinfos', hinfos, List.append_assoc]⟩

theorem adds_quiet_bind {js : List FibInfo} {x : Parser RouteFill Unit}
    {f : Unit → Parser RouteFill Unit} (hx : Adds [] x) (hf : Adds js (f ())) :
    Adds js (x >>= f) :=
  adds_bind hx hf

theorem adds_forM {α : Type} {f : α → Parser RouteFill Unit} {is : α → List FibInfo}
    (hf : ∀ a, Adds (is a) (f a)) (l : List α) : Adds (l.flatMap is) (forM l f) := by
  induction l with
  | nil =>
    intro r _ _
    exact ⟨rfl, by simp [pure, Parser.pure]⟩
  | cons a l ih =>
    rw [List.forM_cons, List.flatMap_cons]
    exact adds_bind (hf a) ih

theorem adds_appendRoute (obj : Json) (info : FibInfo) :
    Adds [info] (Parser.fill (appendRoute obj info)) := by
  intro r _ hroom
  have hlen : r.table.arr.length ≠ r.table.max := by
    simp only [RouteFill.infos, List.length_map, List.length_singleton] at hroom
    omega
  simp [Parser.fill, appendRoute, fibDbAppend, hlen, RouteFill.infos]

theorem adds_routePrefixObj2nodeKey (obj : Json) : Adds [] (routePrefixObj2nodeKey obj) := by
  refine adds_quiet_bind (adds_pass _) (adds_quiet_bind (adds_pass _) ?_)
  exact adds_quiet_bind (adds_of_eq fun _ => rfl) (adds_pass _)

theorem adds_plainRoute (info : FibInfo) (iter : Json) : Adds [info] (plainRoute info iter) :=
  adds_bind (adds_routePrefixObj2nodeKey iter) (adds_appendRoute iter info)

/-- The route an entry of `gateway` stands for. -/
def gatewayInfo (vid : ℕ) (iter : Json) : FibInfo :=
  .nh vid ((inetPton (strOf (getItem (some iter) "nexthop")).toList).getD InAddr.zero)

theorem adds_gatewayRoute (vid : ℕ) (iter : Json) :
    Adds [gatewayInfo vid iter] (gatewayRoute vid iter) := by
  refine adds_quiet_bind (adds_routePrefixObj2nodeKey iter) (adds_quiet_bind (adds_pass _) ?_)
  exact adds_quiet_bind (adds_pass _) (adds_quiet_bind (adds_pass _) (adds_appendRoute iter _))

/-- The routes an interface stands for. -/
def routesOf (interface : Json) : List FibInfo :=
  let vid := cfgInterface2vid (some interface)
  if vid = maxVlans then []
  else (gatewaysOf interface).map (gatewayInfo vid) ++
    (broadcastsOf interface).map fun _ => .broadcast vid

/-- The routes a configuration stands for. -/
def allRoutes (root : Ptr) : List FibInfo :=
  ((blackholesOf root).map fun _ => .blackhole) ++
  ((unreachablesOf root).map fun _ => .unreachable) ++
  (children (getItemCI root "interfaces")).flatMap routesOf

theorem adds_forM_one {α : Type} {f : α → Parser RouteFill Unit} {info : α → FibInfo}
    (hf : ∀ a, Adds [info a] (f a)) (l : List α) : Adds (l.map info) (forM l f) := by
  rw [List.map_eq_flatMap]
  exact adds_forM hf l

theorem adds_interfaceRoutes (interface : Json) :
    Adds (routesOf interface) (interfaceRoutes interface) := by
  unfold routesOf interfaceRoutes
  by_cases hvid : cfgInterface2vid (some interface) = maxVlans
  · rw [if_pos hvid]
    simp only [hvid, ne_eq, not_true_eq_false, decide_false]
    exact adds_of_eq fun _ => rfl
  · rw [if_neg hvid]
    simp only [hvid, ne_eq, not_false_eq_true, decide_true]
    exact adds_bind (adds_forM_one (adds_gatewayRoute _) _) (adds_forM_one (adds_plainRoute _) _)

theorem adds_cfgProcessPrefixes (root : Ptr) : Adds (allRoutes root) (cfgProcessPrefixes root) := by
  unfold allRoutes
  rw [List.append_assoc]
  refine adds_bind (adds_forM_one (adds_plainRoute _) _) ?_
  exact adds_bind (adds_forM_one (adds_plainRoute _) _) (adds_forM adds_interfaceRoutes _)

/-- The first pass counts what the second one stores. -/
theorem length_allRoutes (root : Ptr) : (allRoutes root).length = cfgCountPrefixes root := by
  unfold allRoutes cfgCountPrefixes
  simp only [List.length_append, List.length_map, List.length_flatMap]
  congr 3
  funext interface
  by_cases hvid : cfgInterface2vid (some interface) = maxVlans
  · simp [routesOf, hvid]
  · simp [routesOf, hvid]

theorem ends_cfgRouterParse (ports : Ports) (root : Ptr) :
    Ends (fun c : PlatCfg => c.router.arr.map (·.info) = allRoutes root)
      (cfgRouterParse ports root) := by
  intro c a h
  unfold cfgRouterParse at h ⊢
  obtain ⟨filled, hfilled, heq⟩ := Parser.bind_ok h
  rw [heq]
  unfold Parser.scratch at hfilled
  have hadds := adds_cfgProcessPrefixes root ⟨fibDbAlloc (cfgCountPrefixes root), ports.stack⟩
  rcases hrun : cfgProcessPrefixes root ⟨fibDbAlloc (cfgCountPrefixes root), ports.stack⟩ with
    ⟨e | u, t⟩
  · rw [hrun] at hfilled
    cases hfilled
  · rw [hrun] at hfilled hadds
    cases hfilled
    obtain ⟨_, hinfos⟩ := hadds rfl (by simp [RouteFill.infos, fibDbAlloc, length_allRoutes])
    change List.map _ filled.table.arr = _
    simpa [RouteFill.infos, fibDbAlloc] using hinfos

/-- An accepted configuration has all its routes in the table, in their order. -/
theorem ends_cfgParse_routes (ports : Ports) (config : Ptr) :
    Ends (fun d : Draft => d.cfg.router.arr.map (·.info) = allRoutes config)
      (cfgParse ports config) := by
  unfold cfgParse
  -- the tests, and the sections before the routes
  iterate 13 refine ends_bind fun _ => ?_
  refine ends_bind_of_keep (fun d _ h => ends_cfgRouterParse ports config d.cfg _ h) fun _ d hd => ?_
  rw [copy, pass_bind]
  split
  · exact hd
  · exact hd

/-! ### The ids -/

/-- A route that goes out of a VLAN the interface names. -/
def RouteNamed (interface : Ptr) : FibInfo → Prop
  | .nh vid _ => NamesVlan interface vid
  | .broadcast vid => NamesVlan interface vid
  | _ => True

/-- The routes of an interface are right exactly if it has none or a good number. -/
theorem routesOf_named_iff (interface : Json) :
    (∀ info ∈ routesOf interface, RouteNamed (some interface) info) ↔
      GoodId (vlanIdOf (some interface)) ∨
        gatewaysOf interface = [] ∧ broadcastsOf interface = [] := by
  rw [← interface2vid_iff]
  by_cases hvid : cfgInterface2vid (some interface) = maxVlans
  · simp [routesOf, hvid]
  · simp only [routesOf, hvid, if_false, List.mem_append, List.mem_map, false_or]
    constructor
    · intro h
      rcases hg : gatewaysOf interface with _ | ⟨g, gs⟩
      · rcases hb : broadcastsOf interface with _ | ⟨b, bs⟩
        · exact Or.inr ⟨rfl, rfl⟩
        · exact Or.inl (h (.broadcast _) (Or.inr ⟨b, by simp [hb], rfl⟩))
      · exact Or.inl (h (gatewayInfo _ g) (Or.inl ⟨g, by simp [hg], rfl⟩))
    · rintro (hnamed | ⟨hg, hb⟩) info (⟨g, hmem, rfl⟩ | ⟨b, hmem, rfl⟩)
      · exact hnamed
      · exact hnamed
      · simp [hg] at hmem
      · simp [hb] at hmem

theorem notes_appendRoute {interface : Ptr} {info : FibInfo} (h : RouteNamed interface info)
    (obj : Json) : Notes RouteFill.infos (RouteNamed interface)
      (Parser.fill (appendRoute obj info)) := by
  intro r
  by_cases hlen : r.table.arr.length = r.table.max
  · exact ⟨[], by simp [Parser.fill, appendRoute, fibDbAppend, hlen, RouteFill.infos], by simp⟩
  · refine ⟨[info], ?_, by simpa using h⟩
    simp [Parser.fill, appendRoute, fibDbAppend, hlen, RouteFill.infos]

theorem notes_routePrefixObj2nodeKey (P : FibInfo → Prop) (obj : Json) :
    Notes RouteFill.infos P (routePrefixObj2nodeKey obj) := by
  refine notes_bind (notes_pass _) fun _ => notes_bind (notes_pass _) fun _ => ?_
  exact notes_bind (notes_of_eq fun _ => rfl) fun _ => notes_pass _

/-- However the parse ends, the routes stored for such an interface are right. -/
theorem notes_interfaceRoutes {interface : Json} (h : GoodId (vlanIdOf (some interface)) ∨
      gatewaysOf interface = [] ∧ broadcastsOf interface = []) :
    Notes RouteFill.infos (RouteNamed (some interface)) (interfaceRoutes interface) := by
  unfold interfaceRoutes
  rcases h with hgood | ⟨hg, hb⟩
  · rcases (interface2vid_iff _).mpr hgood with hvid | hnamed
    · simp only [hvid, ne_eq, not_true_eq_false, decide_false]
      exact notes_of_eq fun _ => rfl
    · refine notes_when (notes_bind (notes_forM (fun iter => ?_) _) fun _ =>
        notes_forM (fun iter => ?_) _)
      · refine notes_bind (notes_routePrefixObj2nodeKey _ iter) fun _ => ?_
        refine notes_bind (notes_pass _) fun _ => notes_bind (notes_pass _) fun _ => ?_
        refine notes_bind (notes_pass _) fun _ => notes_appendRoute ?_ iter
        exact hnamed
      · refine notes_bind (notes_routePrefixObj2nodeKey _ iter) fun _ => ?_
        refine notes_appendRoute ?_ iter
        exact hnamed
  · rw [hg, hb]
    exact notes_when (notes_of_eq fun _ => rfl)

/-- Where the ids are right. `cfg_interface2vid` is right exactly on the good numbers. A call of the
    VLAN parser uses right indices exactly if the interface has no VLAN or a good number. However it
    ends, the route parser stores right routes for an interface with a good number or without
    routes. An accepted configuration has the routes of all its interfaces in its table, and they
    are right exactly for these interfaces. -/
theorem vlan_ids_named_iff (ports : Ports) (config : Ptr) (d : Draft) :
    (∀ interface : Ptr,
      (cfgInterface2vid interface = maxVlans ∨ NamesVlan interface (cfgInterface2vid interface)) ↔
        GoodId (vlanIdOf interface)) ∧
    (∀ interface : Ptr,
      (∀ v ∈ (cfgVlanInterfaceParse ports interface d).2.vlanUse.drop d.vlanUse.length,
        NamesVlan interface v) ↔
        ((getItem interface "vlan").isSome = true → GoodId (vlanIdOf interface))) ∧
    (∀ interface : Json, GoodId (vlanIdOf (some interface)) ∨
        gatewaysOf interface = [] ∧ broadcastsOf interface = [] →
      Notes RouteFill.infos (RouteNamed (some interface)) (interfaceRoutes interface)) ∧
    ((cfgParse ports config {}).1 = .ok () →
      (cfgParse ports config {}).2.cfg.router.arr.map (·.info) = allRoutes config ∧
      ∀ interface ∈ children (getItemCI config "interfaces"),
        (∀ info ∈ routesOf interface, RouteNamed (some interface) info) ↔
          GoodId (vlanIdOf (some interface)) ∨
            gatewaysOf interface = [] ∧ broadcastsOf interface = []) := by
  refine ⟨interface2vid_iff, fun interface => uses_named_iff ports interface d,
    fun _ h => notes_interfaceRoutes h, fun hok => ⟨ends_cfgParse_routes ports config {} _ hok, ?_⟩⟩
  intro interface _
  exact routesOf_named_iff interface

/-- An interface of one port with one gateway, and a VLAN if there is one. -/
def oneGateway (vlan : List (String × Json)) : Json :=
  .obj [("ethernet", .arr []),
    ("interfaces", .arr [.obj (vlan ++ [
      ("ethernet", .arr [.obj [("select-ports", .arr [.str "Ethernet1"]),
        ("vlan-tag", .str "tagged")]]),
      ("ipv4", .obj [("gateway", .arr [.obj [("prefix", .str "10.0.0.0/8"),
        ("nexthop", .str "10.0.0.1")]])])])])]

/-- A VLAN with id 10. -/
theorem vlan_ids_named_ten :
    (cfgParse ⟨some ["Ethernet1"], 0, InAddr.zero⟩
      (some (oneGateway [("vlan", .obj [("id", .num (.fin 10))])])) {}).1 = .ok () ∧
    (cfgParse ⟨some ["Ethernet1"], 0, InAddr.zero⟩
      (some (oneGateway [("vlan", .obj [("id", .num (.fin 10))])])) {}).2.cfg.router.arr.map
        (·.info) = [.nh 10 ⟨10, 0, 0, 1⟩] :=
  ⟨by decide +kernel,
    ((vlan_ids_named_iff _ _ {}).2.2.2 (by decide +kernel)).1.trans (by decide +kernel)⟩

/-- A negative number and a fraction give another VLAN, and a port without a VLAN gives its route the
    VLAN 0. -/
theorem vlan_ids_not_named :
    cfgInterface2vid (some (.obj [("vlan", .obj [("id", .num (.fin (-65535)))])])) = 1 ∧
    cfgInterface2vid (some (.obj [("vlan", .obj [("id", .num (.fin (3 / 2)))])])) = 1 ∧
    (cfgParse ⟨some ["Ethernet1"], 0, InAddr.zero⟩ (some (oneGateway [])) {}).1 = .ok () ∧
    (cfgParse ⟨some ["Ethernet1"], 0, InAddr.zero⟩ (some (oneGateway [])) {}).2.cfg.router.arr.map
      (·.info) = [.nh 0 ⟨10, 0, 0, 1⟩] := by
  refine ⟨?_, ?_, ?_, ?_⟩ <;> decide +kernel

end Ucentral.Proto
