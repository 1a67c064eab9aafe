import Ucentral.Proto.CfgParse

/-! Which section of a configuration fills which part of the structure.

    The ports come from `ethernet`, after the ports of the platform; the VLANs from `interfaces`. A
    section leaves every part alone that its own fields are not in, so what an accepted configuration
    says of a port or a VLAN is what these two sections have filled in. -/

namespace Ucentral.Proto
open CJson Inet Router Plat Parse

/-- The ports, and which of them are configured. -/
def portPart (c : PlatCfg) : (ℕ → PlatPort) × Bitmap := (c.ports, c.portsToCfg)

/-- The VLANs, and which of them are configured. -/
def vlanPart (c : PlatCfg) : (ℕ → PlatVlan) × Bitmap := (c.vlans, c.vlansToCfg)

/-- Both. -/
def portVlanPart (c : PlatCfg) : ((ℕ → PlatPort) × Bitmap) × (ℕ → PlatVlan) × Bitmap :=
  (portPart c, vlanPart c)

/-- The sections of `switch` after the RADIUS hosts. -/
def stpSections (root : Ptr) : Parser PlatCfg Unit := do
  let loop := getItem (getItem root "switch") "loop-detection"
  let protocol := getItem loop "protocol"
  let mode := protoStpModeToNum (strOf protocol)
  let portIsolation := getItem (getItem root "switch") "port-isolation"
  Parser.fill fun c => { c with stpMode := .none }
  Parser.when protocol.isSome (do
    need (isString protocol)
    text (getStringValue protocol)
    need mode.isSome
    Parser.fill fun c => { c with stpMode := mode.getD c.stpMode })
  Parser.fill fun c => { c with stpInstances := fun _ => stpDefaults }
  stpInstancesGo Bitmap.clear (children (getItem loop "instances"))
  Parser.when portIsolation.isSome (cfgSwitchPortIsolationParse portIsolation)

theorem cfgSwitchParse_eq (root : Ptr) : cfgSwitchParse root =
    cfgSwitchIeee8021xParse (getItem root "switch") >>= fun _ => stpSections root := rfl

/-! ### What a section leaves alone

    Each section leaves alone what does not depend on the fields that it fills in. -/

section Leaves

variable {τ : Type} (part : PlatCfg → τ)

theorem leaves_inCfg {x : Parser PlatCfg Unit} (h : Leaves part x) :
    Leaves (fun d : Draft => part d.cfg) (inCfg x) :=
  fun d => h d.cfg

theorem leaves_cfgSwitchIeee8021xParse
    (hpart : ∀ c a hs, part { c with isAuthCtrlEnabled := a, radiusHosts := hs } = part c) (sw : Ptr) :
    Leaves part (cfgSwitchIeee8021xParse sw) := by
  refine leaves_when (leaves_bind (leaves_pass _) fun _ => ?_)
  refine leaves_bind (leaves_fill fun c => hpart c _ c.radiusHosts) (fun _ => ?_)
  refine leaves_bind (leaves_pass _) (fun _ => leaves_forM (fun iter => ?_) _)
  refine leaves_bind (leaves_pass _) (fun _ => ?_)
  refine leaves_bind (leaves_pass _) (fun _ => ?_)
  refine leaves_bind (leaves_pass _) (fun _ => leaves_fill fun c => ?_)
  exact hpart c c.isAuthCtrlEnabled _

theorem leaves_stpInstancesGo (hpart : ∀ c is, part { c with stpInstances := is } = part c)
    (iters : List Json) (seen : Bitmap) : Leaves part (stpInstancesGo seen iters) := by
  induction iters generalizing seen with
  | nil => exact leaves_pure ()
  | cons iter iters ih =>
    refine leaves_bind (leaves_pass _) (fun _ => leaves_bind (leaves_pass _) fun _ => ?_)
    exact leaves_bind (leaves_fill fun c => hpart c _) (fun _ => ih _)

theorem leaves_isolationGo (hpart : ∀ c ss, part { c with portIsolation := ss } = part c)
    (sessions : List Json) (seen : List ℕ) : Leaves part (isolationGo seen sessions) := by
  induction sessions generalizing seen with
  | nil => exact leaves_pure ()
  | cons session sessions ih =>
    refine leaves_bind (leaves_pass _) (fun _ => leaves_bind (leaves_pass _) fun _ => ?_)
    refine leaves_bind (leaves_pass _) (fun _ => leaves_bind (leaves_pass _) fun _ => ?_)
    refine leaves_bind (leaves_scratch _ _) (fun _ => leaves_bind (leaves_scratch _ _) fun _ => ?_)
    exact leaves_bind (leaves_fill fun c => hpart c _) (fun _ => ih _)

theorem leaves_cfgSwitchPortIsolationParse
    (hpart : ∀ c ss, part { c with portIsolation := ss } = part c) (portIsolation : Ptr) :
    Leaves part (cfgSwitchPortIsolationParse portIsolation) := by
  refine leaves_bind (leaves_pass _) (fun _ => leaves_bind (leaves_pass _) fun _ => ?_)
  exact leaves_isolationGo part hpart _ _

theorem leaves_stpModeParse (hpart : ∀ c m, part { c with stpMode := m } = part c) (protocol : Ptr)
    (mode : Option StpMode) : Leaves part (do
      need (isString protocol)
      text (getStringValue protocol)
      need mode.isSome
      Parser.fill fun c => { c with stpMode := mode.getD c.stpMode }) := by
  refine leaves_bind (leaves_pass _) (fun _ => leaves_bind (leaves_pass _) fun _ => ?_)
  exact leaves_bind (leaves_pass _) (fun _ => leaves_fill fun c => hpart c _)

theorem leaves_stpSections
    (hpart : ∀ c m is ss, part { c with
      stpMode := m, stpInstances := is, portIsolation := ss } = part c)
    (root : Ptr) : Leaves part (stpSections root) := by
  have hmode : ∀ c m, part { c with stpMode := m } = part c := fun c m =>
    hpart c m c.stpInstances c.portIsolation
  have hinstances : ∀ c is, part { c with stpInstances := is } = part c := fun c is =>
    hpart c c.stpMode is c.portIsolation
  refine leaves_bind (leaves_fill fun c => hmode c _) (fun _ => ?_)
  refine leaves_bind (leaves_when (leaves_stpModeParse part hmode _ _)) (fun _ => ?_)
  refine leaves_bind (leaves_fill fun c => hinstances c _) (fun _ => ?_)
  refine leaves_bind (leaves_stpInstancesGo part hinstances _ _) (fun _ => leaves_when ?_)
  exact leaves_cfgSwitchPortIsolationParse part (fun c ss => hpart c c.stpMode c.stpInstances ss) _

theorem leaves_cfgSwitchParse
    (hpart : ∀ c a hs m is ss, part { c with
      isAuthCtrlEnabled := a, radiusHosts := hs, stpMode := m, stpInstances := is
      portIsolation := ss } = part c)
    (root : Ptr) : Leaves part (cfgSwitchParse root) := by
  rw [cfgSwitchParse_eq]
  refine leaves_bind (leaves_cfgSwitchIeee8021xParse part (fun c a hs => ?_) _) (fun _ => ?_)
  · exact hpart c a hs c.stpMode c.stpInstances c.portIsolation
  · exact leaves_stpSections part (fun c => hpart c c.isAuthCtrlEnabled c.radiusHosts) root

/-- The services beside the log. -/
theorem leaves_enabledServices (hpart : ∀ c e, part { c with enabledServices := e } = part c)
    (services : Ptr) : Leaves part (do
      Parser.fill (setEnabled fun _ => {})
      enabledService (getItem services "ssh") fun b => setEnabled fun e => { e with ssh := b }
      enabledService (getItem services "telnet") fun b => setEnabled fun e => { e with telnet := b }
      enabledService (getItem services "http") fun b => setEnabled fun e => { e with http := b }) := by
  have henabled : ∀ (s : Ptr) (f : Bool → EnabledServices → EnabledServices),
      Leaves part (enabledService s fun b => setEnabled (f b)) := by
    intro s f
    refine leaves_when (leaves_bind (leaves_pass _) fun _ => ?_)
    exact leaves_bind (leaves_pass _) (fun _ => leaves_fill fun c => hpart c _)
  refine leaves_bind (leaves_fill fun c => hpart c _) (fun _ => ?_)
  exact leaves_bind (henabled _ _) (fun _ => leaves_bind (henabled _ _) fun _ => henabled _ _)

theorem leaves_cfgServicesParse
    (hpart : ∀ c l e, part { c with logCfg := l, enabledServices := e } = part c) (services : Ptr) :
    Leaves part (cfgServicesParse services) := by
  refine leaves_bind (leaves_when ?_) (fun _ => ?_)
  · refine leaves_bind (leaves_pass _) (fun _ => leaves_bind (leaves_scratch _ _) fun l => ?_)
    exact leaves_fill fun c => hpart c _ c.enabledServices
  · exact leaves_enabledServices part (fun c e => hpart c c.logCfg e) services

theorem leaves_cfgRouterParse (hpart : ∀ c r, part { c with router := r } = part c) (ports : Ports)
    (root : Ptr) : Leaves part (cfgRouterParse ports root) :=
  leaves_bind (leaves_scratch _ _) (fun _ => leaves_fill fun c => hpart c _)

theorem leaves_inMetrics (hpart : ∀ c m, part { c with metrics := m } = part c)
    (x : Parser MetricsCfg Unit) : Leaves (fun d : Draft => part d.cfg) (inMetrics x) :=
  leaves_inCfg part (leaves_within _ fun m c => hpart c m)

theorem leaves_inUnit (hpart : ∀ c u, part { c with unit := u } = part c) (x : Parser PlatUnit Unit) :
    Leaves (fun d : Draft => part d.cfg) (inUnit x) :=
  leaves_inCfg part (leaves_within _ fun u c => hpart c u)

end Leaves

/-- The sections after `switch`. -/
def restSections (ports : Ports) (config : Ptr) : Parser Draft Unit := do
  Parser.when (getItem config "metrics").isSome
    (inMetrics (cfgMetricsParse (getItem config "metrics")))
  Parser.when (getItem config "services").isSome
    (inCfg (cfgServicesParse (getItem config "services")))
  Parser.when (getItem config "unit").isSome (inUnit (cfgUnitParse (getItem config "unit")))
  inCfg (cfgRouterParse ports config)
  copy (some ((getStringValue (getItem config "public_ip_lookup")).getD "")) 2048
  inMetrics (Parser.fill fun m => { m with
    publicIpLookup := (getStringValue (getItem config "public_ip_lookup")).getD "" })

/-- The sections after `interfaces`. -/
def lastSections (ports : Ports) (config : Ptr) : Parser Draft Unit := do
  inCfg (cfgSwitchParse config)
  restSections ports config

/-- The last of them. -/
theorem leaves_routerSection {τ : Type} (part : PlatCfg → τ)
    (hpart : ∀ c m r, part { c with metrics := m, router := r } = part c) (ports : Ports) (config : Ptr) :
    Leaves (fun d : Draft => part d.cfg) (do
      inCfg (cfgRouterParse ports config)
      copy (some ((getStringValue (getItem config "public_ip_lookup")).getD "")) 2048
      inMetrics (Parser.fill fun m => { m with
        publicIpLookup := (getStringValue (getItem config "public_ip_lookup")).getD "" })) := by
  refine leaves_bind (leaves_inCfg part (leaves_cfgRouterParse part ?_ ports config)) (fun _ => ?_)
  · exact fun c r => hpart c c.metrics r
  · exact leaves_bind (leaves_pass _) (fun _ => leaves_inMetrics part (fun c m => hpart c m c.router) _)

theorem leaves_restSections {τ : Type} (part : PlatCfg → τ)
    (hpart : ∀ c m l e u r, part { c with
      metrics := m, logCfg := l, enabledServices := e, unit := u, router := r } = part c)
    (ports : Ports) (config : Ptr) :
    Leaves (fun d : Draft => part d.cfg) (restSections ports config) := by
  have hmetrics : ∀ c m, part { c with metrics := m } = part c := fun c m =>
    hpart c m c.logCfg c.enabledServices c.unit c.router
  refine leaves_bind (leaves_when (leaves_inMetrics part hmetrics _)) (fun _ => ?_)
  refine leaves_bind (leaves_when (leaves_inCfg part (leaves_cfgServicesParse part ?_ _))) (fun _ => ?_)
  · exact fun c l e => hpart c c.metrics l e c.unit c.router
  refine leaves_bind (leaves_when (leaves_inUnit part ?_ _)) (fun _ => ?_)
  · exact fun c u => hpart c c.metrics c.logCfg c.enabledServices u c.router
  exact leaves_routerSection part (fun c m r => hpart c m c.logCfg c.enabledServices c.unit r) ports config

theorem leaves_lastSections (ports : Ports) (config : Ptr) :
    Leaves (fun d : Draft => portVlanPart d.cfg) (lastSections ports config) :=
  leaves_bind (leaves_inCfg portVlanPart (leaves_cfgSwitchParse portVlanPart
    (fun _ _ _ _ _ _ => rfl) config)) fun _ =>
    leaves_restSections portVlanPart (fun _ _ _ _ _ _ => rfl) ports config

/-! ### `ethernet` and `interfaces`

    What these two sections leave alone, by the fields that they fill in. -/

section Ethernet

variable {τ : Type} (part : PlatCfg → τ)
  (hpart : ∀ c ps b, part { c with ports := ps, portsToCfg := b } = part c)

include hpart

theorem part_placePort (port : PlatPort) (sel : Selection) (c : PlatCfg) :
    part (placePort port sel c) = part c := by
  unfold placePort
  induction sel.bmap.bitsSet maxNumOfPorts generalizing c with
  | nil => rfl
  | cons i is ih =>
    rw [List.foldl_cons, ih]
    exact hpart c _ _

theorem part_platformPorts (ports : Ports) (c : PlatCfg) : part (platformPorts ports c) = part c := by
  unfold platformPorts
  induction ports.names generalizing c with
  | nil => rfl
  | cons name names ih =>
    rw [List.foldl_cons, ih]
    exact hpart c _ _

theorem leaves_cfgEthernetParse (ports : Ports) (ethernet : Ptr) :
    Leaves (fun d : Draft => part d.cfg) (cfgEthernetParse ports ethernet) := by
  refine leaves_forM (fun eth => ?_) _
  refine leaves_bind (leaves_pass _) (fun _ => leaves_bind (leaves_scratch _ _) fun port => ?_)
  refine leaves_bind (leaves_scratch _ _) (fun sel => leaves_bind (leaves_pass _) fun _ => ?_)
  exact leaves_fill (fun d => part_placePort part hpart port sel d.cfg)

end Ethernet

section Interfaces

variable {τ : Type} (part : PlatCfg → τ)
  (hpart : ∀ c vs b ls, part { c with vlans := vs, vlansToCfg := b, portsl2 := ls } = part c)

include hpart

theorem part_foldl_setVlan (vid : ℕ) (f : ℕ → PlatVlan → PlatVlan) (l : List ℕ) (d : Draft) :
    part (l.foldl (fun d i => setVlan vid (f i) d) d).cfg = part d.cfg := by
  induction l generalizing d with
  | nil => rfl
  | cons i l ih =>
    rw [List.foldl_cons, ih]
    exact hpart d.cfg _ _ _

theorem leaves_setVlan_cfg (vid : ℕ) (f : PlatVlan → PlatVlan) :
    Leaves (fun d : Draft => part d.cfg) (Parser.fill (setVlan vid f)) :=
  leaves_fill fun d => hpart d.cfg _ _ _

theorem leaves_vlanDhcp (vid : ℕ) (dhcp : Ptr) :
    Leaves (fun d : Draft => part d.cfg) (vlanDhcp vid dhcp) := by
  have hset := leaves_setVlan_cfg part hpart vid
  refine leaves_bind (leaves_pass _) (fun _ => leaves_bind (leaves_pass _) fun _ => ?_)
  refine leaves_bind (hset _) (fun _ => leaves_bind (leaves_pass _) fun _ => ?_)
  exact leaves_bind (leaves_pass _) (fun _ => hset _)

theorem leaves_cfgVlanInterfaceParse (ports : Ports) (interface : Ptr) :
    Leaves (fun d : Draft => part d.cfg) (cfgVlanInterfaceParse ports interface) := by
  have hset := fun vid => leaves_setVlan_cfg part hpart vid
  refine leaves_bind (leaves_pass _) (fun _ => leaves_bind (leaves_pass _) fun _ => ?_)
  refine leaves_bind (leaves_fill fun d => hpart d.cfg _ _ _) (fun _ =>
    leaves_bind (leaves_forM ?_ _) fun _ => ?_)
  · intro eth
    refine leaves_bind (leaves_scratch _ _) (fun sel => leaves_bind (leaves_pass _) fun _ => ?_)
    refine leaves_bind (leaves_pass _) (fun _ => leaves_bind (leaves_pass _) fun _ => ?_)
    exact leaves_fill (fun d => part_foldl_setVlan part hpart _ _ _ d)
  refine leaves_bind (hset _ _) (fun _ => leaves_when ?_)
  refine leaves_bind (leaves_when (leaves_within _ fun _ d => hpart d.cfg _ _ _)) (fun _ => ?_)
  refine leaves_bind (leaves_when ?_) (fun _ => leaves_when (leaves_vlanDhcp part hpart _ _))
  exact leaves_bind (leaves_scratch _ _) (fun _ => hset _ _)

theorem leaves_cfgPortInterfaceParse (ports : Ports) (interface : Ptr) :
    Leaves (fun d : Draft => part d.cfg) (cfgPortInterfaceParse ports interface) := by
  refine leaves_bind (leaves_pass _) (fun _ => leaves_bind (leaves_pass _) fun _ => ?_)
  refine leaves_bind (leaves_scratch _ _) (fun sel => leaves_bind (leaves_pass _) fun _ => ?_)
  exact leaves_when (leaves_within _ fun _ d => hpart d.cfg _ _ _)

theorem leaves_cfgInterfacesParse (ports : Ports) (interfaces : Ptr) :
    Leaves (fun d : Draft => part d.cfg) (cfgInterfacesParse ports interfaces) := by
  refine leaves_forM (fun interface => ?_) _
  exact leaves_orElse (leaves_cfgVlanInterfaceParse part hpart ports _)
    (leaves_cfgPortInterfaceParse part hpart ports _)

end Interfaces

/-! ### The ports and the VLANs of an accepted configuration -/

/-- The structure as `ethernet` finds it. -/
def platformDraft (ports : Ports) : Draft :=
  Draft.setCfg (fun c => numberVlans (platformPorts ports c)) {}

/-- And as `interfaces` finds it. -/
def ethernetDraft (ports : Ports) (config : Ptr) : Draft :=
  (cfgEthernetParse ports (getItem config "ethernet") (platformDraft ports)).2

/-- And as `switch` finds it. -/
def interfacesDraft (ports : Ports) (config : Ptr) : Draft :=
  (cfgInterfacesParse ports (getItem config "interfaces") (ethernetDraft ports config)).2

theorem cfgParse_ok {ports : Ports} {config : Ptr} (h : (cfgParse ports config {}).1 = .ok ()) :
    (cfgEthernetParse ports (getItem config "ethernet") (platformDraft ports)).1 = .ok () ∧
    (cfgInterfacesParse ports (getItem config "interfaces") (ethernetDraft ports config)).1 = .ok () ∧
    cfgParse ports config {} = lastSections ports config (interfacesDraft ports config) := by
  unfold cfgParse at h ⊢
  -- the tests
  iterate 6
    obtain ⟨-, heq⟩ := need_bind_ok h
    rw [heq] at h ⊢
    clear heq
  rw [fill_bind] at h ⊢
  obtain ⟨_, hethernet, heq⟩ := Parser.bind_ok h
  rw [heq] at h ⊢
  obtain ⟨_, hinterfaces, heq⟩ := Parser.bind_ok h
  rw [heq]
  exact ⟨hethernet, hinterfaces, rfl⟩

theorem portVlanPart_cfgParse {ports : Ports} {config : Ptr}
    (h : (cfgParse ports config {}).1 = .ok ()) :
    portVlanPart (cfgParse ports config {}).2.cfg = portVlanPart (interfacesDraft ports config).cfg := by
  rw [(cfgParse_ok h).2.2]
  exact leaves_lastSections ports config _

/-- The ports are those that `ethernet` has left. -/
theorem portPart_cfgParse {ports : Ports} {config : Ptr}
    (h : (cfgParse ports config {}).1 = .ok ()) :
    portPart (cfgParse ports config {}).2.cfg = portPart (ethernetDraft ports config).cfg :=
  (congrArg Prod.fst (portVlanPart_cfgParse h)).trans
    (leaves_cfgInterfacesParse portPart (fun _ _ _ _ => rfl) ports _ _)

/-- The VLANs are those that `interfaces` has left. -/
theorem vlanPart_cfgParse {ports : Ports} {config : Ptr}
    (h : (cfgParse ports config {}).1 = .ok ()) :
    vlanPart (cfgParse ports config {}).2.cfg = vlanPart
      (cfgInterfacesParse ports (getItem config "interfaces") (ethernetDraft ports config)).2.cfg :=
  congrArg Prod.snd (portVlanPart_cfgParse h)

end Ucentral.Proto
