import Ucentral.Proto.CfgParse
import Ucentral.Plat.PortCache
import Ucentral.Lib.Index

/-! Port ids as indices.

    `NAME_TO_PID` turns the name of a port of the platform into the index of bitmaps and arrays that
    have room for `MAX_NUM_OF_PORTS` ports. The parser does so in `cfg_parse` and in
    `cfg_ethernet_select_ports_parse`, the platform code where it fills its caches. Here the two parts
    of the parser keep record of the indices they use. -/

namespace Ucentral.Proto
open CJson Plat Parse Parse.Indexed Effect

/-! ### The parser with its indices -/

/-- The loop over `select-ports`, with the bits of `plat_ports_avail` and of the result that it uses. -/
def selectPortsGoIndexed (ports : Ports) : List Json → Indexed Selection Unit
  | [] => pure ()
  | p :: ps => do
    text (getStringValue (some p))
    match protoPortNameToNum ports.junk (strOf (some p)) with
    | none => need false
    | some id =>
      if id = portIdSelectAllPorts then do
        forM ports.names fun name =>
          store (ports.pid name) fun s => { s with bmap := s.bmap.setBit (ports.pid name) }
        plain (Parser.fill fun s => { s with num := ports.names.length })
      else do
        need (decide (id < maxNumOfPorts))
        store id fun s => s
        need (ports.avail id)
        store id fun s => ⟨s.bmap.setBit id, s.num + 1⟩
        selectPortsGoIndexed ports ps

/-- `cfg_ethernet_select_ports_parse` with its indices. -/
def cfgEthernetSelectPortsParseIndexed (ports : Ports) (selectPorts : Ptr) :
    Indexed Selection Unit := do
  need ports.list.isSome
  plain (Parser.fill fun _ => {})
  -- `plat_ports_avail`
  forM ports.names fun name => store (ports.pid name) fun s => s
  selectPortsGoIndexed ports (children selectPorts)

/-- The loop of `cfg_parse` over the ports of the platform, with its indices. -/
def platformPortsIndexed (ports : Ports) : Indexed Draft Unit :=
  forM ports.names fun name => store (ports.pid name) (Draft.setCfg fun c =>
    { c with
      ports := Function.update c.ports (ports.pid name)
        { c.ports (ports.pid name) with name := name, fpId := ports.pid name }
      portsToCfg := c.portsToCfg.setBit (ports.pid name) })

/-- `cfg_parse` with its indices; those of the functions it calls are recorded there. -/
def cfgParseIndexed (ports : Ports) (config : Ptr) : Indexed Draft Unit := do
  let ethernet := getItem config "ethernet"
  let interfaces := getItem config "interfaces"
  let services := getItem config "services"
  let metrics := getItem config "metrics"
  let unit := getItem config "unit"
  let lookup := getStringValue (getItem config "public_ip_lookup")
  need (isArray ethernet)
  need (isArray interfaces)
  need (optObject services)
  need (optObject metrics)
  need (optObject unit)
  need ports.list.isSome
  platformPortsIndexed ports
  plain do
    Parser.fill (Draft.setCfg numberVlans)
    cfgEthernetParse ports ethernet
    cfgInterfacesParse ports interfaces
    inCfg (cfgSwitchParse config)
    Parser.when metrics.isSome (inMetrics (cfgMetricsParse metrics))
    Parser.when services.isSome (inCfg (cfgServicesParse services))
    Parser.when unit.isSome (inUnit (cfgUnitParse unit))
    inCfg (cfgRouterParse ports config)
    copy (some (lookup.getD "")) 2048
    inMetrics (Parser.fill fun m => { m with publicIpLookup := lookup.getD "" })

/-! ### It is the parser -/

theorem foldl_setBits (ports : Ports) (names : List String) (s : Selection) :
    names.foldl (fun s name => { s with bmap := s.bmap.setBit (ports.pid name) }) s =
      { s with bmap := names.foldl (fun b name => b.setBit (ports.pid name)) s.bmap } := by
  induction names generalizing s with
  | nil => rfl
  | cons name names ih => exact ih { s with bmap := s.bmap.setBit (ports.pid name) }

theorem erases_selectPortsGoIndexed (ports : Ports) : ∀ ps : List Json,
    Erases (selectPortsGoIndexed ports ps) (selectPortsGo ports ps)
  | [] => erases_pure ()
  | p :: ps => by
      rw [selectPortsGoIndexed, selectPortsGo]
      refine erases_bind (erases_pass _) fun _ => ?_
      cases protoPortNameToNum ports.junk (strOf (some p)) with
      | none => exact erases_pass _
      | some id =>
        dsimp only
        by_cases hall : id = portIdSelectAllPorts
        · rw [if_pos hall, if_pos hall]
          have herase := erases_bind (erases_forM_store ports.pid
            (fun name (s : Selection) => { s with bmap := s.bmap.setBit (ports.pid name) })
            ports.names) fun _ => erases_plain (Parser.fill fun s : Selection =>
              { s with num := ports.names.length })
          intro s
          obtain ⟨hres, hstate⟩ := herase s
          refine ⟨hres, hstate.trans ?_⟩
          change ({ ports.names.foldl _ s.state with num := _ } : Selection) = _
          rw [foldl_setBits]
          rfl
        · rw [if_neg hall, if_neg hall, need_and_bind]
          refine erases_bind (erases_pass _) fun _ => erases_load_bind ?_
          refine erases_bind (erases_pass _) fun _ => erases_bind (erases_store _ _) fun _ => ?_
          exact erases_selectPortsGoIndexed ports ps

/-- `cfg_ethernet_select_ports_parse` selects the same with the record as without. -/
theorem erases_cfgEthernetSelectPortsParseIndexed (ports : Ports) (selectPorts : Ptr) :
    Erases (cfgEthernetSelectPortsParseIndexed ports selectPorts)
      (cfgEthernetSelectPortsParse ports selectPorts) := by
  refine erases_bind (erases_pass _) fun _ => erases_bind (erases_plain _) fun _ => ?_
  exact erases_loads_bind ports.pid (erases_selectPortsGoIndexed ports _) ports.names

theorem foldl_platformPorts (ports : Ports) : ∀ (names : List String) (d : Draft),
    names.foldl (fun d name => Draft.setCfg (fun c =>
      { c with
        ports := Function.update c.ports (ports.pid name)
          { c.ports (ports.pid name) with name := name, fpId := ports.pid name }
        portsToCfg := c.portsToCfg.setBit (ports.pid name) }) d) d =
      Draft.setCfg (fun c => names.foldl (fun c name =>
        { c with
          ports := Function.update c.ports (ports.pid name)
            { c.ports (ports.pid name) with name := name, fpId := ports.pid name }
          portsToCfg := c.portsToCfg.setBit (ports.pid name) }) c) d
  | [], _ => rfl
  | _ :: names, _ => foldl_platformPorts ports names _

theorem erases_platformPortsIndexed (ports : Ports) :
    Erases (platformPortsIndexed ports) (Parser.fill (Draft.setCfg (platformPorts ports))) := by
  intro s
  obtain ⟨hres, hstate⟩ := erases_forM_store ports.pid _ ports.names s
  exact ⟨hres, hstate.trans (foldl_platformPorts ports ports.names s.state)⟩

/-- So does `cfg_parse`. -/
theorem erases_cfgParseIndexed (ports : Ports) (config : Ptr) :
    Erases (cfgParseIndexed ports config) (cfgParse ports config) := by
  refine erases_bind (erases_pass _) fun _ => ?_
  refine erases_bind (erases_pass _) fun _ => ?_
  refine erases_bind (erases_pass _) fun _ => ?_
  refine erases_bind (erases_pass _) fun _ => ?_
  refine erases_bind (erases_pass _) fun _ => ?_
  refine erases_bind (erases_pass _) fun _ => ?_
  exact fun s => erases_bind (erases_platformPortsIndexed ports) (fun _ => erases_plain _) s

/-! ### Bounds -/

variable {ports : Ports}

/-- A port that fits has an index that does. -/
theorem pid_lt_of_portFits {name : String} (h : PortFits name) : ports.pid name < maxNumOfPorts := by
  obtain ⟨pid, hpid, hlt⟩ := h
  rw [Ports.pid, hpid]
  exact hlt

/-- The ports that are named are checked against the bound; the wildcard uses all of the platform. -/
theorem inBounds_selectPortsGoIndexed (h : ∀ name ∈ ports.names, PortFits name) : ∀ ps : List Json,
    InBounds maxNumOfPorts (selectPortsGoIndexed ports ps)
  | [] => inBounds_pure ()
  | p :: ps => by
      rw [selectPortsGoIndexed]
      refine inBounds_pass_bind fun _ => ?_
      cases protoPortNameToNum ports.junk (strOf (some p)) with
      | none => exact inBounds_pass _
      | some id =>
        dsimp only
        by_cases hall : id = portIdSelectAllPorts
        · rw [if_pos hall]
          refine inBounds_bind (inBounds_forM _ fun name hname => ?_) fun _ => inBounds_plain _
          exact inBounds_store _ (pid_lt_of_portFits (h name hname))
        · rw [if_neg hall]
          refine inBounds_need_bind fun hlt => ?_
          rw [decide_eq_true_iff] at hlt
          refine inBounds_bind (inBounds_store _ hlt) fun _ => inBounds_need_bind fun _ => ?_
          exact inBounds_bind (inBounds_store _ hlt) fun _ => inBounds_selectPortsGoIndexed h ps

theorem inBounds_cfgEthernetSelectPortsParseIndexed (h : ∀ name ∈ ports.names, PortFits name)
    (selectPorts : Ptr) :
    InBounds maxNumOfPorts (cfgEthernetSelectPortsParseIndexed ports selectPorts) := by
  refine inBounds_need_bind fun _ => inBounds_bind (inBounds_plain _) fun _ => ?_
  refine inBounds_bind (inBounds_forM _ fun name hname => ?_) fun _ =>
    inBounds_selectPortsGoIndexed h _
  exact inBounds_store _ (pid_lt_of_portFits (h name hname))

theorem inBounds_cfgParseIndexed (h : ∀ name ∈ ports.names, PortFits name) (config : Ptr) :
    InBounds maxNumOfPorts (cfgParseIndexed ports config) := by
  refine inBounds_need_bind fun _ => inBounds_need_bind fun _ => inBounds_need_bind fun _ => ?_
  refine inBounds_need_bind fun _ => inBounds_need_bind fun _ => inBounds_need_bind fun _ => ?_
  refine inBounds_bind (inBounds_forM _ fun name hname => ?_) fun _ => inBounds_plain _
  exact inBounds_store _ (pid_lt_of_portFits (h name hname))

/-- `{"ethernet": [], "interfaces": []}` -/
def noPortsConfig : Ptr := some (.obj [("ethernet", .arr []), ("interfaces", .arr [])])

/-- Even a configuration that is about no port makes `cfg_parse` use all ports of the platform. -/
theorem cfgParseIndexed_log (h : ports.list.isSome = true) (s : Traced Draft ℕ) :
    (cfgParseIndexed ports noPortsConfig s).2.log = s.log ++ ports.names.map ports.pid := by
  have hethernet : isArray (getItem noPortsConfig "ethernet") = true := by decide +kernel
  have hinterfaces : isArray (getItem noPortsConfig "interfaces") = true := by decide +kernel
  have hservices : optObject (getItem noPortsConfig "services") = true := by decide +kernel
  have hmetrics : optObject (getItem noPortsConfig "metrics") = true := by decide +kernel
  have hunit : optObject (getItem noPortsConfig "unit") = true := by decide +kernel
  rw [cfgParseIndexed]
  simp only [need_bind, hethernet, hinterfaces, hservices, hmetrics, hunit, h, if_true]
  rw [bind_plain_log, platformPortsIndexed, forM_store_log]

theorem lt_of_inBounds_cfgParseIndexed (ports : Ports) (hlist : ports.list.isSome = true)
    (h : InBounds maxNumOfPorts (cfgParseIndexed ports noPortsConfig)) {name : String}
    (hname : name ∈ ports.names) : ports.pid name < maxNumOfPorts := by
  obtain ⟨l, hl, hlt⟩ := h ⟨{}, []⟩
  rw [cfgParseIndexed_log hlist] at hl
  exact hlt _ (List.append_cancel_left hl ▸ List.mem_map_of_mem hname)

/-! ### When the indices fit -/

/-- What is asked for the ports that the platform lists, and for those of them with PoE: no index is
    out of bounds, and a port that does not fit makes the functions fail. -/
structure PortIdsFit (names poeNames : List String) : Prop where
  parse : ∀ ports : Ports, ports.list = some names → ∀ config,
    InBounds maxNumOfPorts (cfgParseIndexed ports config)
  select : ∀ ports : Ports, ports.list = some names → ∀ selectPorts,
    InBounds maxNumOfPorts (cfgEthernetSelectPortsParseIndexed ports selectPorts)
  caches : ∀ (δ : Type) (dv : PortDev δ), dv.Lists names poeNames →
    CacheQuiet (platStatePortsInit dv) ∧ CacheQuiet (platStatePoeInit dv) ∧
      CacheQuiet (platStatePortsl2Init dv)
  parseReports : (∃ name ∈ names, ¬ PortFits name) → ∀ ports : Ports, ports.list = some names →
    (∀ config, (cfgParse ports config {}).1 ≠ .ok ()) ∧
      ∀ selectPorts, (cfgEthernetSelectPortsParse ports selectPorts {}).1 ≠ .ok ()
  cachesReport : ∀ (δ : Type) (dv : PortDev δ), dv.Lists names poeNames → ∀ s,
    ((∃ name ∈ names, ¬ PortFits name) → Prog.retCode (platStatePortsInit dv s).1 ≠ 0 ∧
      Prog.retCode (platStatePortsl2Init dv s).1 ≠ 0) ∧
    ((∃ name ∈ poeNames, ¬ PortFits name) → Prog.retCode (platStatePoeInit dv s).1 ≠ 0)

/-- `Ethernet<k>`. -/
def portName (k : UInt16) : String := pidToName k.toNat

theorem nameToPid_portName (k : UInt16) : nameToPid (portName k) = some k.toNat := by
  rw [portName, nameToPid_pidToName, Nat.mod_eq_of_lt k.toNat_lt]

theorem portFits_portName (k : UInt16) : PortFits (portName k) ↔ k.toNat < maxNumOfPorts := by
  constructor
  · rintro ⟨pid, hpid, hlt⟩
    rw [nameToPid_portName] at hpid
    injection hpid with hpid
    rwa [hpid]
  · exact fun hlt => ⟨_, nameToPid_portName k, hlt⟩

/-- The ports of the platform that are used as indices fit exactly if their numbers are small. -/
theorem port_ids_fit_iff (ks poeKs : List UInt16) :
    PortIdsFit (ks.map portName) (poeKs.map portName) ↔
      (∀ k ∈ ks, k.toNat < maxNumOfPorts) ∧ ∀ k ∈ poeKs, k.toNat < maxNumOfPorts := by
  constructor
  · intro hfit
    refine ⟨fun k hk => ?_, fun k hk => ?_⟩
    · -- the loop of `cfg_parse` comes to every port
      have hmem : portName k ∈ ks.map portName := List.mem_map_of_mem hk
      have hpid := lt_of_inBounds_cfgParseIndexed
        ⟨some (ks.map portName), 0, Inet.InAddr.zero⟩ rfl (hfit.parse _ rfl _) hmem
      rwa [Ports.pid, nameToPid_portName] at hpid
    · exact poe_lt_of_quiet (hfit.caches Unit _ (lists_listingSwitch _ _)).2.1
        (List.mem_map_of_mem hk) (nameToPid_portName k)
  · rintro ⟨hks, hpoe⟩
    have hnames : ∀ name ∈ ks.map portName, PortFits name := by
      simpa [portFits_portName] using hks
    have hpoeNames : ∀ name ∈ poeKs.map portName, PortFits name := by
      simpa [portFits_portName] using hpoe
    have hlist : ∀ ports : Ports, ports.list = some (ks.map portName) →
        ∀ name ∈ ports.names, PortFits name := by
      intro ports hports
      rwa [Ports.names, hports]
    exact {
      parse := fun ports hports config => inBounds_cfgParseIndexed (hlist ports hports) config
      select := fun ports hports => inBounds_cfgEthernetSelectPortsParseIndexed (hlist ports hports)
      caches := fun δ dv hdv => ⟨quiet_platStatePortsInit hdv hnames,
        quiet_platStatePoeInit hdv hpoeNames, quiet_platStatePortsl2Init hdv hnames⟩
      -- there is no port that does not fit
      parseReports := fun ⟨name, hname, hnot⟩ => absurd (hnames name hname) hnot
      cachesReport := fun δ dv hdv s =>
        ⟨fun ⟨name, hname, hnot⟩ => absurd (hnames name hname) hnot,
          fun ⟨name, hname, hnot⟩ => absurd (hpoeNames name hname) hnot⟩ }

/-- A switch with 32 ports may number them in steps of four. -/
theorem port_124_does_not_fit : ¬ PortIdsFit ["Ethernet0", "Ethernet124"] [] := by
  intro hfit
  have hpid := lt_of_inBounds_cfgParseIndexed
    ⟨some ["Ethernet0", "Ethernet124"], 0, Inet.InAddr.zero⟩ rfl (hfit.parse _ rfl _)
    (List.mem_cons_of_mem _ (List.mem_singleton_self "Ethernet124"))
  exact absurd hpid (by decide +kernel)

end Ucentral.Proto
