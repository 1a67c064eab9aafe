import Mathlib.Data.List.Dedup
import Ucentral.Proto.SelectPorts

/-! `select-ports` as a whole, and how many ports it selects.

    The loop goes on as long as the entries name ports; the first entry that does not decides how it
    ends. The number of ports is counted beside the bitmap, one for each entry, so a port that is named
    twice is one bit and counts as two. -/

namespace Ucentral.Proto
open CJson Plat Parse

/-! ### How the loop ends -/

/-- What becomes of an entry; nothing if it is no string. -/
def entryOutcome (ports : Ports) (j : Json) : Option Outcome :=
  (getStringValue (some j)).map (selectEntry ports)

/-- How the loop ends at an entry, unless it goes on: a null pointer is given to `strcmp`, all ports
    are selected, or the entry is refused. -/
def entryEnd (ports : Ports) (j : Json) : Option (Except Stop Unit) :=
  match entryOutcome ports j with
  | none => some (.error .fault)
  | some (.port _) => none
  | some .all => some (.ok ())
  | some .rejected => some (.error .reject)

/-- The ports that are named before the loop ends. -/
def namedPorts (ports : Ports) : List Json → List ℕ
  | [] => []
  | j :: ps =>
    match entryOutcome ports j with
    | some (.port k) => k :: namedPorts ports ps
    | _ => []

/-- A bitmap with more bits. -/
def setBits (b : Bitmap) (is : List ℕ) : Bitmap := is.foldl Bitmap.setBit b

/-- The ports of the platform. -/
def Ports.pids (ports : Ports) : List ℕ := ports.names.map ports.pid

theorem setBits_apply (is : List ℕ) (b : Bitmap) (i : ℕ) :
    setBits b is i = true ↔ i ∈ is ∨ b i = true := by
  induction is generalizing b with
  | nil => simp [setBits]
  | cons k is ih =>
    refine (ih (b.setBit k)).trans ?_
    rw [List.mem_cons, Bitmap.setBit, Bool.or_eq_true, beq_iff_eq]
    tauto

theorem foldl_names (ports : Ports) (b : Bitmap) :
    ports.names.foldl (fun b name => b.setBit (ports.pid name)) b = setBits b ports.pids :=
  List.foldl_map.symm

theorem avail_iff (ports : Ports) (k : ℕ) : ports.avail k = true ↔ k ∈ ports.pids := by
  rw [Ports.avail, foldl_names, setBits_apply]
  simp [Bitmap.clear]

/-- An entry that names a port names one of the platform. -/
theorem mem_pids_of_port {ports : Ports} {s : String} {k : ℕ}
    (h : selectEntry ports s = .port k) : k < maxNumOfPorts ∧ k ∈ ports.pids := by
  rw [selectEntry] at h
  cases hnum : protoPortNameToNum ports.junk s with
  | none => rw [hnum] at h; cases h
  | some id =>
    simp only [hnum] at h
    split at h
    · cases h
    · split at h
      · next htest =>
        obtain rfl : id = k := Outcome.port.inj h
        rw [Bool.and_eq_true, decide_eq_true_iff, avail_iff] at htest
        exact htest
      · cases h

theorem mem_namedPorts {ports : Ports} {k : ℕ} : ∀ {ps : List Json}, k ∈ namedPorts ports ps →
    k < maxNumOfPorts ∧ k ∈ ports.pids
  | j :: ps, h => by
      rw [namedPorts] at h
      split at h
      · next o hport =>
        rcases List.mem_cons.mp h with rfl | h
        · obtain ⟨s, -, hs⟩ := Option.map_eq_some_iff.mp hport
          exact mem_pids_of_port hs
        · exact mem_namedPorts h
      · cases h

theorem selectPortsGo_cons (ports : Ports) (j : Json) (ps : List Json) (t : Selection) :
    selectPortsGo ports (j :: ps) t =
      match entryOutcome ports j with
      | none => (.error .fault, t)
      | some o => o.after ports ps t := by
  cases hj : getStringValue (some j) with
  | none =>
    rw [selectPortsGo, hj, text_bind, entryOutcome, hj]
    rfl
  | some s =>
    obtain rfl : j = .str s := by
      cases j with
      | str s' => exact congrArg Json.str (Option.some.inj hj)
      | _ => cases hj
    exact selectPortsGo_entry ports s ps t

/-- The selection when the loop ends so. -/
def selected (ports : Ports) (ids : List ℕ) (t : Selection) :
    Option (Except Stop Unit) → Except Stop Unit × Selection
  | none => (.ok (), ⟨setBits t.bmap ids, t.num + ids.length⟩)
  | some (.ok ()) => (.ok (), ⟨setBits (setBits t.bmap ids) ports.pids, ports.names.length⟩)
  | some (.error e) => (.error e, ⟨setBits t.bmap ids, t.num + ids.length⟩)

/-- The loop in closed form. -/
theorem selectPortsGo_eq (ports : Ports) : ∀ (ps : List Json) (t : Selection),
    selectPortsGo ports ps t =
      selected ports (namedPorts ports ps) t (ps.findSome? (entryEnd ports))
  | [], _ => rfl
  | j :: ps, t => by
      rw [selectPortsGo_cons, List.findSome?_cons, entryEnd, namedPorts]
      cases entryOutcome ports j with
      | none => rfl
      | some o =>
        cases o with
        | all =>
          change ((.ok (), ⟨_, _⟩) : Except Stop Unit × Selection) = _
          rw [foldl_names]
          rfl
        | rejected => rfl
        | port k =>
          refine (selectPortsGo_eq ports ps _).trans ?_
          have hnum : t.num + 1 + (namedPorts ports ps).length =
              t.num + (k :: namedPorts ports ps).length := by
            rw [List.length_cons]
            omega
          dsimp only
          cases ps.findSome? (entryEnd ports) with
          | none => simp only [selected, hnum]; rfl
          | some r =>
            cases r with
            | ok u => rfl
            | error e => simp only [selected, hnum]; rfl

/-! ### How many ports are selected -/

/-- As many bits as there are different numbers. -/
theorem length_bitsSet {b : Bitmap} {is : List ℕ} {len : ℕ} (hlt : ∀ i ∈ is, i < len)
    (hb : ∀ i, b i = true ↔ i ∈ is) : (b.bitsSet len).length = is.dedup.length := by
  refine ((List.perm_ext_iff_of_nodup (b.nodup_bitsSet len) (List.nodup_dedup is)).mpr fun i => ?_).length_eq
  rw [Bitmap.mem_bitsSet, List.mem_dedup, hb]
  exact and_iff_right_of_imp (hlt i)

theorem length_dedup_eq_iff {is : List ℕ} : is.length = is.dedup.length ↔ is.Nodup :=
  ⟨fun h => List.dedup_eq_self.mp ((List.dedup_sublist is).eq_of_length h.symm),
    fun h => by rw [List.dedup_eq_self.mpr h]⟩

theorem pids_platform (ks : List UInt16) (junk : ℕ) (stack : Inet.InAddr) :
    (platform ks junk stack).pids = ks.map UInt16.toNat := by
  have hpid : ∀ k, (platform ks junk stack).pid (portName k) = k.toNat := by
    intro k
    rw [Ports.pid, nameToPid_portName]
    rfl
  have hnames : (platform ks junk stack).names = ks.map portName := rfl
  rw [Ports.pids, hnames, List.map_map]
  exact List.map_congr_left fun k _ => hpid k

/-- The string names a port of the platform. -/
def NamesPort (ks : List UInt16) (junk : ℕ) (j : Json) (k : ℕ) : Prop :=
  ∃ s, j = .str s ∧ ¬ IsWildcard s ∧ Reads junk s.toList k ∧ k ∈ ks.map UInt16.toNat

/-- Every entry names a port of the platform, and two entries name the same one. -/
def Repeats (ks : List UInt16) (junk : ℕ) (ps : List Json) : Prop :=
  ∃ ids, List.Forall₂ (NamesPort ks junk) ps ids ∧ ¬ ids.Nodup

section Platform

variable {ks : List UInt16} {junk : ℕ} {stack : Inet.InAddr}

theorem entryOutcome_port_iff (hks : ∀ k ∈ ks, k.toNat < maxNumOfPorts) {j : Json} {k : ℕ} :
    entryOutcome (platform ks junk stack) j = some (.port k) ↔ NamesPort ks junk j k := by
  have hlt : ∀ {i}, i ∈ ks.map UInt16.toNat → i < maxNumOfPorts := by
    intro i hi
    obtain ⟨p, hp, rfl⟩ := List.mem_map.mp hi
    exact hks p hp
  have hjunk : (platform ks junk stack).junk = junk := rfl
  rw [entryOutcome, Option.map_eq_some_iff]
  constructor
  · rintro ⟨s, hs, hport⟩
    obtain rfl : j = .str s := by
      cases j with
      | str s' => exact congrArg Json.str (Option.some.inj hs)
      | _ => cases hs
    have hmem := (mem_pids_of_port hport).2
    rw [pids_platform] at hmem
    have hwild : ¬ IsWildcard s := by
      intro hw
      have hnum : protoPortNameToNum (platform ks junk stack).junk s = some portIdSelectAllPorts :=
        if_pos hw
      rw [selectEntry, hnum] at hport
      cases hport
    refine ⟨s, rfl, hwild, ?_, hmem⟩
    rw [← protoPortNameToNum_iff hwild]
    rw [selectEntry, hjunk] at hport
    cases hnum : protoPortNameToNum junk s with
    | none => rw [hnum] at hport; cases hport
    | some id =>
      simp only [hnum] at hport
      split at hport
      · cases hport
      · split at hport
        · exact congrArg some (Outcome.port.inj hport)
        · cases hport
  · rintro ⟨s, rfl, hwild, hreads, hmem⟩
    refine ⟨s, rfl, ?_⟩
    have hall : k ≠ portIdSelectAllPorts := by
      have h := hlt hmem
      unfold maxNumOfPorts at h
      unfold portIdSelectAllPorts
      omega
    have htest : (decide (k < maxNumOfPorts) && (platform ks junk stack).avail k) = true := by
      rw [Bool.and_eq_true, decide_eq_true_iff, avail_iff, pids_platform]
      exact ⟨hlt hmem, hmem⟩
    rw [selectEntry, hjunk, (protoPortNameToNum_iff hwild).mpr hreads]
    simp only [if_neg hall, if_pos htest]

/-- A loop that comes to the end of the array has found a port in each entry. -/
theorem findSome?_eq_none_iff (hks : ∀ k ∈ ks, k.toNat < maxNumOfPorts) : ∀ {ps : List Json}
    {ids : List ℕ}, List.Forall₂ (NamesPort ks junk) ps ids ↔
      ps.findSome? (entryEnd (platform ks junk stack)) = none ∧
        namedPorts (platform ks junk stack) ps = ids
  | [], ids => by
      rw [List.forall₂_nil_left_iff]
      exact ⟨fun h => ⟨rfl, h.symm⟩, fun h => h.2.symm⟩
  | j :: ps, ids => by
      rw [List.findSome?_cons, entryEnd, namedPorts]
      cases hj : entryOutcome (platform ks junk stack) j with
      | none =>
        refine iff_of_false ?_ (by simp)
        rintro (_ | ⟨hport, -⟩)
        rw [(entryOutcome_port_iff hks).mpr hport] at hj
        cases hj
      | some o =>
        cases o with
        | port k =>
          dsimp only
          constructor
          · rintro (_ | ⟨hport, hps⟩)
            rw [(entryOutcome_port_iff hks).mpr hport] at hj
            cases hj
            obtain ⟨hnone, hids⟩ := (findSome?_eq_none_iff hks).mp hps
            exact ⟨hnone, congrArg _ hids⟩
          · rintro ⟨hnone, rfl⟩
            exact .cons ((entryOutcome_port_iff hks).mp hj)
              ((findSome?_eq_none_iff hks).mpr ⟨hnone, rfl⟩)
        | all =>
          refine iff_of_false ?_ (by simp)
          rintro (_ | ⟨hport, -⟩)
          rw [(entryOutcome_port_iff hks).mpr hport] at hj
          cases hj
        | rejected =>
          refine iff_of_false ?_ (by simp)
          rintro (_ | ⟨hport, -⟩)
          rw [(entryOutcome_port_iff hks).mpr hport] at hj
          cases hj

/-! ### The count -/

/-- What `cfg_port_interface_parse` does with the port once it has taken it. -/
def portInterfaceBody (interface : Ptr) (i : ℕ) : Parser Draft Unit :=
  let ipv4 := getItem interface "ipv4"
  let subnetList := getItem ipv4 "subnet"
  Parser.when (ipv4.isSome && subnetList.isSome)
    (Parser.within (fun d : Draft => d.cfg.portsl2 i)
      (fun v => Draft.setCfg fun c => { c with portsl2 := Function.update c.portsl2 i v })
      (cfgInterfaceParseIpv4 subnetList))

/-- An interface that is no VLAN and has one element, with these `select-ports`. -/
structure SelectsPorts (interface selectPorts : Ptr) : Prop where
  vlan : (getItem interface "vlan").isNone = true
  one : getArraySize (getItem interface "ethernet") = 1
  select : getItemCI (getArrayItem (getItem interface "ethernet") 0) "select-ports" = selectPorts

theorem cfgPortInterfaceParse_run (ports : Ports) {interface selectPorts : Ptr}
    (h : SelectsPorts interface selectPorts) (d : Draft) :
    cfgPortInterfaceParse ports interface d =
      match cfgEthernetSelectPortsParse ports selectPorts {} with
      | (.ok _, sel) =>
        if sel.num = 1 then
          portInterfaceBody interface ((sel.bmap.bitsSet maxNumOfPorts).headD maxNumOfPorts) d
        else (.error .reject, d)
      | (.error e, _) => (.error e, d) := by
  rw [cfgPortInterfaceParse, need_bind, if_pos h.vlan, need_bind, if_pos (by simpa using h.one),
    h.select]
  change Parser.bind (Parser.scratch {} (cfgEthernetSelectPortsParse ports selectPorts)) _ d = _
  unfold Parser.bind Parser.scratch
  rcases cfgEthernetSelectPortsParse ports selectPorts {} with ⟨e | u, sel⟩
  · rfl
  · dsimp only
    rw [need_bind]
    by_cases hnum : sel.num = 1
    · rw [if_pos (by simpa using hnum), if_pos hnum]
      rfl
    · rw [if_neg (by simpa using hnum), if_neg hnum]

/-- What is asked for an array that is accepted: the number is that of the bits, which are ports of the
    platform, a wildcard selects all of these, and an interface with this array goes on with a port
    exactly if it is the only one selected. -/
structure PortsCounted (ks : List UInt16) (ports : Ports) (selectPorts : Ptr) : Prop where
  count : ∀ sel, cfgEthernetSelectPortsParse ports selectPorts {} = (.ok (), sel) →
    sel.num = (sel.bmap.bitsSet maxNumOfPorts).length
  avail : ∀ sel, cfgEthernetSelectPortsParse ports selectPorts {} = (.ok (), sel) →
    ∀ k, sel.bmap k = true → k ∈ ks.map UInt16.toNat
  wildcard : ∀ sel, cfgEthernetSelectPortsParse ports selectPorts {} = (.ok (), sel) →
    (∃ s, Json.str s ∈ children selectPorts ∧ IsWildcard s) →
    ∀ k, sel.bmap k = true ↔ k ∈ ks.map UInt16.toNat
  one : ∀ interface, SelectsPorts interface selectPorts → ∀ d sel i,
    cfgEthernetSelectPortsParse ports selectPorts {} = (.ok (), sel) →
    sel.bmap.bitsSet maxNumOfPorts = [i] →
    cfgPortInterfaceParse ports interface d = portInterfaceBody interface i d
  other : ∀ interface, SelectsPorts interface selectPorts → ∀ d,
    (¬ ∃ sel i, cfgEthernetSelectPortsParse ports selectPorts {} = (.ok (), sel) ∧
      sel.bmap.bitsSet maxNumOfPorts = [i]) →
    (cfgPortInterfaceParse ports interface d).1 ≠ .ok ()

/-- An interface takes a port where the number is that of the bits. -/
theorem portInterface_of_count {ks : List UInt16} {ports : Ports} {selectPorts : Ptr}
    (count : ∀ sel, cfgEthernetSelectPortsParse ports selectPorts {} = (.ok (), sel) →
      sel.num = (sel.bmap.bitsSet maxNumOfPorts).length)
    (avail : ∀ sel, cfgEthernetSelectPortsParse ports selectPorts {} = (.ok (), sel) →
      ∀ k, sel.bmap k = true → k ∈ ks.map UInt16.toNat)
    (wildcard : ∀ sel, cfgEthernetSelectPortsParse ports selectPorts {} = (.ok (), sel) →
      (∃ s, Json.str s ∈ children selectPorts ∧ IsWildcard s) →
      ∀ k, sel.bmap k = true ↔ k ∈ ks.map UInt16.toNat) :
    PortsCounted ks ports selectPorts := by
  refine ⟨count, avail, wildcard, fun interface h d sel i hsel hone => ?_, fun interface h d hno => ?_⟩
  · have hnum : sel.num = 1 := by
      rw [count sel hsel, hone]
      rfl
    rw [cfgPortInterfaceParse_run ports h, hsel]
    dsimp only
    rw [if_pos hnum, hone]
    rfl
  · rw [cfgPortInterfaceParse_run ports h]
    rcases hsel : cfgEthernetSelectPortsParse ports selectPorts {} with ⟨e | u, sel⟩
    · exact nofun
    · dsimp only
      have hnum : sel.num ≠ 1 := by
        intro hnum
        rw [count sel hsel] at hnum
        obtain ⟨i, hi⟩ := List.length_eq_one_iff.mp hnum
        exact hno ⟨sel, i, hsel, hi⟩
      rw [if_neg hnum]
      exact nofun

variable (ks junk stack) in
theorem cfgEthernetSelectPortsParse_run (selectPorts : Ptr) :
    cfgEthernetSelectPortsParse (platform ks junk stack) selectPorts {} =
      selected (platform ks junk stack) (namedPorts (platform ks junk stack) (children selectPorts)) {}
        ((children selectPorts).findSome? (entryEnd (platform ks junk stack))) := by
  rw [← selectPortsGo_eq]
  rfl

/-- A wildcard in the array ends the loop, unless something before it does. -/
theorem findSome?_ne_none_of_wildcard {s : String} {ps : List Json} (hs : IsWildcard s)
    (hmem : Json.str s ∈ ps) : ps.findSome? (entryEnd (platform ks junk stack)) ≠ none := by
  intro hnone
  have hend := List.findSome?_eq_none_iff.mp hnone _ hmem
  have hnum : protoPortNameToNum (platform ks junk stack).junk s = some portIdSelectAllPorts :=
    if_pos hs
  have hall : entryOutcome (platform ks junk stack) (.str s) = some .all := by
    rw [entryOutcome, getStringValue_str, Option.map_some, selectEntry, hnum]
    rfl
  rw [entryEnd, hall] at hend
  cases hend

variable (ks junk stack) in
/-- The bits, when an entry selects all ports: those named before are among them. -/
theorem setBits_pids (ps : List Json) (k : ℕ) :
    setBits (setBits Bitmap.clear (namedPorts (platform ks junk stack) ps))
      (platform ks junk stack).pids k = true ↔ k ∈ ks.map UInt16.toNat := by
  rw [setBits_apply, setBits_apply]
  constructor
  · rintro (h | h | h)
    · rwa [pids_platform] at h
    · have hmem := (mem_namedPorts h).2
      rwa [pids_platform] at hmem
    · cases h
  · intro h
    rw [pids_platform]
    exact Or.inl h

/-- If an entry ends the loop, the ports are counted right. -/
theorem portsCounted_of_end (hnodup : ks.Nodup) (hks : ∀ k ∈ ks, k.toNat < maxNumOfPorts)
    {selectPorts : Ptr} {r : Except Stop Unit}
    (hend : (children selectPorts).findSome? (entryEnd (platform ks junk stack)) = some r) :
    PortsCounted ks (platform ks junk stack) selectPorts := by
  have hrun := cfgEthernetSelectPortsParse_run ks junk stack selectPorts
  rw [hend] at hrun
  cases r with
  | error e =>
    have hno : ∀ sel,
        cfgEthernetSelectPortsParse (platform ks junk stack) selectPorts {} ≠ (.ok (), sel) := by
      intro sel hsel
      rw [hrun] at hsel
      cases hsel
    exact portInterface_of_count (fun sel h => absurd h (hno sel)) (fun sel h => absurd h (hno sel))
      fun sel h => absurd h (hno sel)
  | ok u =>
    refine portInterface_of_count ?_ ?_ ?_
    · intro sel hsel
      rw [hrun] at hsel
      cases hsel
      have hids : (ks.map UInt16.toNat).Nodup := hnodup.map fun a b h => UInt16.toNat_inj.mp h
      have hlt : ∀ i ∈ ks.map UInt16.toNat, i < maxNumOfPorts := by
        intro i hi
        obtain ⟨k, hk, rfl⟩ := List.mem_map.mp hi
        exact hks k hk
      have hnames : (platform ks junk stack).names.length = (ks.map UInt16.toNat).length := by
        rw [List.length_map]
        exact List.length_map _
      have hbits := length_bitsSet hlt (setBits_pids ks junk stack (children selectPorts))
      exact hnames.trans ((length_dedup_eq_iff.mpr hids).trans hbits.symm)
    · intro sel hsel k hk
      rw [hrun] at hsel
      cases hsel
      exact (setBits_pids ks junk stack _ k).mp hk
    · intro sel hsel _ k
      rw [hrun] at hsel
      cases hsel
      exact setBits_pids ks junk stack _ k

/-- If every entry names a port, they are counted right if none is named twice. -/
theorem portsCounted_iff_nodup {selectPorts : Ptr}
    (hend : (children selectPorts).findSome? (entryEnd (platform ks junk stack)) = none) :
    PortsCounted ks (platform ks junk stack) selectPorts ↔
      (namedPorts (platform ks junk stack) (children selectPorts)).Nodup := by
  have hrun := cfgEthernetSelectPortsParse_run ks junk stack selectPorts
  rw [hend] at hrun
  generalize hids : namedPorts (platform ks junk stack) (children selectPorts) = ids at hrun
  have hnamed : ∀ k ∈ ids, k < maxNumOfPorts ∧ k ∈ ks.map UInt16.toNat := by
    intro k hk
    rw [← pids_platform ks junk stack]
    exact mem_namedPorts (hids ▸ hk)
  have hbits : ∀ k, setBits Bitmap.clear ids k = true ↔ k ∈ ids := by
    intro k
    rw [setBits_apply]
    exact or_iff_left (by simp [Bitmap.clear])
  have hlen := length_bitsSet (fun i hi => (hnamed i hi).1) hbits
  constructor
  · intro h
    have hcount : 0 + ids.length = ((setBits Bitmap.clear ids).bitsSet maxNumOfPorts).length :=
      h.count _ hrun
    rw [Nat.zero_add, hlen] at hcount
    exact length_dedup_eq_iff.mp hcount
  · intro hdistinct
    refine portInterface_of_count ?_ ?_ ?_
    · intro sel hsel
      rw [hrun] at hsel
      cases hsel
      exact (Nat.zero_add _).trans ((length_dedup_eq_iff.mpr hdistinct).trans hlen.symm)
    · intro sel hsel k hk
      rw [hrun] at hsel
      cases hsel
      exact (hnamed k ((hbits k).mp hk)).2
    · rintro sel - ⟨s, hmem, hs⟩
      exact absurd hend (findSome?_ne_none_of_wildcard hs hmem)

/-- The ports are counted right exactly if none is counted twice. -/
theorem portsCounted_iff (ks : List UInt16) (hnodup : ks.Nodup)
    (hks : ∀ k ∈ ks, k.toNat < maxNumOfPorts) (junk : ℕ) (stack : Inet.InAddr) (selectPorts : Ptr) :
    PortsCounted ks (platform ks junk stack) selectPorts ↔
      ¬ Repeats ks junk (children selectPorts) := by
  have hforall : ∀ ids, List.Forall₂ (NamesPort ks junk) (children selectPorts) ids ↔
      (children selectPorts).findSome? (entryEnd (platform ks junk stack)) = none ∧
        namedPorts (platform ks junk stack) (children selectPorts) = ids :=
    fun ids => findSome?_eq_none_iff hks
  simp only [Repeats, hforall]
  cases hend : (children selectPorts).findSome? (entryEnd (platform ks junk stack)) with
  | none => simp [portsCounted_iff_nodup hend]
  | some r => simp [portsCounted_of_end hnodup hks hend]

theorem portsCounted_two : PortsCounted [1, 2] (platform [1, 2] 0 .zero)
    (some (.arr [.str "Ethernet1", .str "Ethernet*"])) := by
  refine (portsCounted_iff [1, 2] (by decide) (by simp [maxNumOfPorts]) 0 .zero _).mpr ?_
  rintro ⟨ids, hforall, -⟩
  cases hforall with
  | cons _ htail =>
    cases htail with
    | cons hname _ =>
      obtain ⟨s, hs, hwild, -⟩ := hname
      cases hs
      exact hwild (Or.inl rfl)

/-- `["Ethernet1", "Ethernet1"]` -/
def twicePort1 : Ptr := some (.arr [.str "Ethernet1", .str "Ethernet1"])

theorem not_portsCounted_of_num {ports : Ports} {selectPorts : Ptr}
    (hok : (cfgEthernetSelectPortsParse ports selectPorts {}).1 = .ok ())
    (hne : (cfgEthernetSelectPortsParse ports selectPorts {}).2.num ≠
      ((cfgEthernetSelectPortsParse ports selectPorts {}).2.bmap.bitsSet maxNumOfPorts).length) :
    ¬ PortsCounted ks ports selectPorts := by
  rcases hsel : cfgEthernetSelectPortsParse ports selectPorts {} with ⟨r, sel⟩
  rw [hsel] at hok hne
  obtain rfl : r = .ok () := hok
  exact fun h => hne (h.count sel hsel)

/-- One port, named twice, is counted as two, and an interface with it is refused. -/
theorem port_counted_twice :
    (cfgEthernetSelectPortsParse (platform [1, 2] 0 .zero) twicePort1 {}).1 = .ok () ∧
    (cfgEthernetSelectPortsParse (platform [1, 2] 0 .zero) twicePort1 {}).2.num = 2 ∧
    (cfgEthernetSelectPortsParse (platform [1, 2] 0 .zero) twicePort1 {}).2.bmap.bitsSet
      maxNumOfPorts = [1] ∧
    (cfgPortInterfaceParse (platform [1, 2] 0 .zero) (some (.obj [("ethernet",
      .arr [.obj [("select-ports", .arr [.str "Ethernet1", .str "Ethernet1"])]])])) {}).1 =
        .error .reject ∧
    ¬ PortsCounted [1, 2] (platform [1, 2] 0 .zero) twicePort1 := by
  have hok : (cfgEthernetSelectPortsParse (platform [1, 2] 0 .zero) twicePort1 {}).1 = .ok () := by
    decide +kernel
  refine ⟨hok, by decide +kernel, by decide +kernel, by decide +kernel, ?_⟩
  exact not_portsCounted_of_num hok (by decide +kernel)

end Platform

end Ucentral.Proto
