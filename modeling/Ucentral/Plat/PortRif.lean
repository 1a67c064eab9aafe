import Ucentral.Lib.Run
import Ucentral.Plat.Switch
import Ucentral.Plat.Vlans
import Ucentral.Proto.CfgPorts

/-! The IPv4 address of a port, over calls of `plat_portl2_rif_set`.

    A call removes the cached address if the port is to have none, and writes the new one if it differs
    from the cached one. What differs is decided by address and length: a port without an address is
    cached as 0.0.0.0/0, so that this one is never written to it. -/

namespace Ucentral.Plat.Rif
open Inet Run

/-! ### The calls to the switch -/

/-- How a switch understands a prefix that is to be deleted: by its address, as it is sent by
    `gnma_portl2_erif_attr_pref_delete`, or as a whole. -/
inductive Naming
  | address | whole
  deriving DecidableEq

def Naming.names : Naming → IpPrefix → IpPrefix → Bool
  | .address, given, stored => given.ip == stored.ip
  | .whole, given, stored => given == stored

/-- The address of each port, by name. -/
abbrev PortAddrs := String → Option IpPrefix

/-- `gnma_portl2_erif_attr_pref_update` with one prefix. -/
def gnmaPortl2ErifAttrPrefUpdate (port : String) (pref : IpPrefix) (v : PortAddrs) : PortAddrs :=
  Function.update v port (some pref)

/-- `gnma_portl2_erif_attr_pref_delete`. -/
def gnmaPortl2ErifAttrPrefDelete (n : Naming) (port : String) (pref : IpPrefix) (v : PortAddrs) :
    PortAddrs :=
  Function.update v port ((v port).filter fun stored => !n.names pref stored)

/-! ### The function -/

/-- `portsl2_rif_ipv4` of `plat_state`, and the switch. -/
structure RifState where
  cache : ℕ → PlatIpv4
  dev : PortAddrs

/-- `plat_portl2_rif_set` where every call to the switch succeeds. The prefix to be deleted has the
    cached address and the length of the new one. -/
def platPortl2RifSet (n : Naming) (pid : ℕ) (ipv4 : PlatIpv4) (s : RifState) : RifState :=
  let sipv4 := s.cache pid
  let name := pidToName pid
  let removed :=
    if sipv4.exist && !ipv4.exist then
      gnmaPortl2ErifAttrPrefDelete n name ⟨sipv4.subnet, ipv4.subnetLen⟩ s.dev
    else s.dev
  let written :=
    if ipv4.exist &&
        (decide (sipv4.subnetLen ≠ ipv4.subnetLen) || decide (sipv4.subnet ≠ ipv4.subnet)) then
      gnmaPortl2ErifAttrPrefUpdate name ⟨ipv4.subnet, ipv4.subnetLen⟩ removed
    else removed
  ⟨Function.update s.cache pid ipv4, written⟩

/-! ### The same on a switch that grants all requests -/

section
variable {δ : Type}

/-- What a granted request does to the addresses of the ports. -/
def rifStore (op : Op) (v : PortAddrs) : PortAddrs :=
  match op with
  | .portErifSet port pref => gnmaPortl2ErifAttrPrefUpdate port pref v
  | .portErifDel port ip => gnmaPortl2ErifAttrPrefDelete .address port ⟨ip, 0⟩ v
  | _ => v

abbrev RifSwitch (δ : Type) := Switch δ PortAddrs fun op v v' => v' = rifStore op v

theorem orFail_granted (sw : RifSwitch δ) (hgrant : ∀ op d, (sw.dev.request op d).1 = true) (op : Op)
    (s : PlatSt δ) : ∃ d l, Effect.Prog.orFail (-1) (gnmiRequest sw.dev op) s =
      (.ok (), ⟨⟨s.state.cache, d⟩, l⟩) ∧ sw.view d = rifStore op (sw.view s.state.dev) := by
  rw [orFail_gnmiRequest, gnmiRequest_run, if_pos (hgrant _ _)]
  exact ⟨_, _, rfl, sw.granted op _ (hgrant _ _)⟩

theorem when_granted (sw : RifSwitch δ) (hgrant : ∀ op d, (sw.dev.request op d).1 = true) (b : Bool)
    (op : Op) (s : PlatSt δ) : ∃ d l,
      Effect.Prog.when b (Effect.Prog.orFail (-1) (gnmiRequest sw.dev op)) s =
        (.ok (), ⟨⟨s.state.cache, d⟩, l⟩) ∧
      sw.view d = if b then rifStore op (sw.view s.state.dev) else sw.view s.state.dev := by
  cases b with
  | false => exact ⟨_, _, rfl, rfl⟩
  | true => exact orFail_granted sw hgrant op s

/-- The function as a configuration is applied with: it returns 0, and leaves cache and switch like
    this. -/
theorem platPortl2RifSet_simulates (sw : RifSwitch δ)
    (hgrant : ∀ op d, (sw.dev.request op d).1 = true) (pid : ℕ) (ipv4 : PlatIpv4) (s : PlatSt δ) :
    ∃ t, Plat.platPortl2RifSet sw.dev pid ipv4 s = (.ok (), t) ∧
      (⟨t.state.cache.portsl2Rif, sw.view t.state.dev⟩ : RifState) =
        platPortl2RifSet .address pid ipv4 ⟨s.state.cache.portsl2Rif, sw.view s.state.dev⟩ := by
  unfold Plat.platPortl2RifSet
  rw [Effect.Prog.bind_run_ok (getCache_run s)]
  obtain ⟨d, l, hdel, hd⟩ := when_granted sw hgrant
    ((s.state.cache.portsl2Rif pid).exist && !ipv4.exist)
    (.portErifDel (pidToName pid) (s.state.cache.portsl2Rif pid).subnet) s
  rw [Effect.Prog.bind_run_ok hdel]
  obtain ⟨d', l', hset, hd'⟩ := when_granted sw hgrant
    (ipv4.exist && (decide ((s.state.cache.portsl2Rif pid).subnetLen ≠ ipv4.subnetLen) ||
      decide ((s.state.cache.portsl2Rif pid).subnet ≠ ipv4.subnet)))
    (.portErifSet (pidToName pid) ⟨ipv4.subnet, ipv4.subnetLen⟩) ⟨⟨s.state.cache, d⟩, l⟩
  rw [Effect.Prog.bind_run_ok hset]
  refine ⟨_, rfl, ?_⟩
  dsimp only [platPortl2RifSet]
  rw [hd', hd]
  rfl

end

/-! ### Calls in a row -/

/-- The prefixes that `cfg_parse` stores: none and all zero, or one with its length. -/
def Parsed (v : PlatIpv4) : Prop := v = {} ∨ v.exist = true ∧ 0 ≤ v.subnetLen ∧ v.subnetLen ≤ 32

structure Call where
  pid : UInt16
  ipv4 : PlatIpv4
  parsed : Parsed ipv4

/-- The state, and what each port was last configured with. -/
structure Configured where
  state : RifState
  last : UInt16 → PlatIpv4

/-- Neither the cache nor the switch has an address. -/
def start : Configured := ⟨⟨fun _ => {}, fun _ => none⟩, fun _ => {}⟩

def call (n : Naming) (t : Configured) (c : Call) : Configured where
  state := platPortl2RifSet n c.pid.toNat c.ipv4 t.state
  last := Function.update t.last c.pid c.ipv4

/-- The address that a configuration asks for. -/
def wanted (v : PlatIpv4) : Option IpPrefix := if v.exist then some ⟨v.subnet, v.subnetLen⟩ else none

/-- Cache and switch have, for every port, what it was last configured with. -/
structure Current (t : Configured) : Prop where
  cache : ∀ p : UInt16, t.state.cache p.toNat = t.last p
  dev : ∀ p : UInt16, t.state.dev (pidToName p.toNat) = wanted (t.last p)

/-- A call that gives 0.0.0.0/0 finds the port with an address. If the switch takes a prefix that is to
    be deleted as a whole, the one that is removed has length 0. -/
def Distinguished (n : Naming) (t : Configured) (c : Call) : Prop :=
  (c.ipv4.exist = true → c.ipv4.subnet = InAddr.zero → c.ipv4.subnetLen = 0 →
    (t.last c.pid).exist = true) ∧
  (n = .whole → c.ipv4.exist = false → (t.last c.pid).exist = true → (t.last c.pid).subnetLen = 0)

/-- `__cfg_interface_parse_ipv4` on a zeroed field. -/
theorem parsed_cfgInterfaceParseIpv4 (subnetList : CJson.Ptr) {v : PlatIpv4}
    (h : Proto.cfgInterfaceParseIpv4 subnetList {} = (.ok (), v)) : Parsed v := by
  unfold Proto.cfgInterfaceParseIpv4 at h
  by_cases hstr : CJson.isString (CJson.getItem (CJson.getArrayItem subnetList 0) "prefix") = true
  · rw [Parse.Parser.when, if_pos hstr, Parse.text_bind] at h
    unfold CJson.isString at hstr
    rw [if_pos hstr, Parse.fill_bind, Parse.need_bind] at h
    split_ifs at h with hlen
    · cases h
      obtain ⟨w, hw⟩ := Option.isSome_iff_exists.mp hlen
      have hle := netWidth_le ((inetNetPton_fst _ _).symm.trans hw)
      rw [hw]
      exact Or.inr ⟨rfl, Int.natCast_nonneg w, Int.ofNat_le.mpr hle⟩
    · cases h
  · rw [Parse.Parser.when, if_neg hstr] at h
    cases h
    exact Or.inl rfl

theorem Parsed.absent {v : PlatIpv4} (h : Parsed v) (hex : v.exist = false) : v = {} := by
  rcases h with h | h
  · exact h
  · rw [hex] at h
    exact absurd h.1 (by decide)

theorem portName_inj {p q : UInt16} (h : pidToName p.toNat = pidToName q.toNat) : p = q :=
  UInt16.toNat_inj.mp (pidToName_inj p.toNat_lt q.toNat_lt h)

section
variable (n : Naming) (t : Configured) (c : Call)

theorem last_call_self : (call n t c).last c.pid = c.ipv4 := Function.update_self ..

theorem last_call_of_ne {p : UInt16} (hp : p ≠ c.pid) : (call n t c).last p = t.last p :=
  Function.update_of_ne hp ..

theorem cache_call_self : (call n t c).state.cache c.pid.toNat = c.ipv4 := Function.update_self ..

theorem cache_call_of_ne {p : UInt16} (hp : p ≠ c.pid) :
    (call n t c).state.cache p.toNat = t.state.cache p.toNat :=
  Function.update_of_ne (fun h => hp (UInt16.toNat_inj.mp h)) ..

/-- The address of the port after a call, in terms of what it was. -/
theorem dev_call (ht : Current t) :
    (call n t c).state.dev (pidToName c.pid.toNat) =
      let old := t.last c.pid
      if c.ipv4.exist = true then
        if old.subnetLen ≠ c.ipv4.subnetLen ∨ old.subnet ≠ c.ipv4.subnet then wanted c.ipv4
        else wanted old
      else (wanted old).filter fun stored => !n.names ⟨old.subnet, c.ipv4.subnetLen⟩ stored := by
  have hdev := ht.dev c.pid
  dsimp only [call, platPortl2RifSet]
  rw [ht.cache]
  cases hnew : c.ipv4.exist with
  | true =>
    simp only [Bool.not_true, Bool.and_false, Bool.false_eq_true, if_false, Bool.true_and, if_true,
      Bool.or_eq_true, decide_eq_true_eq]
    by_cases hdiff : (t.last c.pid).subnetLen ≠ c.ipv4.subnetLen ∨ (t.last c.pid).subnet ≠ c.ipv4.subnet
    · rw [if_pos hdiff, if_pos hdiff, gnmaPortl2ErifAttrPrefUpdate, Function.update_self, wanted, hnew,
        if_pos rfl]
    · rw [if_neg hdiff, if_neg hdiff, hdev]
  | false =>
    simp only [Bool.not_false, Bool.and_true, Bool.false_and, Bool.false_eq_true, if_false]
    cases hold : (t.last c.pid).exist with
    | true =>
      rw [if_pos rfl, gnmaPortl2ErifAttrPrefDelete, Function.update_self, hdev]
    | false =>
      have hnone : wanted (t.last c.pid) = none := by
        rw [wanted, hold]
        rfl
      simp only [Bool.false_eq_true, if_false]
      rw [hdev, hnone, Option.filter_none]

/-- A call for one port leaves the address of another. -/
theorem dev_call_of_ne {p : UInt16} (hp : p ≠ c.pid) :
    (call n t c).state.dev (pidToName p.toNat) = t.state.dev (pidToName p.toNat) := by
  have hname : pidToName p.toNat ≠ pidToName c.pid.toNat := fun h => hp (portName_inj h)
  dsimp only [call, platPortl2RifSet, gnmaPortl2ErifAttrPrefUpdate, gnmaPortl2ErifAttrPrefDelete]
  split_ifs <;> simp [Function.update_of_ne hname]

/-- An address is set: it is written unless the last one has the same fields. -/
theorem dev_set_iff (ht : Current t) (hlast : Parsed (t.last c.pid)) (hnew : c.ipv4.exist = true) :
    (call n t c).state.dev (pidToName c.pid.toNat) = wanted c.ipv4 ↔ Distinguished n t c := by
  rw [dev_call n t c ht]
  dsimp only
  unfold Distinguished
  rw [hnew, if_pos rfl]
  by_cases hdiff : (t.last c.pid).subnetLen ≠ c.ipv4.subnetLen ∨ (t.last c.pid).subnet ≠ c.ipv4.subnet
  · rw [if_pos hdiff]
    refine iff_of_true rfl ⟨fun _ hzero hlen => ?_, fun _ h => absurd h (by decide)⟩
    by_contra hold
    rw [hlast.absent (by simpa using hold), hzero, hlen] at hdiff
    exact hdiff.elim (fun h => h rfl) (fun h => h rfl)
  · rw [if_neg hdiff]
    have hsame : (t.last c.pid).subnetLen = c.ipv4.subnetLen ∧
        (t.last c.pid).subnet = c.ipv4.subnet := by
      simpa using hdiff
    cases hold : (t.last c.pid).exist with
    | true =>
      refine iff_of_true ?_ ⟨fun _ _ _ => rfl, fun _ h => absurd h (by decide)⟩
      rw [wanted, wanted, hold, hnew, hsame.1, hsame.2]
    | false =>
      have habsent := hlast.absent hold
      rw [habsent] at hsame
      refine iff_of_false ?_ fun h => absurd (h.1 rfl hsame.2.symm hsame.1.symm) (by decide)
      rw [wanted, wanted, hold, hnew]
      exact nofun

/-- The address is dropped: the switch has to take the delete for the one that it has. -/
theorem dev_unset_iff (ht : Current t) (hnew : c.ipv4.exist = false) :
    (call n t c).state.dev (pidToName c.pid.toNat) = wanted c.ipv4 ↔ Distinguished n t c := by
  rw [dev_call n t c ht]
  dsimp only
  unfold Distinguished
  have hzero : c.ipv4.subnetLen = 0 := by rw [c.parsed.absent hnew]
  rw [hnew, if_neg Bool.false_ne_true, wanted, wanted, hnew, hzero, if_neg Bool.false_ne_true]
  cases hold : (t.last c.pid).exist with
  | false => exact iff_of_true rfl ⟨fun h => absurd h (by decide), fun _ _ h => absurd h (by decide)⟩
  | true =>
    rw [if_pos rfl]
    cases n with
    | address =>
      refine iff_of_true ?_ ⟨fun h => absurd h (by decide), fun h => absurd h (by decide)⟩
      simp [Naming.names, Option.filter]
    | whole =>
      by_cases hlen : (t.last c.pid).subnetLen = 0
      · refine iff_of_true ?_ ⟨fun h => absurd h (by decide), fun _ _ _ => hlen⟩
        simp [Naming.names, hlen]
      · refine iff_of_false ?_ fun h => hlen (by simpa using h.2)
        simp [Naming.names, Ne.symm hlen]

/-- The call leaves its port with the address it is given, exactly if it is distinguished. -/
theorem dev_call_iff (ht : Current t) (hlast : Parsed (t.last c.pid)) :
    (call n t c).state.dev (pidToName c.pid.toNat) = wanted c.ipv4 ↔ Distinguished n t c := by
  cases hnew : c.ipv4.exist with
  | true => exact dev_set_iff n t c ht hlast hnew
  | false => exact dev_unset_iff n t c ht hnew

/-- One call from a state that is current. -/
theorem current_call_iff (ht : Current t) (hlast : Parsed (t.last c.pid)) :
    Current (call n t c) ↔ Distinguished n t c := by
  rw [← dev_call_iff n t c ht hlast]
  constructor
  · intro h
    have hdev := h.dev c.pid
    rwa [last_call_self] at hdev
  · intro hdev
    refine ⟨fun p => ?_, fun p => ?_⟩
    · by_cases hp : p = c.pid
      · rw [hp, cache_call_self, last_call_self]
      · rw [cache_call_of_ne n t c hp, last_call_of_ne n t c hp, ht.cache]
    · by_cases hp : p = c.pid
      · rw [hp, hdev, last_call_self]
      · rw [dev_call_of_ne n t c hp, last_call_of_ne n t c hp, ht.dev]

end

/-- After every call of a run cache and switch are current, exactly if no call gives 0.0.0.0/0 to a port
    that was last configured without an address and, on a switch that deletes the whole prefix it is
    given, no call takes from a port a prefix with another length than 0. -/
theorem portRif_runs_current_iff (n : Naming) (calls : List Call) :
    EveryStep (call n) (fun t c => Current (call n t c)) start calls ↔
      EveryStep (call n) (Distinguished n) start calls := by
  refine everyStep_iff (I := fun t => Current t ∧ ∀ p, Parsed (t.last p)) ?_ ?_ calls start ?_
  · exact fun t c ht => current_call_iff n t c ht.1 (ht.2 c.pid)
  · refine fun t c ht h => ⟨h, fun p => ?_⟩
    by_cases hp : p = c.pid
    · rw [hp, last_call_self]
      exact c.parsed
    · rw [last_call_of_ne n t c hp]
      exact ht.2 p
  · exact ⟨⟨fun _ => rfl, fun _ => rfl⟩, fun _ => Or.inl rfl⟩

/-- 0.0.0.0/0 on a port that has no address. -/
def defaultRoute : Call := ⟨1, ⟨InAddr.zero, 0, true⟩, Or.inr ⟨rfl, by decide, by decide⟩⟩

/-- 10.0.0.1/24, and then no address. -/
def address24 : Call := ⟨1, ⟨⟨10, 0, 0, 1⟩, 24, true⟩, Or.inr ⟨rfl, by decide, by decide⟩⟩

def noAddress : Call := ⟨1, {}, Or.inl rfl⟩

/-- 0.0.0.0/0 is cached and never written. A switch that deletes the whole prefix it is given still has
    10.0.0.1/24 after the port was to have none: it was given 10.0.0.1/0. -/
theorem rif_calls_not_current :
    ((call .address start defaultRoute).state.cache 1 = defaultRoute.ipv4 ∧
      (call .address start defaultRoute).state.dev (pidToName 1) = none ∧
      ¬ EveryStep (call .address) (fun t c => Current (call .address t c)) start [defaultRoute]) ∧
    ((call .whole (call .whole start address24) noAddress).state.dev (pidToName 1) =
        some ⟨⟨10, 0, 0, 1⟩, 24⟩ ∧
      ¬ EveryStep (call .whole) (fun t c => Current (call .whole t c)) start
        [address24, noAddress]) := by
  refine ⟨⟨rfl, rfl, fun h => ?_⟩, ⟨rfl, fun h => ?_⟩⟩
  · rw [everyStep_cons] at h
    exact nomatch h.1.dev 1
  · rw [everyStep_cons, everyStep_cons] at h
    exact nomatch h.2.1.dev 1

end Ucentral.Plat.Rif
