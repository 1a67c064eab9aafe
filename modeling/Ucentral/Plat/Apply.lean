import Ucentral.Plat.Vlans
import Ucentral.Plat.Ports
import Ucentral.Router.Apply

/-! `plat_config_apply`: the stages in their order, and what its return value says.

    A stage that fails ends the call with -1; the system password comes last because it cannot be
    rolled back, and the syslog servers after that are set on a best effort. Returning 0 means that
    every request whose result is looked at was accepted. It does not mean more: the batch of VLAN
    changes, the port states and speeds, and the deletes that clear the way may all have been
    refused. -/

namespace Ucentral.Plat
open Effect Router

variable {δ : Type} (dv : Dev δ)

/-! ### RADIUS servers and DAC hosts -/

/-- `plat_state_ieee8021x_dac_list_init`. When the second query fails, the entries for the number of
    hosts found stay empty, and it is the list of RADIUS hosts that is dropped. -/
def platStateIeee8021xDacListInit : ApplyM δ Unit := do
  modifyCache fun c => { c with dacKeys := [] }
  match ← ask dv.dacHosts with
  | none => Prog.fail (-1)
  | some [] => return ()
  | some (h :: hs) =>
    match ← ask dv.dacHosts with
    | none => do
      modifyCache fun c =>
        { c with dacKeys := List.replicate (h :: hs).length "", radiusKeys := [] }
      Prog.fail (-1)
    | some keys =>
      if (h :: hs).length < keys.length then do
        modifyCache fun c =>
          { c with dacKeys := List.replicate (h :: hs).length "", radiusKeys := [] }
        Prog.fail (-2)
      else modifyCache fun c => { c with dacKeys := keys }

/-- `plat_state_radius_init`. -/
def platStateRadiusInit : ApplyM δ Unit := do
  modifyCache fun c => { c with radiusKeys := [] }
  match ← ask dv.radiusHosts with
  | none => Prog.fail (-1)
  | some [] => return ()
  | some (h :: hs) =>
    match ← ask dv.radiusHosts with
    | none => Prog.fail (-1)
    | some keys =>
      if (h :: hs).length < keys.length then Prog.fail (-2)
      else modifyCache fun c => { c with radiusKeys := keys }

/-- A list of hosts: cached ones that are gone, or that lose their password, are removed; all hosts
    of the configuration are added; then the cache is read again. -/
def hostsListSet {η : Type} (keys : List String) (hosts : List η) (hostname passkey : η → String)
    (remove : String → Op) (add : η → Op) (init : ApplyM δ Unit) : ApplyM δ Unit := do
  let stale (k : String) : Bool :=
    !hosts.any (fun h => hostname h == k) || hosts.any (fun h => hostname h == k && passkey h == "")
  forM keys fun k => Prog.when (stale k) (gnmiRequest dv (remove k))
  forM hosts fun h => gnmiRequest dv (add h)
  Prog.when (keys.any stale || !hosts.isEmpty) (Prog.ignore init)

/-- `plat_dac_list_set`. -/
def platDacListSet (hosts : List DacHost) : ApplyM δ Unit := do
  hostsListSet dv (← getCache).dacKeys hosts DacHost.hostname DacHost.passkey
    Op.dasClientDel (fun h => .dasClientSet h.hostname h.passkey) (platStateIeee8021xDacListInit dv)

/-- `plat_radius_hosts_list_set`; `gnma_radius_host_remove` deletes below the DAS clients. -/
def platRadiusHostsListSet (hosts : List RadiusHost) : ApplyM δ Unit := do
  hostsListSet dv (← getCache).radiusKeys hosts RadiusHost.hostname RadiusHost.passkey
    Op.dasClientDel (fun h => .radiusServerSet h.hostname h.passkey h.authPort h.priority)
    (platStateRadiusInit dv)

/-- `config_ieee8021x_apply`. -/
def configIeee8021xApply (cfg : PlatCfg) : ApplyM δ Unit := do
  Prog.when (decide ((← getCache).isAuthControlEnabled ≠ cfg.isAuthCtrlEnabled)) (do
    gnmiRequest dv (.dot1xAuthControlSet cfg.isAuthCtrlEnabled)
    modifyCache fun c => { c with isAuthControlEnabled := cfg.isAuthCtrlEnabled })
  platDacListSet dv cfg.dacList
  platRadiusHostsListSet dv cfg.radiusHosts

/-! ### Password and syslog -/

/-- `config_system_password_apply`. -/
def configSystemPasswordApply (cfg : PlatCfg) : ApplyM δ Unit :=
  Prog.when cfg.unit.passwordChanged (gnmiRequest dv (.passwordSet cfg.unit.password))

/-- `prio2str`. -/
def prio2str : List String :=
  ["emerg", "alert", "crit", "error", "warning", "notice", "info", "debug"]

/-- The servers as they are sent; `none` if a severity is not in range. -/
def gnmaSyslogOf (cfg : List SyslogCfg) : Option (List GnmaSyslog) :=
  cfg.mapM fun s =>
    if 0 ≤ s.priority ∧ s.priority ≤ 7 then
      some ⟨s.host, s.port, prio2str.getD s.priority.toNat ""⟩
    else none

/-- `plat_syslog_set`. -/
def platSyslogSet (cfg : List SyslogCfg) : ApplyM δ Unit :=
  match gnmaSyslogOf cfg with
  | none => Prog.fail (-1)
  | some servers => do
    Prog.orFail (-1) (gnmiRequest dv .syslogDel)
    gnmiRequest dv (.syslogSet servers)

/-! ### The whole -/

/-- `plat_config_apply`; `config_metrics_apply` has nothing to do. -/
def platConfigApply (qs : Qsort) (cfg : PlatCfg) : ApplyM δ Unit := do
  Prog.orFail (-1) (configVlanApply dv cfg)
  Prog.orFail (-1) (platPortConfigApply dv cfg)
  Prog.orFail (-1) (configUnitApply dv cfg)
  Prog.orFail (-1) (configStpApply dv cfg)
  Prog.orFail (-1) (configVlanIpv4Apply dv cfg)
  Prog.orFail (-1) (configPortl2Ipv4Apply dv cfg)
  Prog.orFail (-1) (configVlanDhcpRelayApply dv cfg)
  Prog.orFail (-1) (configRouterApply qs dv cfg)
  Prog.when (decide ((← getCache).featAaa = .ok)) (Prog.orFail (-1) (configIeee8021xApply dv cfg))
  Prog.orFail (-1) (configSystemPasswordApply dv cfg)
  Prog.ignore (platSyslogSet dv cfg.logCfg)

/-! ### What is reported -/

/-- Reading the caches again issues no requests. -/
theorem quiet_platStateIeee8021xDacListInit :
    Quiet Answered (platStateIeee8021xDacListInit dv) := by
  refine quiet_bind (quiet_modifyState _) (fun _ => ?_)
  refine quiet_bind (quiet_query _) (fun size => ?_)
  rcases size with _ | _ | ⟨h, hs⟩
  · exact quiet_fail _
  · exact quiet_pure _
  · refine quiet_bind (quiet_query _) (fun reply => ?_)
    rcases reply with _ | keys
    · exact quiet_bind (quiet_modifyState _) (fun _ => quiet_fail _)
    · refine quiet_ite (fun _ => ?_) (fun _ => quiet_modifyState _)
      exact quiet_bind (quiet_modifyState _) (fun _ => quiet_fail _)

theorem quiet_platStateRadiusInit : Quiet Answered (platStateRadiusInit dv) := by
  refine quiet_bind (quiet_modifyState _) (fun _ => ?_)
  refine quiet_bind (quiet_query _) (fun size => ?_)
  rcases size with _ | _ | ⟨h, hs⟩
  · exact quiet_fail _
  · exact quiet_pure _
  · refine quiet_bind (quiet_query _) (fun reply => ?_)
    rcases reply with _ | keys
    · exact quiet_fail _
    · exact quiet_ite (fun _ => quiet_fail _) (fun _ => quiet_modifyState _)

theorem reports_hostsListSet {η : Type} (keys : List String) (hosts : List η)
    (hostname passkey : η → String) (remove : String → Op) (add : η → Op) {init : ApplyM δ Unit}
    (h : Quiet Answered init) :
    Reports Answered (hostsListSet dv keys hosts hostname passkey remove add init) := by
  refine reports_bind (reports_forM _ fun k _ => reports_setting dv _ _) (fun _ => ?_)
  refine reports_bind (reports_forM _ fun x _ => reports_request dv _) (fun _ => ?_)
  exact reports_when (fun _ => reports_ignore h)

theorem reports_configIeee8021xApply (cfg : PlatCfg) :
    Reports Answered (configIeee8021xApply dv cfg) := by
  refine reports_bind reports_getCache (fun c => ?_)
  refine reports_bind (reports_when fun _ => ?_) (fun _ => ?_)
  · exact reports_bind (reports_request dv _) (fun _ => reports_modifyCache _)
  refine reports_bind ?_ (fun _ => ?_)
  · refine reports_bind reports_getCache (fun c => ?_)
    exact reports_hostsListSet dv _ _ _ _ _ _ (quiet_platStateIeee8021xDacListInit dv)
  · refine reports_bind reports_getCache (fun c => ?_)
    exact reports_hostsListSet dv _ _ _ _ _ _ (quiet_platStateRadiusInit dv)

theorem quiet_platSyslogSet (cfg : List SyslogCfg) : Quiet Answered (platSyslogSet dv cfg) := by
  have hdropped : ∀ op : Op, op.checked = false → Quiet Answered (gnmiRequest dv op) := by
    intro op h
    exact quiet_gnmiRequest dv op (fun _ hc => absurd hc (by simp [h]))
  unfold platSyslogSet
  rcases gnmaSyslogOf cfg with _ | servers
  · exact quiet_fail _
  · refine quiet_bind ?_ (fun _ => hdropped _ rfl)
    rw [orFail_gnmiRequest]
    exact hdropped _ rfl

theorem reports_platConfigApply (qs : Qsort) (cfg : PlatCfg) :
    Reports Answered (platConfigApply dv qs cfg) := by
  have hrouter : Reports Answered (configRouterApply qs dv cfg) := by
    refine reports_configRouterApply qs dv cfg (fun _ _ _ => rfl) (fun _ _ h => ?_)
    exact absurd h (by simp [Op.checked])
  refine reports_bind (reports_orFail_neg_one (reports_configVlanApply dv cfg)) (fun _ => ?_)
  refine reports_bind (reports_orFail_neg_one (reports_platPortConfigApply dv cfg)) ?_
  intro _
  refine reports_bind (reports_orFail_neg_one (reports_configUnitApply dv cfg)) (fun _ => ?_)
  refine reports_bind (reports_orFail_neg_one (reports_configStpApply dv cfg)) (fun _ => ?_)
  refine reports_bind (reports_orFail_neg_one (reports_configVlanIpv4Apply dv cfg)) ?_
  intro _
  refine reports_bind (reports_orFail_neg_one (reports_configPortl2Ipv4Apply dv cfg)) ?_
  intro _
  refine reports_bind (reports_orFail_neg_one (reports_configVlanDhcpRelayApply dv cfg)) ?_
  intro _
  refine reports_bind (reports_orFail_neg_one hrouter) (fun _ => ?_)
  refine reports_bind reports_getCache (fun c => ?_)
  refine reports_bind (reports_when fun _ => ?_) (fun _ => ?_)
  · exact reports_orFail_neg_one (reports_configIeee8021xApply dv cfg)
  refine reports_bind (reports_orFail_neg_one (reports_setting dv _ _)) (fun _ => ?_)
  exact reports_ignore (quiet_platSyslogSet dv _)

/-- On every switch, from every cache, for every configuration: if `plat_config_apply` returns 0, the
    requests it has made and whose result is not dropped have all succeeded. -/
theorem apply_ok_all_answered {δ : Type} (dv : Dev δ) (qs : Qsort) (cfg : PlatCfg)
    (s : Traced (Env δ) (Op × Bool)) (h : Prog.retCode (platConfigApply dv qs cfg s).1 = 0) :
    ∃ l, (platConfigApply dv qs cfg s).2.log = s.log ++ l ∧
      ∀ x ∈ l, x.1.checked = true → x.2 = true := by
  obtain ⟨l, hl, hr⟩ := reports_platConfigApply dv qs cfg s
  refine ⟨l, hl, ?_⟩
  rcases hres : (platConfigApply dv qs cfg s).1 with c | _
  · rw [hres] at hr h
    exact absurd h hr
  · rw [hres] at hr
    exact hr

/-- So all requests of a call that returns 0 have succeeded exactly if no request whose result is
    dropped was refused. -/
theorem apply_ok_all_granted_iff {δ : Type} (dv : Dev δ) (qs : Qsort) (cfg : PlatCfg)
    (s : Traced (Env δ) (Op × Bool)) (h : Prog.retCode (platConfigApply dv qs cfg s).1 = 0) :
    ∃ l, (platConfigApply dv qs cfg s).2.log = s.log ++ l ∧
      ((∀ x ∈ l, x.2 = true) ↔ ∀ x ∈ l, x.1.checked = false → x.2 = true) := by
  obtain ⟨l, hlog, hanswered⟩ := apply_ok_all_answered dv qs cfg s h
  refine ⟨l, hlog, fun hall x hx _ => hall x hx, fun hdropped x hx => ?_⟩
  cases hchecked : x.1.checked with
  | true => exact hanswered x hx hchecked
  | false => exact hdropped x hx hchecked

/-! ### A switch that refuses everything -/

/-- A switch without VLANs that gives the same answer to every request. -/
def constDev (answer : Bool) : Dev Unit where
  request _ _ := (answer, ())
  vlanList _ := (some Bitmap.clear, ())
  vlanMembers _ := (some ⟨fun _ => Bitmap.clear, fun _ => Bitmap.clear⟩, ())
  vlanErif _ _ := (some [], ())
  portList _ := (some [], ())
  dacHosts _ := (some [], ())
  radiusHosts _ := (some [], ())

/-- A configuration of one port, which it leaves disabled. -/
def onePortCfg : PlatCfg := { portsToCfg := Bitmap.clear.setBit 0 }

/-- A client that has just started on a switch. -/
def applyStart : Traced (Env Unit) (Op × Bool) := ⟨⟨{}, ()⟩, []⟩

/-- The same with a new password. -/
def passwordCfg : PlatCfg :=
  { onePortCfg with unit := { passwordChanged := true, password := "secret" } }

theorem apply_ok_all_granted_password :
    (Op.passwordSet "secret", true) ∈
      (platConfigApply (constDev true) insertionQsort passwordCfg applyStart).2.log ∧
    ∃ l, (platConfigApply (constDev true) insertionQsort passwordCfg applyStart).2.log =
        applyStart.log ++ l ∧
      ((∀ x ∈ l, x.2 = true) ↔ ∀ x ∈ l, x.1.checked = false → x.2 = true) :=
  ⟨by decide +kernel, apply_ok_all_granted_iff (constDev true) insertionQsort passwordCfg applyStart
    (by decide +kernel)⟩

/-- Every request is refused, the VLAN changes and the port state among them, and 0 is returned. -/
theorem apply_ok_all_refused :
    Prog.retCode (platConfigApply (constDev false) insertionQsort onePortCfg applyStart).1 = 0 ∧
    (platConfigApply (constDev false) insertionQsort onePortCfg applyStart).2.log =
      [(.vlanBatch [], false), (.portAdminSet "Ethernet0" false, false), (.syslogDel, false)] := by
  constructor <;> decide +kernel

end Ucentral.Plat
