import Ucentral.Lib.Run
import Ucentral.Plat.Ports
import Ucentral.Plat.Switch

/-! Spanning tree, cached and on the switch, over calls of `config_stp_apply`.

    Deleting the global entry of the switch clears the entries of all VLANs. The cache of the VLANs is
    cleared with it when spanning tree is switched off, and is not when the mode is set anew; the
    results of the delete and of disabling an instance are dropped; and the cache does not learn of a
    mode that was set when its ports are refused. As long as none of this matters, the cache agrees
    with the switch after every call, in the VLANs and in that spanning tree is off, and a call that
    returns 0 leaves on the switch what the configuration says. -/

namespace Ucentral.Plat
open Effect Run

variable {δ : Type}

/-! ### Spanning tree on the switch -/

/-- The mode of the global entry (none if there is no entry), and the entries of the VLANs. -/
structure StpView where
  mode : GnmaStpMode
  vlans : ℕ → Option StpAttr

/-- What a granted request does. A set merges, so disabling keeps the other attributes. -/
def stpStore (op : Op) (v : StpView) : StpView :=
  match op with
  | .stpGlobalDel => ⟨.none, fun _ => none⟩
  | .stpGlobalSet mode _ => { v with mode := mode }
  | .stpVlanSet vid attr =>
    { v with vlans := Function.update v.vlans vid (some { attr with enabled := true }) }
  | .stpVlanEnabledSet vids enable =>
    { v with vlans := fun i =>
        if i ∈ vids then some { (v.vlans i).getD {} with enabled := enable } else v.vlans i }
  | _ => v

abbrev StpSwitch (δ : Type) := Switch δ StpView fun op v v' => v' = stpStore op v

/-- Is there an enabled instance? -/
def instanceOn (entry : Option StpAttr) : Bool := (entry.map StpAttr.enabled).getD false

/-- What the cache says of a VLAN is so: an enabled instance has the cached attributes, and what is
    not enabled in the cache is not enabled on the switch. -/
def VlanAgrees (cached : StpAttr) (entry : Option StpAttr) : Prop :=
  if cached.enabled then entry = some cached else instanceOn entry = false

/-- The cached VLANs agree with those of the switch. -/
def VlansAgree (c : PlatState) (v : StpView) : Prop :=
  ∀ i, firstVlan ≤ i → i < maxVlans → VlanAgrees (c.stpVlanAttr i) (v.vlans i)

/-! ### The steps of a call -/

/-- A request to disable an instance was refused. -/
def DisableRefused (log : List (Op × Bool)) : Prop :=
  ∃ vids enable, (Op.stpVlanEnabledSet vids enable, false) ∈ log

theorem DisableRefused.append {log : List (Op × Bool)} (h : DisableRefused log) (x : Op × Bool) :
    DisableRefused (log ++ [x]) := by
  obtain ⟨vids, enable, hmem⟩ := h
  exact ⟨vids, enable, List.mem_append_left _ hmem⟩

section Steps

variable (sw : StpSwitch δ) (cfg : PlatCfg)

/-- After a VLAN has been dealt with, the cache has what is configured, or neither enables it. -/
def VlanDone (cached : StpAttr) (new : StpInstance) : Prop :=
  cached = stpAttrOf new ∨ cached.enabled = false ∧ new.enabled = false

/-- What the loop over the VLANs keeps, unless a disable was refused. -/
def StpLoop (done : List ℕ) (s : PlatSt δ) : Prop :=
  DisableRefused s.log ∨ VlansAgree s.state.cache (sw.view s.state.dev) ∧
    ∀ i ∈ done, VlanDone (s.state.cache.stpVlanAttr i) (cfg.stpInstances i)

/-- Changing one VLAN on the switch and in the cache, to something that agrees. -/
theorem VlansAgree.update {c : PlatState} {v v' : StpView} (h : VlansAgree c v) {i : ℕ}
    {attr : StpAttr} (hother : ∀ j, j ≠ i → v'.vlans j = v.vlans j)
    (hagrees : VlanAgrees attr (v'.vlans i)) :
    VlansAgree { c with stpVlanAttr := Function.update c.stpVlanAttr i attr } v' := by
  intro j hfirst hlast
  change VlanAgrees (Function.update c.stpVlanAttr i attr j) _
  by_cases hj : j = i
  · rw [hj, Function.update_self]
    exact hagrees
  · rw [Function.update_of_ne hj, hother j hj]
    exact h j hfirst hlast

theorem vlanDone_update {c : PlatState} {done : List ℕ} {i : ℕ}
    (h : ∀ j ∈ done, VlanDone (c.stpVlanAttr j) (cfg.stpInstances j)) :
    ∀ j ∈ done ++ [i], VlanDone
      (Function.update c.stpVlanAttr i (stpAttrOf (cfg.stpInstances i)) j) (cfg.stpInstances j) := by
  intro j hj
  by_cases hji : j = i
  · rw [hji, Function.update_self]
    exact Or.inl rfl
  · rw [Function.update_of_ne hji]
    refine h j ((List.mem_append.mp hj).resolve_right ?_)
    simpa using hji

/-- The switch part of a turn: the instance is set, or disabled, on the switch only. -/
theorem triple_gnmaStpVidSet (i : ℕ) (attr : StpAttr) (c : PlatState) (done : List ℕ) :
    Triple (fun s => s.state.cache = c ∧ StpLoop sw cfg done s) (gnmaStpVidSet sw.dev i attr)
      (fun _ s => s.state.cache = c ∧ (DisableRefused s.log ∨
        (∃ v, VlansAgree c v ∧ (∀ j, j ≠ i → (sw.view s.state.dev).vlans j = v.vlans j)) ∧
        VlanAgrees attr ((sw.view s.state.dev).vlans i) ∧
        ∀ j ∈ done, VlanDone (c.stpVlanAttr j) (cfg.stpInstances j)))
      (fun s => DisableRefused s.log ∨ VlansAgree s.state.cache (sw.view s.state.dev)) := by
  refine triple_ite (fun hon => ?_) (fun hoff => triple_ignore ?_)
  · refine triple_gnmiRequest sw ?_ ?_
    · rintro s d ⟨hc, hloop⟩ heff
      refine ⟨hc, hloop.imp (fun h => h.append _) ?_⟩
      rintro ⟨hagree, hdone⟩
      rw [hc] at hagree hdone
      rw [heff]
      refine ⟨⟨_, hagree, fun j hj => Function.update_of_ne hj ..⟩, ?_, hdone⟩
      have hsame : { attr with enabled := true } = attr := by rw [← hon]
      rw [VlanAgrees, if_pos hon]
      exact (Function.update_self ..).trans (congrArg some hsame)
    · rintro s d ⟨-, hloop⟩ hview
      refine hloop.imp (fun h => h.append _) (fun h => ?_)
      rw [hview]
      exact h.1
  · refine triple_gnmiRequest sw ?_ ?_
    · rintro s d ⟨hc, hloop⟩ heff
      refine ⟨hc, hloop.imp (fun h => h.append _) ?_⟩
      rintro ⟨hagree, hdone⟩
      rw [hc] at hagree hdone
      rw [heff]
      refine ⟨⟨_, hagree, fun j hj => ?_⟩, ?_, hdone⟩
      · exact if_neg (by simpa using hj)
      · rw [VlanAgrees, if_neg hoff]
        change instanceOn (if i ∈ [i] then _ else _) = false
        rw [if_pos (List.mem_singleton_self i)]
        rfl
    · -- the refusal is not noticed
      rintro s d ⟨hc, -⟩ -
      exact ⟨hc, Or.inl ⟨[i], false, by simp⟩⟩

theorem triple_stpVlanApply (i : ℕ) (done : List ℕ) :
    Triple (StpLoop sw cfg done) (stpVlanApply sw.dev cfg i)
      (fun _ => StpLoop sw cfg (done ++ [i]))
      (fun s => DisableRefused s.log ∨ VlansAgree s.state.cache (sw.view s.state.dev)) := by
  have hget := triple_getCache (R := fun c s => s.state.cache = c ∧ StpLoop sw cfg done s)
    (E := fun s => DisableRefused s.log ∨ VlansAgree s.state.cache (sw.view s.state.dev))
  refine triple_bind (hget.pre fun s h => ⟨rfl, h⟩) (fun c => ?_)
  refine triple_when (fun _ => ?_) (fun hskip => ?_)
  · refine triple_bind (triple_gnmaStpVidSet sw cfg i _ c done) (fun _ => ?_)
    refine triple_modifyCache ?_
    rintro s ⟨rfl, hrefused | ⟨⟨v, hagree, hother⟩, hattr, hdone⟩⟩
    · exact Or.inl hrefused
    · exact Or.inr ⟨hagree.update hother hattr, vlanDone_update cfg hdone⟩
  · rintro s ⟨rfl, hloop⟩
    refine hloop.imp id (fun h => ⟨h.1, fun j hj => ?_⟩)
    rcases List.mem_append.mp hj with hj | hj
    · exact h.2 j hj
    · rw [List.mem_singleton.mp hj]
      rw [Bool.and_eq_false_iff, Bool.or_eq_false_iff, decide_eq_false_iff_not, not_not] at hskip
      exact hskip.elim Or.inr (fun h => Or.inl h.symm)

/-- The loop over all VLANs. -/
theorem triple_stpVlans :
    Triple (StpLoop sw cfg []) (forM (List.range' firstVlan (maxVlans - firstVlan))
        (stpVlanApply sw.dev cfg))
      (fun _ => StpLoop sw cfg (List.range' firstVlan (maxVlans - firstVlan)))
      (fun s => DisableRefused s.log ∨ VlansAgree s.state.cache (sw.view s.state.dev)) :=
  triple_forM (I := fun done _ => StpLoop sw cfg done)
    (fun done i _ => triple_stpVlanApply sw cfg i done) _ []

/-! ### Setting the mode -/

/-- The VLANs of the cache agree with the switch. -/
def StpAgrees (s : PlatSt δ) : Prop := VlansAgree s.state.cache (sw.view s.state.dev)

/-- Spanning tree is off, and no VLAN has an entry. -/
def StpOff (v : StpView) : Prop := v.mode = .none ∧ ∀ i, v.vlans i = none

/-- No instance is enabled in the cache. -/
def NoneCached (c : PlatState) : Prop :=
  ∀ i, firstVlan ≤ i → i < maxVlans → (c.stpVlanAttr i).enabled = false

/-- Does a call for the mode set it anew? -/
def setsMode (c : PlatState) : Bool :=
  decide (c.stpMode ≠ .rpvst) || decide (({} : StpAttr) ≠ c.stpModeAttr)

/-- The mode was set on the switch, and its ports were not. -/
def PortsMissed (log : List (Op × Bool)) : Prop :=
  (∃ mode priority, (Op.stpGlobalSet mode priority, true) ∈ log) ∧
    ∀ ports, (Op.stpPortsSet ports, true) ∉ log

theorem PortsMissed.refused {log : List (Op × Bool)} (h : PortsMissed log) (op : Op) :
    PortsMissed (log ++ [(op, false)]) := by
  obtain ⟨⟨mode, priority, hmem⟩, hports⟩ := h
  refine ⟨⟨mode, priority, List.mem_append_left _ hmem⟩, fun ports hmem => ?_⟩
  rcases List.mem_append.mp hmem with hmem | hmem
  · exact hports ports hmem
  · simp at hmem

/-- The delete of the global entry: it must not take entries away that the cache has. -/
theorem stpAgrees_del {e : Env δ} (h : VlansAgree e.cache (sw.view e.dev))
    (hdel : (sw.dev.request .stpGlobalDel e.dev).1 = false ∨ NoneCached e.cache) :
    VlansAgree e.cache (sw.view (sw.dev.request .stpGlobalDel e.dev).2) := by
  cases hg : (sw.dev.request .stpGlobalDel e.dev).1 with
  | false =>
    rw [sw.refused _ _ hg]
    exact h
  | true =>
    intro i hfirst hlast
    rw [sw.granted _ _ hg, VlanAgrees, hdel.resolve_left (by rw [hg]; decide) i hfirst hlast]
    rfl

/-- What is off stays off when it is deleted. -/
theorem stpOff_del {d : δ} (h : StpOff (sw.view d)) :
    StpOff (sw.view (sw.dev.request .stpGlobalDel d).2) := by
  cases hg : (sw.dev.request .stpGlobalDel d).1 with
  | false =>
    rw [sw.refused _ _ hg]
    exact h
  | true =>
    rw [sw.granted _ _ hg]
    exact ⟨rfl, fun _ => rfl⟩

/-- The mode is set on the switch; neither the ports nor the cache know it yet. -/
structure ModeSet (e : Env δ) (s : PlatSt δ) : Prop where
  cache : s.state.cache = e.cache
  agree : StpAgrees sw s
  missed : PortsMissed s.log

/-- Setting the mode has failed: what was off is off still, unless the ports were missed. -/
structure ModeFailed (e : Env δ) (s : PlatSt δ) : Prop where
  cache : s.state.cache = e.cache
  agree : StpAgrees sw s
  off : StpOff (sw.view e.dev) → StpOff (sw.view s.state.dev) ∨ PortsMissed s.log

theorem triple_gnmaStpModeSet {e : Env δ} (h : VlansAgree e.cache (sw.view e.dev))
    (hdel : (sw.dev.request .stpGlobalDel e.dev).1 = false ∨ NoneCached e.cache) :
    Triple (· = ⟨e, []⟩) (gnmaStpModeSet sw.dev .rpvst {}) (fun _ => ModeSet sw e)
      (ModeFailed sw e) := by
  refine triple_bind (Q := fun _ s => s.state.cache = e.cache ∧ StpAgrees sw s ∧
    (StpOff (sw.view e.dev) → StpOff (sw.view s.state.dev)) ∧
    ∃ b, s.log = [(Op.stpGlobalDel, b)]) ?_ (fun _ => ?_)
  · rintro s rfl
    rw [Prog.ignore_run, gnmiRequest_run]
    exact ⟨rfl, stpAgrees_del sw h hdel, stpOff_del sw, _, rfl⟩
  · refine triple_when (fun _ => triple_gnmiRequest sw ?_ ?_) (fun hskip => by cases hskip)
    · rintro s d ⟨hcache, hagree, -, b, hlog⟩ heff
      refine ⟨hcache, fun i hfirst hlast => ?_, ⟨.rpvst, 0, ?_⟩, fun ports => ?_⟩
      · rw [heff]
        exact hagree i hfirst hlast
      · exact List.mem_append_right _ (List.mem_singleton_self _)
      · rw [hlog]
        simp
    · rintro s d ⟨hcache, hagree, hoff, -⟩ hview
      refine ⟨hcache, ?_, fun he => Or.inl ?_⟩
      · unfold StpAgrees
        rw [hview]
        exact hagree
      · rw [hview]
        exact hoff he

theorem triple_configStpApplyPortsEnableAll (e : Env δ) :
    Triple (ModeSet sw e) (configStpApplyPortsEnableAll sw.dev)
      (fun _ s => s.state.cache = e.cache ∧ StpAgrees sw s) (ModeSet sw e) := by
  have hask : Triple (ModeSet sw e) (ask sw.dev.portList) (fun _ => ModeSet sw e)
      (ModeSet sw e) := by
    refine triple_ask sw sw.portList (fun s d a hs hview => ⟨hs.cache, ?_, hs.missed⟩)
    unfold StpAgrees
    rw [hview]
    exact hs.agree
  refine triple_bind hask (fun size => ?_)
  rcases size with _ | size
  · exact triple_fail _
  · refine triple_bind hask (fun reply => ?_)
    rcases reply with _ | ports
    · exact triple_fail _
    · refine triple_orFail (triple_gnmiRequest sw (fun s d hs heff => ?_) (fun s d hs hview => ?_))
      · refine ⟨hs.cache, fun i hfirst hlast => ?_⟩
        rw [heff]
        exact hs.agree i hfirst hlast
      · refine ⟨hs.cache, ?_, hs.missed.refused _⟩
        unfold StpAgrees
        rw [hview]
        exact hs.agree

theorem triple_setMode {e : Env δ} (h : VlansAgree e.cache (sw.view e.dev))
    (hdel : (sw.dev.request .stpGlobalDel e.dev).1 = false ∨ NoneCached e.cache) :
    Triple (· = ⟨e, []⟩) (do
      gnmaStpModeSet sw.dev .rpvst {}
      configStpApplyPortsEnableAll sw.dev
      modifyCache fun c => { c with stpMode := .rpvst, stpModeAttr := {} })
      (fun _ s => StpAgrees sw s ∧ setsMode s.state.cache = false) (ModeFailed sw e) := by
  refine triple_bind (triple_gnmaStpModeSet sw h hdel) (fun _ => ?_)
  refine triple_bind (Q := fun _ s => s.state.cache = e.cache ∧ StpAgrees sw s) ?_ (fun _ => ?_)
  · exact (triple_configStpApplyPortsEnableAll sw e).imp (fun _ h => h) (fun _ _ h => h)
      (fun _ h => ⟨h.cache, h.agree, fun _ => Or.inr h.missed⟩)
  · exact triple_modifyCache (fun s hs => ⟨hs.2, rfl⟩)

/-- The loop over the VLANs does not change the mode. -/
theorem keeps_setsMode (xs : List ℕ) :
    Keeps (fun s : PlatSt δ => setsMode s.state.cache = false)
      (forM xs (stpVlanApply sw.dev cfg)) := by
  refine keeps_forM xs (fun i => keeps_bind (fun _ h => h) (fun c => keeps_when ?_))
  refine keeps_bind ?_ (fun _ => triple_modifyCache fun _ h => h)
  refine triple_ite (fun _ => ?_) (fun _ => keeps_ignore ?_)
  · exact triple_gnmiRequest sw (fun _ _ h _ => h) (fun _ _ h _ => h)
  · exact triple_gnmiRequest sw (fun _ _ h _ => h) (fun _ _ h _ => h)

/-! ### One call -/

/-- The cache agrees with the switch, in the VLANs and in that spanning tree is off. -/
structure StpCoherent (e : Env δ) : Prop where
  vlans : VlansAgree e.cache (sw.view e.dev)
  off : e.cache.stpMode = .none → StpOff (sw.view e.dev)

/-- The switch has what the configuration asks for. -/
def StpApplied (v : StpView) : Prop :=
  match cfg.stpMode with
  | .none => StpOff v
  | .rpvst => ∀ i, firstVlan ≤ i → i < maxVlans →
    instanceOn (v.vlans i) = (cfg.stpInstances i).enabled ∧
      ((cfg.stpInstances i).enabled = true → v.vlans i = some (stpAttrOf (cfg.stpInstances i)))
  | _ => False

/-- The cache and the switch after a call. -/
def stpAfter (e : Env δ) (cfg : PlatCfg) : Env δ := (configStpApply sw.dev cfg ⟨e, []⟩).2.state

/-- The requests of a call and how they were answered. -/
def stpLog (e : Env δ) (cfg : PlatCfg) : List (Op × Bool) := (configStpApply sw.dev cfg ⟨e, []⟩).2.log

/-- If the call returns 0, the switch has what the configuration asks for. -/
def StpHonest (e : Env δ) (cfg : PlatCfg) : Prop :=
  Prog.retCode (configStpApply sw.dev cfg ⟨e, []⟩).1 = 0 →
    StpApplied cfg (sw.view (stpAfter sw e cfg).dev)

variable {sw} {cfg}

/-- When spanning tree is off, the cache of the VLANs is empty. -/
theorem StpCoherent.noneCached {e : Env δ} (h : StpCoherent sw e) (hmode : e.cache.stpMode = .none) :
    NoneCached e.cache := by
  intro i hfirst hlast
  have hagree := h.vlans i hfirst hlast
  rw [VlanAgrees, (h.off hmode).2 i] at hagree
  by_contra hon
  rw [if_pos (by simpa using hon)] at hagree
  cases hagree

/-- What agrees and has been dealt with is as configured. -/
theorem applied_of_done {cached : StpAttr} {entry : Option StpAttr} {new : StpInstance}
    (h : VlanAgrees cached entry) (hdone : VlanDone cached new) :
    instanceOn entry = new.enabled ∧ (new.enabled = true → entry = some (stpAttrOf new)) := by
  rcases hdone with rfl | ⟨hcached, hnew⟩
  · have hsame : (stpAttrOf new).enabled = new.enabled := rfl
    rw [VlanAgrees, hsame] at h
    cases hon : new.enabled with
    | true =>
      rw [hon, if_pos rfl] at h
      rw [h]
      exact ⟨hon, fun _ => rfl⟩
    | false =>
      rw [hon, if_neg (by decide)] at h
      exact ⟨h, fun h => by cases h⟩
  · rw [VlanAgrees, hcached, if_neg (by decide)] at h
    rw [h, hnew]
    exact ⟨rfl, fun h => by cases h⟩

theorem stpCall_none {e : Env δ} (hmode : cfg.stpMode = .none) (h : StpCoherent sw e)
    (hdel : (Op.stpGlobalDel, false) ∉ stpLog sw e cfg) :
    StpCoherent sw (stpAfter sw e cfg) ∧ (stpAfter sw e cfg).cache.stpMode = .none ∧
      StpHonest sw e cfg := by
  unfold StpHonest StpApplied
  rw [hmode]
  by_cases hoff : e.cache.stpMode = .none
  · have hrun : configStpApply sw.dev cfg ⟨e, []⟩ = (.ok (), ⟨e, []⟩) := by
      rw [configStpApply, hmode, Prog.bind_run_ok (getCache_run _)]
      dsimp only
      rw [Prog.when, if_neg (by simpa using hoff)]
      rfl
    unfold stpAfter
    rw [hrun]
    exact ⟨h, hoff, fun _ => h.off hoff⟩
  · have hrun : configStpApply sw.dev cfg ⟨e, []⟩ =
        (.ok (), ⟨⟨{ e.cache with stpMode := .none, stpVlanAttr := fun _ => {} },
          (sw.dev.request .stpGlobalDel e.dev).2⟩,
          [(.stpGlobalDel, (sw.dev.request .stpGlobalDel e.dev).1)]⟩) := by
      have hset : gnmaStpModeSet sw.dev .none {} ⟨e, []⟩ =
          (.ok (), ⟨⟨e.cache, (sw.dev.request .stpGlobalDel e.dev).2⟩,
            [(.stpGlobalDel, (sw.dev.request .stpGlobalDel e.dev).1)]⟩) := by
        unfold gnmaStpModeSet
        rw [Prog.bind_run, Prog.ignore_run, gnmiRequest_run]
        rfl
      rw [configStpApply, hmode, Prog.bind_run_ok (getCache_run _)]
      dsimp only
      rw [Prog.when, if_pos (by simpa using hoff), Prog.bind_run_ok hset]
      rfl
    have hgranted : (sw.dev.request .stpGlobalDel e.dev).1 = true := by
      unfold stpLog at hdel
      rw [hrun] at hdel
      by_contra hrefused
      exact hdel (by simp [hrefused])
    have hview := sw.granted _ _ hgranted
    unfold stpAfter
    rw [hrun]
    refine ⟨⟨fun i _ _ => ?_, fun _ => ?_⟩, rfl, fun _ => ?_⟩
    · dsimp only
      rw [hview]
      rfl
    · rw [hview]
      exact ⟨rfl, fun _ => rfl⟩
    · rw [hview]
      exact ⟨rfl, fun _ => rfl⟩

/-- A call that sets the mode anew begins with the delete. -/
theorem del_mem_stpLog {e : Env δ} (hmode : cfg.stpMode = .rpvst) (hsets : setsMode e.cache = true) :
    (Op.stpGlobalDel, (sw.dev.request .stpGlobalDel e.dev).1) ∈ stpLog sw e cfg := by
  unfold setsMode at hsets
  unfold stpLog
  rw [configStpApply, hmode, Prog.bind_run_ok (getCache_run _)]
  dsimp only
  refine mem_log_bind (fun _ => reports_forM _ fun i _ => reports_stpVlanApply sw.dev cfg i) ?_
  rw [Prog.when, if_pos hsets]
  refine mem_log_bind (fun _ => (show Reports Answered _ from ?_)) ?_
  · exact reports_bind (reports_configStpApplyPortsEnableAll sw.dev) (fun _ => reports_modifyCache _)
  · refine mem_log_bind (fun _ => (show Reports Answered _ from ?_)) ?_
    · exact reports_when fun _ => reports_request sw.dev _
    rw [Prog.ignore_run, gnmiRequest_run]
    exact List.mem_singleton_self _

/-- The mode is set, or is there already, and the loop runs. -/
theorem triple_configStpApply {e : Env δ} (hmode : cfg.stpMode = .rpvst)
    (h : VlansAgree e.cache (sw.view e.dev)) (hdel : setsMode e.cache = true →
      (sw.dev.request .stpGlobalDel e.dev).1 = false ∨ NoneCached e.cache) :
    Triple (· = ⟨e, []⟩) (configStpApply sw.dev cfg)
      (fun _ s => StpLoop sw cfg (List.range' firstVlan (maxVlans - firstVlan)) s ∧
        setsMode s.state.cache = false)
      (fun s => ModeFailed sw e s ∨
        (DisableRefused s.log ∨ StpAgrees sw s) ∧ setsMode s.state.cache = false) := by
  unfold configStpApply
  rw [hmode]
  refine triple_bind (Q := fun c s => c = e.cache ∧ s = ⟨e, []⟩) ?_ (fun c => ?_)
  · rintro s rfl
    exact ⟨rfl, rfl⟩
  · dsimp only
    refine triple_bind (Q := fun _ s => StpAgrees sw s ∧ setsMode s.state.cache = false) ?_
      (fun _ => ?_)
    · refine triple_when (fun hneeds => triple_at ?_) (fun hskip => ?_)
      · rintro s ⟨rfl, rfl⟩
        exact (triple_setMode sw h (hdel hneeds)).imp (fun _ h => h) (fun _ _ h => h)
          (fun _ h => Or.inl h)
      · rintro s ⟨rfl, rfl⟩
        exact ⟨h, hskip⟩
    · refine ((triple_stpVlans sw cfg).and (keeps_setsMode sw cfg _)).imp (fun s hs => ?_)
        (fun _ _ h => h) (fun _ h => Or.inr h)
      exact ⟨Or.inr ⟨hs.1, fun i hi => by cases hi⟩, hs.2⟩

theorem stpCall_rpvst {e : Env δ} (hmode : cfg.stpMode = .rpvst) (h : StpCoherent sw e)
    (hdel : setsMode e.cache = true → (Op.stpGlobalDel, true) ∈ stpLog sw e cfg →
      NoneCached e.cache)
    (hports : e.cache.stpMode = .none → ¬ PortsMissed (stpLog sw e cfg))
    (hlog : ¬ DisableRefused (stpLog sw e cfg)) :
    StpCoherent sw (stpAfter sw e cfg) ∧
      ((stpAfter sw e cfg).cache = e.cache ∨ setsMode (stpAfter sw e cfg).cache = false) ∧
      StpHonest sw e cfg := by
  have hcall := triple_configStpApply hmode h.vlans (fun hsets => by
    have hmem : (Op.stpGlobalDel, (sw.dev.request .stpGlobalDel e.dev).1) ∈ stpLog sw e cfg :=
      del_mem_stpLog hmode hsets
    cases hg : (sw.dev.request .stpGlobalDel e.dev).1 with
    | false => exact Or.inl rfl
    | true => exact Or.inr (hdel hsets (hg ▸ hmem)))
  -- a mode that is known to be set is not none
  have hknown : ∀ c : PlatState, setsMode c = false → c.stpMode ≠ .none := by
    intro c hsets hnone
    simp [setsMode, hnone] at hsets
  unfold StpHonest StpApplied
  rw [hmode]
  unfold stpLog at hports hlog
  unfold stpAfter
  rcases hrun : configStpApply sw.dev cfg ⟨e, []⟩ with ⟨c | _, t⟩
  · have hne := (reports_configStpApply sw.dev cfg).retCode_ne_zero hrun
    rw [hrun] at hlog hne hports
    rcases hcall.error rfl hrun with hfailed | ⟨hagree, hsets⟩
    · refine ⟨⟨hfailed.agree, fun hnone => ?_⟩, Or.inl hfailed.cache, fun hret => absurd hret hne⟩
      rw [hfailed.cache] at hnone
      exact (hfailed.off (h.off hnone)).resolve_right (hports hnone)
    · exact ⟨⟨hagree.resolve_left hlog, fun hnone => absurd hnone (hknown _ hsets)⟩, Or.inr hsets,
        fun hret => absurd hret hne⟩
  · rw [hrun] at hlog
    obtain ⟨hloop, hsets⟩ := hcall.ok rfl hrun
    obtain ⟨hagree, hdone⟩ := hloop.resolve_left hlog
    refine ⟨⟨hagree, fun hnone => absurd hnone (hknown _ hsets)⟩, Or.inr hsets,
      fun _ i hfirst hlast => ?_⟩
    refine applied_of_done (hagree i hfirst hlast) (hdone i ?_)
    rw [List.mem_range'_1]
    unfold firstVlan maxVlans at *
    omega

theorem stpCall_other {e : Env δ} (hnone : cfg.stpMode ≠ .none) (hrpvst : cfg.stpMode ≠ .rpvst) :
    stpAfter sw e cfg = e ∧ StpHonest sw e cfg := by
  have hrun : configStpApply sw.dev cfg ⟨e, []⟩ = (.error (-1), ⟨e, []⟩) := by
    rw [configStpApply, Prog.bind_run_ok (getCache_run _)]
    cases hmode : cfg.stpMode with
    | none => exact absurd hmode hnone
    | rpvst => exact absurd hmode hrpvst
    | _ => rfl
  unfold StpHonest stpAfter
  rw [hrun]
  exact ⟨rfl, fun hret => by cases hret⟩

/-! ### Runs of calls -/

/-- A run of calls: has spanning tree been switched off in it, and the cache and the switch now. -/
structure StpRun (δ : Type) where
  switchedOff : Bool
  env : Env δ

variable (sw)

def stpRunStep (r : StpRun δ) (cfg : PlatCfg) : StpRun δ :=
  ⟨r.switchedOff || decide (cfg.stpMode = .none), stpAfter sw r.env cfg⟩

/-- The answers of the switch do no harm in this call of a run that began with the cache `start`. To
    switch off, the delete must not be refused. For rpvst, the delete must not be granted while the
    cache has instances, which is as long as it has those it began with; if spanning tree may be off,
    setting the mode must bring the ports with it; and disabling an instance must not be refused. -/
def StpCarried (start : PlatState) (r : StpRun δ) (cfg : PlatCfg) : Prop :=
  match cfg.stpMode with
  | .none => (Op.stpGlobalDel, false) ∉ stpLog sw r.env cfg
  | .rpvst =>
    ((Op.stpGlobalDel, true) ∈ stpLog sw r.env cfg → r.switchedOff = true ∨ NoneCached start) ∧
    (PortsMissed (stpLog sw r.env cfg) → r.switchedOff = false ∧ start.stpMode ≠ .none) ∧
    ¬ DisableRefused (stpLog sw r.env cfg)
  | _ => True

/-- The cache agrees with the switch. Once spanning tree has been off, the mode is set anew only when
    no instance is cached, and only switching off makes the cached mode none. -/
structure StpInv (start : PlatState) (r : StpRun δ) : Prop where
  coherent : StpCoherent sw r.env
  sets : r.switchedOff = true ∨ NoneCached start → setsMode r.env.cache = true →
    NoneCached r.env.cache
  off : r.env.cache.stpMode = .none → r.switchedOff = true ∨ start.stpMode = .none

variable {sw}

theorem stpInv_start {e : Env δ} (h : StpCoherent sw e) : StpInv sw e.cache ⟨false, e⟩ where
  coherent := h
  sets hstart _ := hstart.resolve_left Bool.false_ne_true
  off hnone := Or.inr hnone

theorem stpInv_step {start : PlatState} {r : StpRun δ} {cfg : PlatCfg} (h : StpInv sw start r)
    (hcarried : StpCarried sw start r cfg) :
    StpInv sw start (stpRunStep sw r cfg) ∧ StpHonest sw r.env cfg := by
  unfold StpCarried at hcarried
  by_cases hnone : cfg.stpMode = .none
  · rw [hnone] at hcarried
    obtain ⟨hcoherent, hmode, hhonest⟩ := stpCall_none hnone h.coherent hcarried
    exact ⟨⟨hcoherent, fun _ _ => hcoherent.noneCached hmode,
      fun _ => Or.inl (by simp [stpRunStep, hnone])⟩, hhonest⟩
  have hsame : (stpRunStep sw r cfg).switchedOff = r.switchedOff := by simp [stpRunStep, hnone]
  by_cases hrpvst : cfg.stpMode = .rpvst
  · rw [hrpvst] at hcarried
    obtain ⟨hdel, hports, hdisable⟩ := hcarried
    obtain ⟨hcoherent, hcache, hhonest⟩ := stpCall_rpvst hrpvst h.coherent
      (fun hsets hmem => h.sets (hdel hmem) hsets)
      (fun hoff hmissed => by
        obtain ⟨hno, hstart⟩ := hports hmissed
        rcases h.off hoff with hyes | hyes
        · rw [hno] at hyes
          cases hyes
        · exact hstart hyes) hdisable
    refine ⟨⟨hcoherent, ?_, ?_⟩, hhonest⟩
    · rw [hsame]
      change _ → setsMode (stpAfter sw r.env cfg).cache = true → NoneCached (stpAfter sw r.env cfg).cache
      rcases hcache with hcache | hsets
      · rw [hcache]
        exact h.sets
      · rw [hsets]
        nofun
    · rw [hsame]
      change (stpAfter sw r.env cfg).cache.stpMode = .none → _
      rcases hcache with hcache | hsets
      · rw [hcache]
        exact h.off
      · intro hoff
        simp [setsMode, hoff] at hsets
  · obtain ⟨henv, hhonest⟩ : stpAfter sw r.env cfg = r.env ∧ StpHonest sw r.env cfg :=
      stpCall_other hnone hrpvst
    have hr : stpRunStep sw r cfg = r := by
      unfold stpRunStep
      rw [henv]
      simp [hnone]
    rw [hr]
    exact ⟨h, hhonest⟩

/-- From a cache that agrees with the switch, in every run whose calls meet the condition, each call
    that returns 0 leaves on the switch what its configuration asks for. -/
theorem stp_runs_applied (sw : StpSwitch δ) (e : Env δ) (h : StpCoherent sw e)
    (calls : List PlatCfg)
    (hcarried : EveryStep (stpRunStep sw) (StpCarried sw e.cache) ⟨false, e⟩ calls) :
    EveryStep (stpAfter sw) (StpHonest sw) e calls := by
  refine everyStep_of_simulation (R := fun r e' => r.env = e' ∧ StpInv sw e.cache r) ?_ calls
    ⟨false, e⟩ e ⟨rfl, stpInv_start h⟩ hcarried
  rintro r _ cfg ⟨rfl, hinv⟩ hc
  obtain ⟨hnext, hhonest⟩ := stpInv_step hinv hc
  exact ⟨⟨rfl, hnext⟩, hhonest⟩

end Steps

/-! ### Runs on a switch that answers as it is told -/

def plainStp : StpSwitch (StpView × List Bool) :=
  scriptedSwitch stpStore Bitmap.clear (fun _ => []) ["Ethernet0"] fun _ => []

/-- The instance of VLAN 5, and nothing else. -/
def vlan5Attr : StpAttr :=
  { priority := 4096, forwardDelay := 15, helloTime := 2, maxAge := 20, enabled := true }

def vlan5Cfg (mode : StpMode) : PlatCfg :=
  { stpMode := mode
    stpInstances := Function.update (fun _ => {}) 5
      { enabled := true, priority := 4096, forwardDelay := 15, helloTime := 2, maxAge := 20 } }

/-- The switch runs rpvst on VLAN 5, and the cache knows, with the priority of the global entry. -/
def vlan5Env (priority : ℕ) (answers : List Bool) : Env (StpView × List Bool) :=
  ⟨{ stpMode := .rpvst
     stpModeAttr := { priority := priority }
     stpVlanAttr := Function.update (fun _ => {}) 5 vlan5Attr },
   (⟨.rpvst, Function.update (fun _ => none) 5 (some vlan5Attr)⟩, answers)⟩

theorem vlan5Env_coherent (priority : ℕ) (answers : List Bool) :
    StpCoherent plainStp (vlan5Env priority answers) := by
  refine ⟨fun i _ _ => ?_, fun hnone => by cases hnone⟩
  by_cases hi : i = 5
  · subst hi
    rfl
  · have hcached : (vlan5Env priority answers).cache.stpVlanAttr i = {} := by
      simp [vlan5Env, Function.update_of_ne hi]
    have hentry : (plainStp.view (vlan5Env priority answers).dev).vlans i = none := by
      simp [vlan5Env, plainStp, scriptedSwitch, Function.update_of_ne hi]
    rw [hcached, hentry]
    rfl

/-- Spanning tree is off, on the switch and in the cache. -/
def stpOffEnv (answers : List Bool) : Env (StpView × List Bool) :=
  ⟨{}, (⟨.none, fun _ => none⟩, answers)⟩

theorem stpOffEnv_coherent (answers : List Bool) : StpCoherent plainStp (stpOffEnv answers) :=
  ⟨fun _ _ _ => rfl, fun _ => ⟨rfl, fun _ => rfl⟩⟩

/-- Three calls: in the first the instance of VLAN 5 is refused, the second brings it, the third
    switches off. -/
theorem stp_runs_applied_retried :
    EveryStep (stpAfter plainStp) (StpHonest plainStp) (stpOffEnv [true, true, true, false])
      [vlan5Cfg .rpvst, vlan5Cfg .rpvst, vlan5Cfg .none] := by
  refine stp_runs_applied plainStp _ (stpOffEnv_coherent _) _ ?_
  have hfirst : stpLog plainStp (stpOffEnv [true, true, true, false]) (vlan5Cfg .rpvst) =
      [(.stpGlobalDel, true), (.stpGlobalSet .rpvst 0, true), (.stpPortsSet ["Ethernet0"], true),
        (.stpVlanSet 5 vlan5Attr, false)] := by decide +kernel
  have hsecond : stpLog plainStp (stpAfter plainStp (stpOffEnv [true, true, true, false])
      (vlan5Cfg .rpvst)) (vlan5Cfg .rpvst) = [(.stpVlanSet 5 vlan5Attr, true)] := by decide +kernel
  rw [everyStep_cons, everyStep_cons, everyStep_cons]
  refine ⟨⟨fun _ => Or.inr fun _ _ _ => rfl, fun hmissed => ?_, ?_⟩,
    ⟨fun _ => Or.inr fun _ _ _ => rfl, fun hmissed => ?_, ?_⟩, ?_, everyStep_nil _⟩
  · exact absurd (by decide +kernel) (hmissed.2 ["Ethernet0"])
  · rintro ⟨vids, enable, hmem⟩
    rw [hfirst] at hmem
    simp at hmem
  · obtain ⟨⟨mode, priority, hmem⟩, -⟩ := hmissed
    change _ ∈ stpLog plainStp (stpAfter plainStp (stpOffEnv _) _) _ at hmem
    rw [hsecond] at hmem
    simp at hmem
  · rintro ⟨vids, enable, hmem⟩
    change _ ∈ stpLog plainStp (stpAfter plainStp (stpOffEnv _) _) _ at hmem
    rw [hsecond] at hmem
    simp at hmem
  · change _ ∉ stpLog plainStp _ (vlan5Cfg .none)
    decide +kernel

/-- Three runs from a cache that agrees with the switch. Switching off: the delete is refused, 0 is
    returned and spanning tree is still on. Setting the mode anew: everything is granted, 0 is returned
    and the instance of VLAN 5 is gone. Setting the mode, with its ports refused, and switching off:
    the second call returns 0 without asking the switch, which is still on. -/
theorem stp_calls_not_applied :
    (StpCoherent plainStp (vlan5Env 0 [false]) ∧
      Prog.retCode (configStpApply plainStp.dev (vlan5Cfg .none) ⟨vlan5Env 0 [false], []⟩).1 = 0 ∧
      (plainStp.view (stpAfter plainStp (vlan5Env 0 [false]) (vlan5Cfg .none)).dev).mode = .rpvst ∧
      ¬ StpHonest plainStp (vlan5Env 0 [false]) (vlan5Cfg .none)) ∧
    (StpCoherent plainStp (vlan5Env 4096 []) ∧
      Prog.retCode (configStpApply plainStp.dev (vlan5Cfg .rpvst) ⟨vlan5Env 4096 [], []⟩).1 = 0 ∧
      (plainStp.view (stpAfter plainStp (vlan5Env 4096 []) (vlan5Cfg .rpvst)).dev).vlans 5 = none ∧
      ¬ StpHonest plainStp (vlan5Env 4096 []) (vlan5Cfg .rpvst)) ∧
    (StpCoherent plainStp (stpOffEnv [true, true, false]) ∧
      ¬ EveryStep (stpAfter plainStp) (StpHonest plainStp) (stpOffEnv [true, true, false])
        [vlan5Cfg .rpvst, vlan5Cfg .none]) := by
  refine ⟨⟨vlan5Env_coherent 0 _, by decide +kernel, by decide +kernel, fun h => ?_⟩,
    ⟨vlan5Env_coherent 4096 _, by decide +kernel, by decide +kernel, fun h => ?_⟩,
    stpOffEnv_coherent _, fun h => ?_⟩
  · exact absurd (h (by decide +kernel)).1 (by decide +kernel)
  · exact absurd (h (by decide +kernel) 5 (by decide) (by decide)).1 (by decide +kernel)
  · rw [everyStep_cons, everyStep_cons] at h
    exact absurd (h.2.1 (by decide +kernel)).1 (by decide +kernel)

end Ucentral.Plat
