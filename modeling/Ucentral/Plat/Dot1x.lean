import Ucentral.Lib.Run
import Ucentral.Plat.Ports
import Ucentral.Plat.Switch

/-! The 802.1X settings of the ports, cached and on the switch.

    A call sends the settings that differ from the cached ones, one by one, and caches them when the
    last one has been accepted. If one is refused after another one was accepted, the switch has moved
    on and the cache has not. -/

namespace Ucentral.Plat
open Effect Run

variable {δ : Type}

/-! ### The settings on the switch -/

/-- A granted request stores its value with the port it names. -/
def dot1xStore (op : Op) (v : String → CachedDot1x) : String → CachedDot1x :=
  match op with
  | .dot1xPaeSet p b => Function.update v p { v p with isAuthenticator := b }
  | .dot1xCtrlSet p mode => Function.update v p { v p with controlMode := mode }
  | .dot1xHostSet p mode => Function.update v p { v p with hostMode := mode }
  | .dot1xGuestVlanSet p vid => Function.update v p { v p with guestVid := vid }
  | .dot1xAuthFailVlanSet p vid => Function.update v p { v p with authFailVid := vid }
  | _ => v

/-- A switch that keeps the 802.1X settings of its ports. -/
abbrev Dot1xSwitch (δ : Type) := Switch δ (String → CachedDot1x) fun op v v' => v' = dot1xStore op v

/-- The requests of a call: one for each setting that differs from the cached one. -/
def dot1xWanted (name : String) (cached : CachedDot1x) (new : PortDot1x) : List Op :=
  (if cached.isAuthenticator ≠ new.isAuthenticator then [.dot1xPaeSet name new.isAuthenticator]
    else []) ++
  ((if cached.controlMode ≠ new.controlMode then [.dot1xCtrlSet name new.controlMode] else []) ++
  ((if cached.hostMode ≠ new.hostMode then [.dot1xHostSet name new.hostMode] else []) ++
  ((if cached.guestVid ≠ new.guestVid then [.dot1xGuestVlanSet name new.guestVid] else []) ++
  (if cached.authFailVid ≠ new.authFailVid then [.dot1xAuthFailVlanSet name new.authFailVid]
    else []))))

theorem dot1xWanted_eq_nil_iff (name : String) (cached : CachedDot1x) (new : PortDot1x) :
    dot1xWanted name cached new = [] ↔ cached = cachedDot1xOf new := by
  rcases cached with ⟨_, _, _, _, _⟩
  rcases new with ⟨_, _, _, _, _⟩
  simp [dot1xWanted, cachedDot1xOf]
  tauto

/-- When the first of the requests is granted, the others are still wanted. -/
theorem dot1xWanted_store {name : String} {v : String → CachedDot1x} {new : PortDot1x} {op : Op}
    {ops : List Op} (h : dot1xWanted name (v name) new = op :: ops) :
    dot1xWanted name (dot1xStore op v name) new = ops ∧
      ∀ p, p ≠ name → dot1xStore op v p = v p := by
  have hframe : ∀ x : CachedDot1x, ∀ p, p ≠ name → Function.update v name x p = v p :=
    fun x p hp => Function.update_of_ne hp x v
  -- the first setting that differs is the one that is sent
  by_cases h1 : (v name).isAuthenticator = new.isAuthenticator
  · by_cases h2 : (v name).controlMode = new.controlMode
    · by_cases h3 : (v name).hostMode = new.hostMode
      · by_cases h4 : (v name).guestVid = new.guestVid
        · by_cases h5 : (v name).authFailVid = new.authFailVid
          · simp [dot1xWanted, h1, h2, h3, h4, h5] at h
          · simp [dot1xWanted, h1, h2, h3, h4, h5] at h
            obtain ⟨rfl, rfl⟩ := h
            exact ⟨by simp [dot1xWanted, dot1xStore, h1, h2, h3, h4], hframe _⟩
        · simp [dot1xWanted, h1, h2, h3, h4] at h
          obtain ⟨rfl, rfl⟩ := h
          exact ⟨by simp [dot1xWanted, dot1xStore, h1, h2, h3], hframe _⟩
      · simp [dot1xWanted, h1, h2, h3] at h
        obtain ⟨rfl, rfl⟩ := h
        exact ⟨by simp [dot1xWanted, dot1xStore, h1, h2], hframe _⟩
    · simp [dot1xWanted, h1, h2] at h
      obtain ⟨rfl, rfl⟩ := h
      exact ⟨by simp [dot1xWanted, dot1xStore, h1], hframe _⟩
  · simp [dot1xWanted, h1] at h
    obtain ⟨rfl, rfl⟩ := h
    exact ⟨by simp [dot1xWanted, dot1xStore], hframe _⟩

section Call

variable (sw : Dot1xSwitch δ)

/-- What the requests of a call leave on the switch: of those that were wanted at most as many as
    before, none if all are granted, and no other port is touched. -/
theorem sentAll_wanted (name : String) (new : PortDot1x) : ∀ (ops : List Op) (d : δ),
    dot1xWanted name (sw.view d name) new = ops →
    (dot1xWanted name (sw.view (sentAll sw.dev ops d).2 name) new).length ≤ ops.length ∧
    ((sentAll sw.dev ops d).1 = true →
      sw.view (sentAll sw.dev ops d).2 name = cachedDot1xOf new) ∧
    ∀ p, p ≠ name → sw.view (sentAll sw.dev ops d).2 p = sw.view d p
  | [], d, h => by
      refine ⟨?_, fun _ => (dot1xWanted_eq_nil_iff name _ new).mp h, fun _ _ => rfl⟩
      simp only [sentAll, h, List.length_nil, le_refl]
  | op :: ops, d, h => by
      unfold sentAll
      cases hg : (sw.dev.request op d).1 with
      | false =>
        have hview := sw.refused op d hg
        simp only [Bool.false_eq_true, if_false, hview, h]
        exact ⟨le_refl _, by simp, fun _ _ => trivial⟩
      | true =>
        have hview := sw.granted op d hg
        obtain ⟨hwant, hframe⟩ := dot1xWanted_store h
        rw [← hview] at hwant
        obtain ⟨hlen, hall, hrest⟩ := sentAll_wanted name new ops _ hwant
        rw [if_pos rfl]
        refine ⟨?_, hall, fun p hp => ?_⟩
        · rw [List.length_cons]
          omega
        · rw [hrest p hp, hview, hframe p hp]

/-! ### One call -/

theorem configPortIeee8021xApply_eq (dv : Dev δ) (pid : ℕ) (port : PlatPort) :
    configPortIeee8021xApply dv pid port = (do
      let cached := (← getCache).ports pid
      sendAll dv (dot1xWanted (pidToName pid) cached port.dot1x)
      modifyCache fun c =>
        { c with ports := Function.update c.ports pid (cachedDot1xOf port.dot1x) }) := by
  unfold configPortIeee8021xApply dot1xWanted
  simp only [sendAll_append, when_gnmiRequest, bind_assoc, decide_eq_true_eq]

/-- The requests of a call, from the state it starts in. -/
def dot1xRequests (s : PlatSt δ) (pid : ℕ) (port : PlatPort) : List Op :=
  dot1xWanted (pidToName pid) (s.state.cache.ports pid) port.dot1x

theorem configPortIeee8021xApply_run (dv : Dev δ) (pid : ℕ) (port : PlatPort) (s : PlatSt δ) :
    let sent := sentAll dv (dot1xRequests s pid port) s.state.dev
    ∃ l, configPortIeee8021xApply dv pid port s =
      if sent.1 then
        (.ok (), ⟨⟨{ s.state.cache with
          ports := Function.update s.state.cache.ports pid (cachedDot1xOf port.dot1x) }, sent.2⟩, l⟩)
      else (.error (-1), ⟨⟨s.state.cache, sent.2⟩, l⟩) := by
  intro sent
  obtain ⟨l, hl⟩ := sendAll_run dv (dot1xRequests s pid port) s
  refine ⟨l, ?_⟩
  have hget : (getCache : ApplyM δ PlatState) s = (.ok s.state.cache, s) := rfl
  rw [configPortIeee8021xApply_eq, Prog.bind_run_ok hget]
  cases hsent : sent.1 with
  | true =>
    rw [if_pos hsent] at hl
    rw [if_pos rfl]
    exact Prog.bind_run_ok hl _
  | false =>
    rw [if_neg (by rw [hsent]; decide)] at hl
    rw [if_neg (by decide)]
    exact Prog.bind_run_error hl _

/-! ### Calls in a row -/

/-- A call for a port of the cached array. -/
abbrev Dot1xCall := Fin maxNumOfPorts × PlatPort

/-- The state after a call. -/
def dot1xAfter (s : PlatSt δ) (call : Dot1xCall) : PlatSt δ :=
  (configPortIeee8021xApply sw.dev call.1 call.2 s).2

/-- The cache holds, for every port, what the switch has. -/
def Dot1xCoherent (s : PlatSt δ) : Prop :=
  ∀ pid < maxNumOfPorts, s.state.cache.ports pid = sw.view s.state.dev (pidToName pid)

/-- After the call the cache is coherent; if it returned 0, the port is as configured. -/
def Dot1xSettled (s : PlatSt δ) (call : Dot1xCall) : Prop :=
  Dot1xCoherent sw (dot1xAfter sw s call) ∧
  (Prog.retCode (configPortIeee8021xApply sw.dev call.1 call.2 s).1 = 0 →
    sw.view (dot1xAfter sw s call).state.dev (pidToName call.1) = cachedDot1xOf call.2.dot1x)

/-- The switch grants every request of the call, or refuses the first. -/
def AllOrNothing (dv : Dev δ) (s : PlatSt δ) (call : Dot1xCall) : Prop :=
  let ops := dot1xRequests s call.1 call.2
  (sentAll dv ops s.state.dev).1 = true ∨
    ∃ op, ops.head? = some op ∧ (dv.request op s.state.dev).1 = false

theorem pidToName_ne {p q : ℕ} (hp : p < maxNumOfPorts) (hq : q < maxNumOfPorts) (h : p ≠ q) :
    pidToName p ≠ pidToName q := by
  unfold maxNumOfPorts at hp hq
  exact fun heq => h (pidToName_inj (by omega) (by omega) heq)

/-- Once the first request is granted the switch has no longer what is cached, however far the other
    requests get. -/
theorem dot1x_stored_ne {s : PlatSt δ} (hs : Dot1xCoherent sw s) {pid : ℕ} (hpid : pid < maxNumOfPorts)
    {port : PlatPort} {op : Op} {ops : List Op} (hops : dot1xRequests s pid port = op :: ops)
    (hg : (sw.dev.request op s.state.dev).1 = true) :
    s.state.cache.ports pid ≠
      sw.view (sentAll sw.dev (op :: ops) s.state.dev).2 (pidToName pid) := by
  intro hnow
  obtain ⟨hwant, -⟩ := dot1xWanted_store
    (v := sw.view s.state.dev) (by rw [← hs pid hpid]; exact hops)
  rw [← sw.granted op _ hg] at hwant
  obtain ⟨hless, -, -⟩ := sentAll_wanted sw (pidToName pid) port.dot1x ops _ hwant
  rw [sentAll, if_pos hg] at hnow
  rw [← hnow] at hless
  change (dot1xRequests s pid port).length ≤ ops.length at hless
  rw [hops, List.length_cons] at hless
  omega

theorem dot1xSettled_iff {s : PlatSt δ} (hs : Dot1xCoherent sw s) (call : Dot1xCall) :
    Dot1xSettled sw s call ↔ AllOrNothing sw.dev s call := by
  obtain ⟨⟨pid, hpid⟩, port⟩ := call
  obtain ⟨l, hrun⟩ := configPortIeee8021xApply_run sw.dev pid port s
  obtain ⟨hlen, hall, hframe⟩ := sentAll_wanted sw (pidToName pid) port.dot1x
    (dot1xRequests s pid port) s.state.dev (by rw [dot1xRequests, hs pid hpid])
  unfold Dot1xSettled Dot1xCoherent dot1xAfter AllOrNothing
  dsimp only
  cases hsent : (sentAll sw.dev (dot1xRequests s pid port) s.state.dev).1 with
  | true =>
    rw [if_pos hsent] at hrun
    rw [hrun]
    refine iff_of_true ⟨fun q hq => ?_, fun _ => hall hsent⟩ (Or.inl rfl)
    by_cases heq : q = pid
    · rw [heq]
      exact (Function.update_self ..).trans (hall hsent).symm
    · change Function.update _ _ _ q = _
      rw [Function.update_of_ne heq, hs q hq]
      exact (hframe _ (pidToName_ne hq hpid heq)).symm
  | false =>
    rw [if_neg (by rw [hsent]; decide)] at hrun
    rw [hrun]
    -- a call that fails leaves the cache as it is
    rcases hops : dot1xRequests s pid port with _ | ⟨op, ops⟩
    · rw [hops] at hsent
      cases hsent
    · rw [hops] at hsent hlen hframe
      cases hg : (sw.dev.request op s.state.dev).1 with
      | false =>
        have hdev : sw.view (sentAll sw.dev (op :: ops) s.state.dev).2 = sw.view s.state.dev := by
          rw [sentAll, hg]
          exact sw.refused op _ hg
        refine iff_of_true ⟨fun q hq => ?_, fun h => absurd h (by simp [Prog.retCode])⟩
          (Or.inr ⟨op, rfl, hg⟩)
        change s.state.cache.ports q = sw.view (sentAll sw.dev (op :: ops) s.state.dev).2 _
        rw [hdev, hs q hq]
      | true =>
        -- one setting was stored, and not all of them
        refine iff_of_false (fun hco => ?_) ?_
        · exact dot1x_stored_ne sw hs hpid hops hg (hco.1 pid hpid)
        · rintro (h | ⟨op', hop', hrefused⟩)
          · cases h
          · cases hop'
            rw [hg] at hrefused
            cases hrefused

end Call

/-- From a coherent cache, after every call of a run the cache is coherent, and a call that returned 0
    has left its port as configured, exactly if in every call the switch grants all requests or
    refuses the first. -/
theorem dot1x_runs_coherent_iff (sw : Dot1xSwitch δ) (s : PlatSt δ) (hs : Dot1xCoherent sw s)
    (calls : List Dot1xCall) :
    EveryStep (dot1xAfter sw) (Dot1xSettled sw) s calls ↔
      EveryStep (dot1xAfter sw) (AllOrNothing sw.dev) s calls :=
  everyStep_iff (I := Dot1xCoherent sw) (fun _ call h => dot1xSettled_iff sw h call)
    (fun _ _ _ h => h.1) calls s hs

/-- A switch without 802.1X settings, with the answers it is going to give. -/
def plainDot1x : Dot1xSwitch ((String → CachedDot1x) × List Bool) :=
  scriptedSwitch dot1xStore Bitmap.clear (fun _ => []) [] fun _ => []

def plainDot1xStart (answers : List Bool) : PlatSt ((String → CachedDot1x) × List Bool) :=
  ⟨⟨{}, (fun _ => {}, answers)⟩, []⟩

/-- A port that asks for authentication, one host at a time. -/
def autoSingle : Dot1xCall :=
  (⟨0, by decide⟩, { dot1x := { controlMode := .auto, hostMode := .singleHost } })

/-- The same port with the default settings. -/
def defaultDot1x : Dot1xCall := (⟨0, by decide⟩, {})

theorem dot1x_runs_coherent_granted :
    EveryStep (dot1xAfter plainDot1x) (Dot1xSettled plainDot1x) (plainDot1xStart [])
      [autoSingle, defaultDot1x] :=
  (dot1x_runs_coherent_iff plainDot1x (plainDot1xStart []) (fun _ _ => rfl)
    [autoSingle, defaultDot1x]).mpr
    (by
      rw [everyStep_cons, everyStep_cons]
      exact ⟨Or.inl (by decide +kernel), Or.inl (by decide +kernel), everyStep_nil _⟩)

/-- The control mode is granted, the host mode is refused; a call with the former settings then finds
    nothing to send, returns 0 and leaves the new control mode on the switch. -/
theorem dot1x_run_incoherent :
    let s := dot1xAfter plainDot1x (plainDot1xStart [true, false]) autoSingle
    (s.state.cache.ports 0).controlMode = .forceAuthorized ∧
    (plainDot1x.view s.state.dev "Ethernet0").controlMode = .auto ∧
    Prog.retCode (configPortIeee8021xApply plainDot1x.dev 0 {} s).1 = 0 ∧
    (plainDot1x.view (dot1xAfter plainDot1x s defaultDot1x).state.dev "Ethernet0").controlMode = .auto ∧
    ¬ EveryStep (dot1xAfter plainDot1x) (Dot1xSettled plainDot1x) (plainDot1xStart [true, false])
      [autoSingle, defaultDot1x] := by
  refine ⟨by decide +kernel, by decide +kernel, by decide +kernel, by decide +kernel, fun h => ?_⟩
  rw [everyStep_cons] at h
  have hport := congrArg CachedDot1x.controlMode (h.1.1 0 (by decide))
  exact absurd hport (by decide +kernel)

end Ucentral.Plat
