import Ucentral.Lib.Run
import Ucentral.Plat.PortCache
import Ucentral.Plat.Ports
import Ucentral.Plat.Switch

/-! The PoE settings of the ports, cached and on the switch.

    Each setting is cached as soon as the switch has accepted it. Wherever a call breaks off, the cache
    says what the switch has, so the next call sends what is still missing. -/

namespace Ucentral.Plat
open Effect Run

variable {δ : Type}

/-! ### The settings on the switch -/

/-- What the switch has for a PoE port. -/
structure PoeSettings where
  isAdminModeUp : Bool := false
  detectionMode : PoeDetectionMode := .pt2Dot3af
  powerLimit : ℕ := 0
  isPowerLimitUserDefined : Bool := false
  priority : PoePriority := .low
  deriving DecidableEq, Repr

/-- What the cache says of it. -/
def PoePort.settings (p : PoePort) : PoeSettings where
  isAdminModeUp := p.isAdminModeUp
  detectionMode := p.detectionMode
  powerLimit := p.powerLimit
  isPowerLimitUserDefined := p.isPowerLimitUserDefined
  priority := p.priority

/-- A granted request stores its value with the port it names. A limit that is class based is sent
    without a value, and read as 0. A reset changes no setting. -/
def poeStore (op : Op) (v : String → PoeSettings) : String → PoeSettings :=
  match op with
  | .poePortAdminSet p up => Function.update v p { v p with isAdminModeUp := up }
  | .poePortDetectionSet p mode => Function.update v p { v p with detectionMode := mode }
  | .poePortPowerLimitSet p userDefined limit => Function.update v p { v p with
      isPowerLimitUserDefined := userDefined
      powerLimit := if userDefined then limit else 0 }
  | .poePortPrioritySet p priority => Function.update v p { v p with priority := priority }
  | _ => v

/-- A switch that keeps the PoE settings of its ports. -/
abbrev PoeSwitch (δ : Type) := Switch δ (String → PoeSettings) fun op v v' => v' = poeStore op v

/-- The settings that a configuration asks for, of a port that has the settings `old`. -/
def poeConfigured (port : PlatPort) (old : PoeSettings) : PoeSettings where
  isAdminModeUp := port.poe.isAdminModeUp
  detectionMode := if port.poe.isDetectionModeSet
    then poePortDetectionModeStr2num port.poe.detectionMode else old.detectionMode
  powerLimit := if port.poe.isPowerLimitSet then port.poe.powerLimit else 0
  isPowerLimitUserDefined := port.poe.isPowerLimitSet
  priority := if port.poe.isPrioritySet
    then poePortPriorityModeStr2num port.poe.priority else old.priority

section Call

variable (sw : PoeSwitch δ)

/-- The cache has, for every PoE port, the settings of the switch; no two of them have one name. -/
structure PoeCoherent (s : PlatSt δ) : Prop where
  equal : ∀ pid, s.state.cache.poePortsBmap pid = true →
    (s.state.cache.poePorts pid).settings = sw.view s.state.dev (s.state.cache.poePorts pid).key
  distinct : ∀ p q, s.state.cache.poePortsBmap p = true → s.state.cache.poePortsBmap q = true →
    (s.state.cache.poePorts p).key = (s.state.cache.poePorts q).key → p = q

/-- In the course of a call for the port `pid`, which has the name `key`: the cache is coherent, and
    the switch has the settings `v`. -/
structure PoeAt (b : Bitmap) (pid : ℕ) (key : String) (v : String → PoeSettings) (s : PlatSt δ) :
    Prop where
  coherent : PoeCoherent sw s
  bmap : s.state.cache.poePortsBmap = b
  named : (s.state.cache.poePorts pid).key = key
  view : sw.view s.state.dev = v

/-- A call that breaks off. -/
structure PoeLeft (b : Bitmap) (s : PlatSt δ) : Prop where
  coherent : PoeCoherent sw s
  bmap : s.state.cache.poePortsBmap = b

variable {sw} {b : Bitmap} {pid : ℕ} {key : String} {v : String → PoeSettings}

theorem PoeAt.left {s : PlatSt δ} (h : PoeAt sw b pid key v s) : PoeLeft sw b s := ⟨h.coherent, h.bmap⟩

theorem PoeAt.settings {s : PlatSt δ} (hb : b pid = true) (h : PoeAt sw b pid key v s) :
    (s.state.cache.poePorts pid).settings = v key := by
  rw [h.coherent.equal pid (by rw [h.bmap]; exact hb), h.view, h.named]

/-- Setting and caching the same thing keeps the cache coherent. -/
theorem PoeAt.set {s : PlatSt δ} {f : PoePort → PoePort} {g : PoeSettings → PoeSettings} {d : δ} {l}
    (hb : b pid = true) (h : PoeAt sw b pid key v s) (hkey : ∀ p, (f p).key = p.key)
    (hset : ∀ p : PoePort, (f p).settings = g p.settings)
    (hview : sw.view d = Function.update v key (g (v key))) :
    PoeAt sw b pid key (Function.update v key (g (v key)))
      ⟨⟨setPoePort pid f s.state.cache, d⟩, l⟩ := by
  have hbmap : s.state.cache.poePortsBmap pid = true := by rw [h.bmap, hb]
  have hkeys : ∀ q, (Function.update s.state.cache.poePorts pid (f (s.state.cache.poePorts pid)) q).key =
      (s.state.cache.poePorts q).key := by
    intro q
    by_cases hq : q = pid
    · rw [hq, Function.update_self, hkey]
    · rw [Function.update_of_ne hq]
  refine ⟨⟨?_, ?_⟩, h.bmap, (hkeys pid).trans h.named, hview⟩
  · intro q hq
    dsimp only [setPoePort] at hq ⊢
    rw [hkeys q, hview]
    by_cases hqp : q = pid
    · rw [hqp, h.named, Function.update_self, Function.update_self, hset, h.settings hb]
    · have hne : (s.state.cache.poePorts q).key ≠ key := by
        intro heq
        exact hqp (h.coherent.distinct q pid hq hbmap (heq.trans h.named.symm))
      rw [Function.update_of_ne hqp, Function.update_of_ne hne, h.coherent.equal q hq, h.view]
  · intro p q hp hq hpq
    dsimp only [setPoePort] at hpq
    rw [hkeys p, hkeys q] at hpq
    exact h.coherent.distinct p q hp hq hpq

/-- A switch that is asked something, or refuses, is where it was. -/
theorem PoeAt.still {s : PlatSt δ} {d : δ} {l} (h : PoeAt sw b pid key v s)
    (hview : sw.view d = sw.view s.state.dev) : PoeAt sw b pid key v ⟨⟨s.state.cache, d⟩, l⟩ := by
  refine ⟨⟨?_, h.coherent.distinct⟩, h.bmap, h.named, hview.trans h.view⟩
  intro q hq
  dsimp only at hq ⊢
  rw [hview]
  exact h.coherent.equal q hq

/-! ### One setting -/

/-- A setting takes its port from `v key` to `g (v key)`, or it is refused and nothing has happened. -/
theorem triple_poeSetting (hb : b pid = true) {differs : PoePort → Bool} {op : PoePort → Op}
    {f : PoePort → PoePort} (g : PoeSettings → PoeSettings)
    (hstore : ∀ p v, poeStore (op p) v = Function.update v p.key (g (v p.key)))
    (hkey : ∀ p, (f p).key = p.key) (hset : ∀ p : PoePort, (f p).settings = g p.settings)
    (hskip : ∀ p : PoePort, differs p = false → g p.settings = p.settings) :
    Triple (PoeAt sw b pid key v) (poeSetting sw.dev pid differs op f)
      (fun _ => PoeAt sw b pid key (Function.update v key (g (v key)))) (PoeLeft sw b) := by
  refine triple_at fun s hs => ?_
  refine triple_bind (Q := fun c t => t = s ∧ c = s.state.cache) ?_ fun c => ?_
  · rintro t rfl
    exact ⟨rfl, rfl⟩
  refine triple_at fun t ht => ?_
  obtain ⟨rfl, rfl⟩ := ht
  refine triple_when (fun _ => ?_) fun hdiff => ?_
  · refine triple_bind (Q := fun _ u => u.state.cache = t.state.cache ∧ sw.view u.state.dev =
      Function.update v key (g (v key))) ?_ fun _ => ?_
    · refine triple_orFail (triple_gnmiRequest sw ?_ ?_)
      · rintro _ d rfl hgranted
        refine ⟨rfl, ?_⟩
        rw [hgranted, hstore, hs.named, hs.view]
      · rintro _ d rfl hrefused
        exact (hs.still hrefused).left
    · refine triple_modifyCache fun u hu => ?_
      obtain ⟨hcache, hview⟩ := hu
      rw [hcache]
      exact hs.set hb hkey hset hview
  · rintro _ rfl
    -- the cached setting is the wanted one, and the cached settings are those of the switch
    have hsame : g (v key) = v key := by
      rw [← hs.settings hb]
      exact hskip _ hdiff
    rwa [hsame, Function.update_eq_self]

/-- A setting that the configuration may leave out. -/
theorem triple_poeOptional (hb : b pid = true) {isSet : Bool} {differs : PoePort → Bool}
    {op : PoePort → Op} {f : PoePort → PoePort} (g : PoeSettings → PoeSettings)
    (hstore : ∀ p v, poeStore (op p) v = Function.update v p.key (g (v p.key)))
    (hkey : ∀ p, (f p).key = p.key) (hset : ∀ p : PoePort, (f p).settings = g p.settings)
    (hskip : ∀ p : PoePort, differs p = false → g p.settings = p.settings) :
    Triple (PoeAt sw b pid key v) (Prog.when isSet (poeSetting sw.dev pid differs op f))
      (fun _ => PoeAt sw b pid key (Function.update v key (if isSet then g (v key) else v key)))
      (PoeLeft sw b) := by
  cases isSet with
  | true => exact triple_poeSetting hb g hstore hkey hset hskip
  | false =>
    intro s hs
    rw [if_neg Bool.false_ne_true, Function.update_eq_self]
    exact hs

/-! ### One call -/

theorem triple_poeReset {doReset : Bool} : Triple (PoeAt sw b pid key v)
    (Prog.when doReset (do
      let p := (← getCache).poePorts pid
      Prog.orFail (-1) (gnmiRequest sw.dev (.poePortReset p.key))))
    (fun _ => PoeAt sw b pid key v) (PoeLeft sw b) := by
  refine triple_when (fun _ => ?_) fun _ _ hs => hs
  refine triple_bind (Q := fun _ => PoeAt sw b pid key v) (fun s hs => hs) fun c => ?_
  refine triple_orFail (triple_gnmiRequest sw ?_ ?_)
  · intro s d hs hgranted
    exact hs.still hgranted
  · intro s d hs hrefused
    exact (hs.still hrefused).left

/-- What the four settings leave, one after the other. -/
theorem poeConfigured_eq (port : PlatPort) (old : PoeSettings) :
    poeConfigured port old =
      let mode := poePortDetectionModeStr2num port.poe.detectionMode
      let priority := poePortPriorityModeStr2num port.poe.priority
      let x := if port.poe.isDetectionModeSet then { old with detectionMode := mode } else old
      let y := if port.poe.isPrioritySet then { x with priority := priority } else x
      { y with
        isPowerLimitUserDefined := port.poe.isPowerLimitSet
        powerLimit := if port.poe.isPowerLimitSet then port.poe.powerLimit else 0
        isAdminModeUp := port.poe.isAdminModeUp } := by
  unfold poeConfigured
  cases port.poe.isDetectionModeSet <;> cases port.poe.isPrioritySet <;> rfl

/-- A call configures its port, or breaks off; the cache is coherent either way. -/
theorem triple_configPoePortApply (hb : b pid = true) (port : PlatPort) :
    Triple (PoeAt sw b pid key v) (configPoePortApply sw.dev pid port)
      (fun _ => PoeAt sw b pid key (Function.update v key (poeConfigured port (v key))))
      (PoeLeft sw b) := by
  rw [poeConfigured_eq]
  unfold configPoePortApply
  -- the detection mode
  refine triple_bind (triple_poeOptional hb (fun x => { x with
    detectionMode := poePortDetectionModeStr2num port.poe.detectionMode }) (fun _ _ => rfl)
    (fun _ => rfl) (fun _ => rfl) ?_) fun _ => ?_
  · intro p hp
    have hmode : p.detectionMode = poePortDetectionModeStr2num port.poe.detectionMode := by
      simpa using hp
    rw [← hmode]
    rfl
  -- the priority
  refine triple_bind (triple_poeOptional hb (fun x => { x with
    priority := poePortPriorityModeStr2num port.poe.priority }) (fun _ _ => rfl)
    (fun _ => rfl) (fun _ => rfl) ?_) fun _ => ?_
  · intro p hp
    have hpriority : p.priority = poePortPriorityModeStr2num port.poe.priority := by
      simpa using hp
    rw [← hpriority]
    rfl
  -- the power limit
  refine triple_bind (triple_poeSetting hb (fun x => { x with
    isPowerLimitUserDefined := port.poe.isPowerLimitSet
    powerLimit := if port.poe.isPowerLimitSet then port.poe.powerLimit else 0 }) ?_
    (fun _ => rfl) (fun _ => rfl) ?_) fun _ => ?_
  · intro p v
    cases port.poe.isPowerLimitSet <;> rfl
  · intro p hp
    simp only [Bool.or_eq_false_iff, decide_eq_false_iff_not, not_not] at hp
    obtain ⟨hlimit, hdefined⟩ := hp
    rw [← hlimit, ← hdefined]
    rfl
  -- the admin mode
  refine triple_bind (triple_poeSetting hb (fun x => { x with
    isAdminModeUp := port.poe.isAdminModeUp }) (fun _ _ => rfl)
    (fun _ => rfl) (fun _ => rfl) ?_) fun _ => ?_
  · intro p hp
    have hup : p.isAdminModeUp = port.poe.isAdminModeUp := by
      simpa using hp
    rw [← hup]
    rfl
  simp only [Function.update_self, Function.update_idem]
  exact triple_poeReset

end Call

/-! ### The names in the cache -/

/-- Each PoE port is cached under its own name. -/
def PoeKeyed (c : PlatState) : Prop :=
  ∀ pid, c.poePortsBmap pid = true → nameToPid (c.poePorts pid).key = some pid

/-- Such a cache is coherent if it has the settings of the switch. -/
theorem PoeKeyed.coherent {sw : PoeSwitch δ} {s : PlatSt δ} (h : PoeKeyed s.state.cache)
    (hequal : ∀ pid, s.state.cache.poePortsBmap pid = true → (s.state.cache.poePorts pid).settings =
      sw.view s.state.dev (s.state.cache.poePorts pid).key) : PoeCoherent sw s := by
  refine ⟨hequal, ?_⟩
  intro p q hp hq hkey
  have hpid := h p hp
  rw [hkey, h q hq] at hpid
  exact (Option.some.inj hpid).symm

theorem PoeKeyed.setPoePort {c : PlatState} (h : PoeKeyed c) (pid : ℕ) {f : PoePort → PoePort}
    (hkey : ∀ p, (f p).key = p.key) : PoeKeyed (setPoePort pid f c) := by
  intro q hq
  unfold Plat.setPoePort
  dsimp only
  by_cases hqp : q = pid
  · rw [hqp, Function.update_self, hkey, ← hqp]
    exact h q hq
  · rw [Function.update_of_ne hqp]
    exact h q hq

/-- A get that leaves the names alone. -/
theorem keeps_poeKeyed_valueGet {α : Type} (q : δ → Got α × δ) {set : α → PlatState → PlatState}
    (hset : ∀ a c, PoeKeyed c → PoeKeyed (set a c)) :
    Keeps (fun s : Traced (PortEnv δ) ℕ => PoeKeyed s.state.cache) (valueGet q set) := by
  refine keeps_bind (fun s hs => hs) fun got => ?_
  cases got with
  | fails => exact keeps_fail _
  | missing => exact keeps_pure _
  | value a => exact fun s hs => hset a _ hs

theorem keeps_poeKeyed_listGet (q : δ → Option (List String) × δ) :
    Keeps (fun s : Traced (PortEnv δ) ℕ => PoeKeyed s.state.cache) (listGet q id) := by
  refine keeps_bind (fun s hs => hs) fun names => ?_
  cases names with
  | none => exact keeps_bind (fun s hs => hs) fun _ => keeps_fail _
  | some names => exact keeps_pure names

/-- The port and its name are entered together. -/
theorem keeps_poeKeyed_poePortInit (dv : PortDev δ) {name : String} {pid : ℕ}
    (hname : nameToPid name = some pid) :
    Keeps (fun s : Traced (PortEnv δ) ℕ => PoeKeyed s.state.cache) (poePortInit dv name) := by
  refine triple_bind (Q := fun a s => a = pid ∧ PoeKeyed s.state.cache) ?_ fun a => ?_
  · intro s hs
    exact ⟨by rw [hname]; rfl, hs⟩
  refine triple_bind (Q := fun _ s => a = pid ∧ ∀ q ≠ pid, s.state.cache.poePortsBmap q = true →
    nameToPid (s.state.cache.poePorts q).key = some q) ?_ fun _ => ?_
  · rintro s ⟨rfl, hs⟩
    refine ⟨rfl, fun q hq hbit => hs q ?_⟩
    simpa [Bitmap.setBit, hq] using hbit
  refine triple_bind (Q := fun _ s => PoeKeyed s.state.cache) ?_ fun _ => ?_
  · rintro s ⟨rfl, hs⟩ q hq
    unfold Plat.setPoePort
    dsimp only
    by_cases hqp : q = a
    · rw [hqp, Function.update_self]
      exact hname
    · rw [Function.update_of_ne hqp]
      exact hs q hqp hq
  refine keeps_bind (keeps_poeKeyed_valueGet _ fun _ _ h => h.setPoePort _ fun _ => rfl) fun _ => ?_
  refine keeps_bind (keeps_poeKeyed_valueGet _ fun _ _ h => h.setPoePort _ fun _ => rfl) fun _ => ?_
  refine keeps_bind (keeps_poeKeyed_valueGet _ fun _ _ h => h.setPoePort _ fun _ => rfl) fun _ => ?_
  exact keeps_poeKeyed_valueGet _ fun _ _ h => h.setPoePort _ fun _ => rfl

/-- After `plat_state_poe_init` no two of the cached PoE ports have one name. -/
theorem keeps_poeKeyed_platStatePoeInit (dv : PortDev δ)
    (hlist : ∀ d names, (dv.poePortList d).1 = some names → ∀ name ∈ names, (nameToPid name).isSome) :
    Keeps (fun s : Traced (PortEnv δ) ℕ => PoeKeyed s.state.cache) (platStatePoeInit dv) := by
  refine keeps_bind (keeps_poeKeyed_listGet _) fun _ => ?_
  refine triple_bind (Q := fun names s => PoeKeyed s.state.cache ∧
    ∀ name ∈ names, (nameToPid name).isSome) ?_ fun names => ?_
  · intro s hs
    rcases hreply : (dv.poePortList s.state.dev).1 with _ | names
    · simpa [listGet, Prog.bind_run, Prog.query, hreply] using hs
    · have hports := hlist _ _ hreply
      simpa [listGet, Prog.bind_run, Prog.query, hreply] using ⟨hs, hports⟩
  refine triple_at fun s hs => ?_
  refine Triple.pre (P := fun s => PoeKeyed s.state.cache) ?_ fun t ht => ht ▸ hs.1
  refine keeps_bind (triple_forM_mem names fun name hname => ?_) fun _ => ?_
  · obtain ⟨pid, hpid⟩ := Option.isSome_iff_exists.mp (hs.2 name hname)
    exact keeps_poeKeyed_poePortInit dv hpid
  refine keeps_bind (keeps_poeKeyed_valueGet _ fun _ _ h => h) fun _ => ?_
  exact keeps_poeKeyed_valueGet _ fun _ _ h => h

/-! ### Calls in a row -/

abbrev PoeCall := ℕ × PlatPort

section Runs

variable (sw : PoeSwitch δ)

/-- The state after a call. -/
def poeAfter (s : PlatSt δ) (call : PoeCall) : PlatSt δ := (configPoePortApply sw.dev call.1 call.2 s).2

/-- After the call the cache is coherent; if it returned 0, the port is as configured, and the other
    ports are as they were. -/
structure PoeSettled (s : PlatSt δ) (call : PoeCall) : Prop where
  coherent : PoeCoherent sw (poeAfter sw s call)
  configured : Prog.retCode (configPoePortApply sw.dev call.1 call.2 s).1 = 0 →
    let key := (s.state.cache.poePorts call.1).key
    sw.view (poeAfter sw s call).state.dev = Function.update (sw.view s.state.dev) key
      (poeConfigured call.2 (sw.view s.state.dev key))

variable {sw}

theorem poeSettled {s : PlatSt δ} (hs : PoeCoherent sw s) {call : PoeCall}
    (hport : s.state.cache.poePortsBmap call.1 = true) :
    PoeSettled sw s call ∧
      (poeAfter sw s call).state.cache.poePortsBmap = s.state.cache.poePortsBmap := by
  have hat : PoeAt sw s.state.cache.poePortsBmap call.1 (s.state.cache.poePorts call.1).key
    (sw.view s.state.dev) s := ⟨hs, rfl, rfl, rfl⟩
  have hpost := triple_configPoePortApply hport call.2 s hat
  rcases hrun : configPoePortApply sw.dev call.1 call.2 s with ⟨c | _, t⟩
  · have hafter : poeAfter sw s call = t := congrArg Prod.snd hrun
    rw [hrun] at hpost
    refine ⟨⟨?_, ?_⟩, ?_⟩
    · rw [hafter]
      exact hpost.coherent
    · intro hret
      exact absurd hret ((reports_configPoePortApply sw.dev _ _).retCode_ne_zero hrun)
    · rw [hafter]
      exact hpost.bmap
  · have hafter : poeAfter sw s call = t := congrArg Prod.snd hrun
    rw [hrun] at hpost
    refine ⟨⟨?_, ?_⟩, ?_⟩
    · rw [hafter]
      exact hpost.coherent
    · intro _
      rw [hafter]
      exact hpost.view
    · rw [hafter]
      exact hpost.bmap

/-- From a coherent cache, whatever the switch grants and refuses, every call for a PoE port leaves the
    cache coherent, and if it returned 0 the port as configured. -/
theorem poe_runs_settled (sw : PoeSwitch δ) (s : PlatSt δ) (hs : PoeCoherent sw s)
    (calls : List PoeCall) (hports : ∀ call ∈ calls, s.state.cache.poePortsBmap call.1 = true) :
    EveryStep (poeAfter sw) (PoeSettled sw) s calls := by
  induction calls generalizing s with
  | nil => exact everyStep_nil s
  | cons call calls ih =>
    rw [everyStep_cons]
    obtain ⟨hsettled, hbmap⟩ := poeSettled hs (hports call List.mem_cons_self)
    refine ⟨hsettled, ih _ hsettled.coherent ?_⟩
    intro other hother
    rw [hbmap]
    exact hports other (List.mem_cons_of_mem _ hother)

end Runs

/-- A switch without PoE settings, with the answers it is going to give. -/
def plainPoe : PoeSwitch ((String → PoeSettings) × List Bool) :=
  scriptedSwitch poeStore Bitmap.clear (fun _ => []) [] fun _ => []

/-- Its cache has one PoE port. -/
def plainPoeStart (answers : List Bool) : PlatSt ((String → PoeSettings) × List Bool) :=
  ⟨⟨{ poePorts := fun _ => { key := "Ethernet0" }
      poePortsBmap := Bitmap.clear.setBit 0 }, (fun _ => {}, answers)⟩, []⟩

/-- High priority, and a limit of 15 W. -/
def highPriority : PoeCall :=
  (0, { poe := { isPrioritySet := true, priority := "high", isPowerLimitSet := true,
                 powerLimit := 15000, isAdminModeUp := true } })

theorem coherent_plainPoeStart (answers : List Bool) :
    PoeCoherent plainPoe (plainPoeStart answers) := by
  refine PoeKeyed.coherent ?_ fun _ _ => rfl
  intro pid hpid
  have hzero : pid = 0 := by simpa [plainPoeStart, Bitmap.setBit, Bitmap.clear] using hpid
  rw [hzero]
  exact nameToPid_pidToName 0

/-- The limit is refused at first; the second call sends it, and the priority no more. -/
theorem poe_runs_settled_refused :
    EveryStep (poeAfter plainPoe) (PoeSettled plainPoe) (plainPoeStart [true, false])
      [highPriority, highPriority] :=
  poe_runs_settled plainPoe (plainPoeStart [true, false]) (coherent_plainPoeStart _)
    [highPriority, highPriority] (by simp [highPriority, plainPoeStart, Bitmap.setBit])

end Ucentral.Plat
