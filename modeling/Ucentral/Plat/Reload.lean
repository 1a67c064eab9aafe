import Ucentral.Plat.LeafSwitch

/-! What a client that starts anew reads of the settings of the ports.

    `plat_state_init` clears the cache and asks the switch for every setting of every port that it lists.
    Whatever the requests before it have left on the switch, the cache then is what the calls that send
    only the differences rely on. -/

namespace Ucentral.Plat
open CJson Yang Effect

variable {δ : Type}

/-! ### Reading a port -/

section Read

variable (sw : GnmiSwitch δ) {leaves : Leaves} {c : PlatState}

/-- The switch has these leaves. -/
def LeavesAt (leaves : Leaves) (s : Traced (PortEnv δ) ℕ) : Prop := sw.leaf s.state.dev = leaves

/-- It has these leaves, and this is the cache. -/
def CacheAt (leaves : Leaves) (c : PlatState) (s : Traced (PortEnv δ) ℕ) : Prop :=
  sw.leaf s.state.dev = leaves ∧ s.state.cache = c

/-- A get that says `g` unless it fails; without a value what is cached stays. -/
theorem triple_valueGet {α : Type} {q : δ → Got α × δ} {g : Got α} {set : α → PlatState → PlatState} {a : α}
    (hkeeps : ∀ d, sw.leaf (q d).2 = sw.leaf d)
    (hq : ∀ d, sw.leaf d = leaves → (q d).1 = .fails ∨ (q d).1 = g) (hset : set a c = c) :
    Triple (CacheAt sw leaves c) (valueGet q set) (fun _ => CacheAt sw leaves (set (g.getD a) c))
      (LeavesAt sw leaves) := by
  rintro s ⟨hleaf, rfl⟩
  have hleft : sw.leaf (q s.state.dev).2 = leaves := (hkeeps _).trans hleaf
  rcases hq _ hleaf with hfails | hsays
  · simpa [valueGet, Prog.bind_run, Prog.query, hfails, LeavesAt] using hleft
  · cases g with
    | fails => simpa [valueGet, Prog.bind_run, Prog.query, hsays, LeavesAt] using hleft
    | missing =>
      simp only [valueGet, Prog.bind_run, Prog.query, hsays, Prog.pure_run]
      exact ⟨hleft, hset.symm⟩
    | value b =>
      simp only [valueGet, Prog.bind_run, Prog.query, hsays, Prog.modifyState_run]
      exact ⟨hleft, rfl⟩

/-- A setting of a port of the cache. -/
theorem triple_portGet {α : Type} {l : Leaf String α} (hl : l.Lawful) (port : String) (pid : ℕ)
    (f : α → CachedDot1x → CachedDot1x) (get : CachedDot1x → α) (hf : ∀ x, f (get x) x = x) :
    Triple (CacheAt sw leaves c) (valueGet (sw.leafGet l port) fun a => setPort pid (f a))
      (fun _ => CacheAt sw leaves (setPort pid (fun x => f ((l.at_ leaves port).getD (get x)) x) c))
      (LeavesAt sw leaves) := by
  refine triple_valueGet (a := get (c.ports pid)) sw (fun d => sw.get_keeps _ d) (sw.leafGet_says hl port) ?_
  rw [setPort, hf, Function.update_eq_self]

theorem setPort_setPort (pid : ℕ) (f g : CachedDot1x → CachedDot1x) (c : PlatState) :
    setPort pid g (setPort pid f c) = setPort pid (fun x => g (f x)) c := by
  simp [setPort]

/-- What the five gets make of the cached 802.1X settings of a port. -/
def dot1xRead (leaves : Leaves) (port : String) (x : CachedDot1x) : CachedDot1x where
  controlMode := (portCtrl.at_ leaves port).getD x.controlMode
  hostMode := (hostMode.at_ leaves port).getD x.hostMode
  authFailVid := (unauthorizedVlan.at_ leaves port).getD x.authFailVid
  guestVid := (guestVlan.at_ leaves port).getD x.guestVid
  isAuthenticator := (pae.at_ leaves port).getD x.isAuthenticator

theorem triple_platStatePortIeee8021xInit (pid : ℕ) (port : String) :
    Triple (CacheAt sw leaves c) (platStatePortIeee8021xInit sw.portDev pid port)
      (fun _ => CacheAt sw leaves (setPort pid (dot1xRead leaves port) c)) (LeavesAt sw leaves) := by
  refine triple_bind (triple_portGet sw pae_lawful port pid _ (·.isAuthenticator) fun _ => rfl) fun _ => ?_
  refine triple_bind (triple_portGet sw portCtrl_lawful port pid _ (·.controlMode) fun _ => rfl) fun _ => ?_
  refine triple_bind (triple_portGet sw hostMode_lawful port pid _ (·.hostMode) fun _ => rfl) fun _ => ?_
  refine triple_bind (triple_portGet sw guestVlan_lawful port pid _ (·.guestVid) fun _ => rfl) fun _ => ?_
  refine (triple_portGet sw unauthorizedVlan_lawful port pid _ (·.authFailVid) fun _ => rfl).post
    fun _ s hs => ?_
  rw [setPort_setPort, setPort_setPort, setPort_setPort, setPort_setPort] at hs
  exact hs

theorem Got.getD_getD {α : Type} (g : Got α) (a : α) : g.getD (g.getD a) = g.getD a := by
  cases g <;> rfl

/-- The cached settings of a port that has been read are those of the switch, if they were the default ones
    or those of the switch already. -/
theorem dot1xRead_eq (h : Fits leaves) (port : String) {x : CachedDot1x}
    (hx : x = {} ∨ x = dot1xAt leaves port) : dot1xRead leaves port x = dot1xAt leaves port := by
  have hfirst : dot1xAt leaves port = dot1xRead leaves port {} := by
    have hguest := readNumber_getD (h.guestVid port)
    have hfail := readNumber_getD (h.authFailVid port)
    unfold dot1xAt
    rw [← hguest, ← hfail]
    rfl
  rcases hx with rfl | rfl
  · exact hfirst.symm
  · rw [hfirst]
    simp [dot1xRead, Got.getD_getD]

/-! ### Reading all ports -/

/-- The ports that have been read are cached as they are on the switch, the others as the cache was cleared;
    or the feature has failed. -/
structure PortsRead (leaves : Leaves) (names : List String) (s : Traced (PortEnv δ) ℕ) : Prop where
  leaf : sw.leaf s.state.dev = leaves
  ports : s.state.cache.featAaa ≠ .fail → ∀ pid < maxNumOfPorts, s.state.cache.ports pid =
    if pidToName pid ∈ names then dot1xAt leaves (pidToName pid) else {}

theorem toPid_pidToName {pid : ℕ} (hpid : pid < maxNumOfPorts) (stack : ℕ) :
    (nameToPid (pidToName pid)).getD stack = pid := by
  rw [nameToPid_pidToName, Nat.mod_eq_of_lt (by unfold maxNumOfPorts at hpid; omega)]
  rfl

/-- The loop over the ports takes up one more. -/
theorem triple_portInit (h : Fits leaves) (names : List String) {pid : ℕ} (hpid : pid < maxNumOfPorts) :
    Triple (PortsRead sw leaves names) (portInit sw.portDev (pidToName pid))
      (fun _ => PortsRead sw leaves (names ++ [pidToName pid])) (LeavesAt sw leaves) := by
  refine triple_at fun s hs => ?_
  refine triple_bind (Q := fun q t => q = pid ∧ CacheAt sw leaves s.state.cache t) ?_ fun q => ?_
  · rintro _ rfl
    exact ⟨toPid_pidToName hpid _, hs.leaf, rfl⟩
  refine triple_at fun t ht => ?_
  obtain ⟨rfl, ht⟩ := ht
  refine Triple.pre (P := CacheAt sw leaves s.state.cache) ?_ fun _ heq => heq ▸ ht
  refine triple_bind (Q := fun _ => CacheAt sw leaves s.state.cache) (fun _ hu => hu) fun _ => ?_
  refine triple_bind (Q := fun _ => CacheAt sw leaves s.state.cache) (fun _ hu => hu) fun _ => ?_
  intro u hu
  unfold Prog.orElse
  have hpost := triple_platStatePortIeee8021xInit sw q (pidToName q) u hu
  rcases hrun : platStatePortIeee8021xInit sw.portDev q (pidToName q) u with ⟨_ | _, t'⟩
  · rw [hrun] at hpost
    exact ⟨hpost, fun hok => absurd rfl hok⟩
  · rw [hrun] at hpost
    obtain ⟨hleaf, hcache⟩ := hpost
    refine ⟨hleaf, fun hok q' hq' => ?_⟩
    rw [hcache] at hok ⊢
    have hports := hs.ports hok
    change Function.update s.state.cache.ports q _ q' = _
    by_cases heq : q' = q
    · subst heq
      rw [Function.update_self, if_pos (by simp)]
      refine dot1xRead_eq h _ ?_
      rw [hports q' hq']
      by_cases hmem : pidToName q' ∈ names
      · exact Or.inr (if_pos hmem)
      · exact Or.inl (if_neg hmem)
    · rw [Function.update_of_ne heq, hports q' hq']
      simp [pidToName_ne hq' hpid heq]

/-- A list that the switch gives, or does not; and then the rest. -/
theorem triple_listGet {P : Traced (PortEnv δ) ℕ → Prop} {q : δ → Option (List String) × δ}
    {undo : PortEnv δ → PortEnv δ} {names : List String} {f : List String → CacheM δ Unit}
    {Q : Unit → Traced (PortEnv δ) ℕ → Prop}
    (hq : ∀ d, (q d).1 = none ∨ (q d).1 = some names)
    (hkeeps : ∀ s, P s → P { s with state := { s.state with dev := (q s.state.dev).2 } })
    (hf : Triple P (f names) Q fun _ => True) : Triple P (listGet q undo >>= f) Q fun _ => True := by
  intro s hs
  rcases hq s.state.dev with h | h
  · have hrun : listGet q undo s =
        (.error (-1), ⟨undo { s.state with dev := (q s.state.dev).2 }, s.log⟩) := by
      simp [listGet, Prog.bind_run, Prog.query, h]
    rw [Prog.bind_run_error hrun]
    trivial
  · have hrun : listGet q undo s = (.ok names, ⟨{ s.state with dev := (q s.state.dev).2 }, s.log⟩) := by
      simp [listGet, Prog.bind_run, Prog.query, h]
    rw [Prog.bind_run_ok hrun]
    exact hf _ (hkeeps s hs)

/-- A loop that takes up one listed port after the other. -/
theorem triple_forM_listed {I : List String → Traced (PortEnv δ) ℕ → Prop} {E : Traced (PortEnv δ) ℕ → Prop}
    {f : String → CacheM δ Unit} {names : List String}
    (hnames : ∀ name ∈ names, ∃ pid < maxNumOfPorts, pidToName pid = name)
    (hf : ∀ done, ∀ pid < maxNumOfPorts,
      Triple (I done) (f (pidToName pid)) (fun _ => I (done ++ [pidToName pid])) E) :
    Triple (I []) (forM names f) (fun _ => I names) E := by
  have hloop := triple_forM (f := f) (E := E)
    (I := fun done todo s => I done s ∧ ∀ name ∈ todo, name ∈ names) ?_ names []
  · exact hloop.imp (fun _ hs => ⟨hs, fun _ hname => hname⟩) (fun _ _ hs => hs.1) fun _ ht => ht
  intro done name todo
  refine triple_at fun s hs => ?_
  obtain ⟨pid, hpid, rfl⟩ := hnames name (hs.2 name List.mem_cons_self)
  refine (hf done pid hpid).imp ?_ (fun _ _ ht => ⟨ht, ?_⟩) fun _ ht => ht
  · rintro _ rfl
    exact hs.1
  · exact fun name hname => hs.2 name (List.mem_cons_of_mem _ hname)

/-- `plat_state_ports_init`, from a cleared cache. -/
theorem triple_platStatePortsInit (h : Fits leaves) {names poeNames : List String}
    (hlists : sw.portDev.Lists names poeNames)
    (hnames : ∀ name ∈ names, ∃ pid < maxNumOfPorts, pidToName pid = name) :
    Triple (PortsRead sw leaves []) (platStatePortsInit sw.portDev) (fun _ => PortsRead sw leaves names)
      fun _ => True := by
  have hkeeps : ∀ s, PortsRead sw leaves [] s →
      PortsRead sw leaves []
        { s with state := { s.state with dev := (sw.portDev.portList s.state.dev).2 } } :=
    fun s hs => ⟨(sw.portList_keeps _).trans hs.leaf, hs.ports⟩
  refine triple_listGet hlists.1 hkeeps (triple_listGet hlists.1 hkeeps ?_)
  refine triple_forM_listed hnames fun done pid hpid => ?_
  exact (triple_portInit sw h done hpid).imp (fun _ hs => hs) (fun _ _ ht => ht) fun _ _ => trivial

/-! ### Reading the PoE ports -/

/-- There is no slash in the name of a port. -/
theorem slash_not_mem_pidToName (pid : ℕ) : '/' ∉ (pidToName pid).toList := by
  rw [toList_pidToName, List.mem_append, not_or]
  refine ⟨by decide, fun hmem => ?_⟩
  have hdigit := Decimal.print_digits hmem
  exact absurd hdigit (by decide)

/-- A setting of a PoE port of the cache. -/
theorem triple_poePortGet {α : Type} {q : δ → Got α × δ} {g : Got α} (pid : ℕ) (f : α → PoePort → PoePort)
    (get : PoePort → α) (hf : ∀ x, f (get x) x = x) (hkeeps : ∀ d, sw.leaf (q d).2 = sw.leaf d)
    (hq : ∀ d, sw.leaf d = leaves → (q d).1 = .fails ∨ (q d).1 = g) :
    Triple (CacheAt sw leaves c) (valueGet q fun a => setPoePort pid (f a))
      (fun _ => CacheAt sw leaves (setPoePort pid (fun x => f (g.getD (get x)) x) c))
      (LeavesAt sw leaves) := by
  refine triple_valueGet (a := get (c.poePorts pid)) sw hkeeps hq ?_
  rw [setPoePort, hf, Function.update_eq_self]

theorem setPoePort_setPoePort (pid : ℕ) (f g : PoePort → PoePort) (c : PlatState) :
    setPoePort pid g (setPoePort pid f c) = setPoePort pid (fun x => g (f x)) c := by
  simp [setPoePort]

/-- What the four gets make of the cached settings of a PoE port. -/
def poeRead (leaves : Leaves) (port : String) (x : PoePort) : PoePort :=
  let limit := (powerLimitAt leaves port).getD (x.isPowerLimitUserDefined, x.powerLimit)
  { x with
    isAdminModeUp := (adminMode.at_ leaves port).getD x.isAdminModeUp
    detectionMode := (detectionMode.at_ leaves port).getD x.detectionMode
    isPowerLimitUserDefined := limit.1
    powerLimit := limit.2
    priority := (priority.at_ leaves port).getD x.priority }

theorem triple_poeGets (h : Fits leaves) (pid : ℕ) {port : String} (hport : '/' ∉ port.toList) :
    Triple (CacheAt sw leaves c) (do
      valueGet (sw.portDev.poeAdmin port) fun b => setPoePort pid fun p => { p with isAdminModeUp := b }
      valueGet (sw.portDev.poeDetection port) fun m => setPoePort pid fun p => { p with detectionMode := m }
      valueGet (sw.portDev.poePowerLimit port) fun l => setPoePort pid fun p =>
        { p with isPowerLimitUserDefined := l.1, powerLimit := l.2 }
      valueGet (sw.portDev.poePriority port) fun m => setPoePort pid fun p => { p with priority := m })
      (fun _ => CacheAt sw leaves (setPoePort pid (poeRead leaves port) c)) (LeavesAt sw leaves) := by
  refine triple_bind (triple_poePortGet sw pid _ (·.isAdminModeUp) (fun _ => rfl)
    (fun d => sw.get_keeps _ d) (sw.leafGet_says adminMode_lawful port)) fun _ => ?_
  refine triple_bind (triple_poePortGet sw pid _ (·.detectionMode) (fun _ => rfl)
    (fun d => sw.get_keeps _ d) (sw.leafGet_says detectionMode_lawful port)) fun _ => ?_
  refine triple_bind (triple_poePortGet (g := powerLimitAt leaves port) sw pid _
    (fun x => (x.isPowerLimitUserDefined, x.powerLimit)) (fun _ => rfl)
    (fun d => sw.get_keeps _ d) fun d hd => ?_) fun _ => ?_
  · subst hd
    exact sw.powerLimitGet_eq hport (h.entry port)
  · refine (triple_poePortGet sw pid _ (·.priority) (fun _ => rfl)
      (fun d => sw.get_keeps _ d) (sw.leafGet_says priority_lawful port)).post fun _ s hs => ?_
    rw [setPoePort_setPoePort, setPoePort_setPoePort, setPoePort_setPoePort] at hs
    exact hs

theorem powerLimitAt_getD (h : Fits leaves) (port : String) :
    (powerLimitAt leaves port).getD (false, 0) =
      ((poeAt leaves port).isPowerLimitUserDefined, (poeAt leaves port).powerLimit) := by
  have hvalue := h.powerLimit port
  change (powerLimitAt leaves port).getD (false, 0) = (isUser (leaves (poePath port "power_limit_type")),
    if isUser (leaves (poePath port "power_limit_type")) then numberAt (leaves (poePath port "power_limit"))
    else 0)
  unfold powerLimitAt readPowerLimit
  unfold isUser at hvalue ⊢
  rcases htype : getStringValue (leaves (poePath port "power_limit_type")) with _ | type
  · rfl
  · rw [htype] at hvalue
    by_cases hclass : type = "CLASS_BASED"
    · subst hclass
      cases isNumber (leaves (poePath port "power_limit")) <;> simp [Got.getD]
    · obtain ⟨n, hn, hleaf⟩ := hvalue (by simp [hclass])
      have hread : (getNumberValue (some (number n))).toUInt 32 = n := by
        change (Double.fin (n : ℚ)).toUInt 32 = n
        rw [Double.toUInt_natCast, Nat.mod_eq_of_lt hn]
      have hnumber : isNumber (some (number n)) = true := rfl
      simp [hleaf, hclass, hnumber, hread, numberAt_number, Got.getD]

theorem poeRead_eq (h : Fits leaves) (port : String) {x : PoePort}
    (hx : x.settings = {} ∨ x.settings = poeAt leaves port) :
    (poeRead leaves port x).settings = poeAt leaves port := by
  have hread : ∀ x : PoePort, (poeRead leaves port x).settings =
      { isAdminModeUp := (adminMode.at_ leaves port).getD x.settings.isAdminModeUp
        detectionMode := (detectionMode.at_ leaves port).getD x.settings.detectionMode
        isPowerLimitUserDefined := ((powerLimitAt leaves port).getD
          (x.settings.isPowerLimitUserDefined, x.settings.powerLimit)).1
        powerLimit := ((powerLimitAt leaves port).getD
          (x.settings.isPowerLimitUserDefined, x.settings.powerLimit)).2
        priority := (priority.at_ leaves port).getD x.settings.priority } := fun _ => rfl
  have hlimit := powerLimitAt_getD h port
  rw [hread]
  rcases hx with hx | hx
  · rw [hx, hlimit]
    rfl
  · rw [hx, ← hlimit, Got.getD_getD, hlimit]
    simp [poeAt, Got.getD_getD]

/-- The PoE ports that have been read are cached as they are on the switch, each under its name; the rest of
    the cache is as it was cleared. -/
structure PoeRead (leaves : Leaves) (names : List String) (s : Traced (PortEnv δ) ℕ) : Prop where
  leaf : sw.leaf s.state.dev = leaves
  bmap : ∀ pid, s.state.cache.poePortsBmap pid = true ↔ pid < maxNumOfPorts ∧ pidToName pid ∈ names
  ports : ∀ pid, s.state.cache.poePortsBmap pid = true → (s.state.cache.poePorts pid).key = pidToName pid ∧
    (s.state.cache.poePorts pid).settings = poeAt leaves (pidToName pid)
  others : ∀ pid, s.state.cache.poePortsBmap pid = false → (s.state.cache.poePorts pid).settings = {}

theorem triple_recordCache {E : Traced (PortEnv δ) ℕ → Prop} (pid : ℕ) (g : PlatState → PlatState) :
    Triple (CacheAt sw leaves c) (Prog.record pid fun e => { e with cache := g e.cache })
      (fun _ => CacheAt sw leaves (g c)) E := by
  rintro s ⟨hleaf, rfl⟩
  exact ⟨hleaf, rfl⟩

/-- The loop over the PoE ports takes up one more. -/
theorem triple_poePortInit (h : Fits leaves) (names : List String) {pid : ℕ} (hpid : pid < maxNumOfPorts) :
    Triple (PoeRead sw leaves names) (poePortInit sw.portDev (pidToName pid))
      (fun _ => PoeRead sw leaves (names ++ [pidToName pid])) (fun _ => True) := by
  refine triple_at fun s hs => ?_
  refine triple_bind (Q := fun q t => q = pid ∧ CacheAt sw leaves s.state.cache t) ?_ fun q => ?_
  · rintro _ rfl
    exact ⟨toPid_pidToName hpid _, hs.leaf, rfl⟩
  refine triple_at fun t ht => ?_
  obtain ⟨rfl, ht⟩ := ht
  refine Triple.pre (P := CacheAt sw leaves s.state.cache) ?_ fun _ heq => heq ▸ ht
  refine triple_bind
    (triple_recordCache sw q fun c => { c with poePortsBmap := c.poePortsBmap.setBit q }) fun _ => ?_
  refine triple_bind
    (triple_recordCache sw q (setPoePort q fun p => { p with key := pidToName q })) fun _ => ?_
  refine (triple_poeGets sw h q (slash_not_mem_pidToName q)).imp (fun _ hu => hu) ?_ fun _ _ => trivial
  rintro _ u ⟨hleaf, hcache⟩
  rw [setPoePort_setPoePort] at hcache
  have hbmap : ∀ pid, u.state.cache.poePortsBmap pid = (pid == q || s.state.cache.poePortsBmap pid) := by
    intro pid
    rw [hcache]
    rfl
  have hport : ∀ pid, pid ≠ q → u.state.cache.poePorts pid = s.state.cache.poePorts pid := by
    intro pid hne
    rw [hcache]
    exact Function.update_of_ne hne _ _
  refine ⟨hleaf, fun pid => ?_, fun pid hbit => ?_, fun pid hbit => ?_⟩
  · rw [hbmap]
    by_cases heq : pid = q
    · subst heq
      simp [hpid]
    · have hbit := hs.bmap pid
      have hne := fun hlt : pid < maxNumOfPorts => pidToName_ne hlt hpid heq
      simp only [beq_eq_false_iff_ne.mpr heq, Bool.false_or, List.mem_append, List.mem_singleton]
      tauto
  · by_cases heq : pid = q
    · subst heq
      rw [hcache]
      change (Function.update s.state.cache.poePorts pid _ pid).key = _ ∧
        (Function.update s.state.cache.poePorts pid _ pid).settings = _
      rw [Function.update_self]
      refine ⟨rfl, poeRead_eq h _ ?_⟩
      cases hold : s.state.cache.poePortsBmap pid with
      | true => exact Or.inr (hs.ports pid hold).2
      | false => exact Or.inl (hs.others pid hold)
    · rw [hport pid heq]
      rw [hbmap, beq_eq_false_iff_ne.mpr heq, Bool.false_or] at hbit
      exact hs.ports pid hbit
  · rw [hbmap, Bool.or_eq_false_iff] at hbit
    rw [hport pid (beq_eq_false_iff_ne.mp hbit.1)]
    exact hs.others pid hbit.2

/-- A get that sets nothing of which a condition speaks. -/
theorem keeps_valueGet {I : PlatState → Prop} {α : Type} (q : δ → Got α × δ) {set : α → PlatState → PlatState}
    (hset : ∀ a c, I c → I (set a c)) :
    Keeps (fun s : Traced (PortEnv δ) ℕ => I s.state.cache) (valueGet q set) := by
  refine keeps_bind (fun _ hs => hs) fun got => ?_
  cases got with
  | fails => exact keeps_fail _
  | missing => exact keeps_pure _
  | value a => exact fun s hs => hset a _ hs

/-- A setting that is not one of a port. -/
theorem triple_unitGet {α : Type} {q : δ → Got α × δ} {set : α → PlatState → PlatState} {names : List String}
    (hkeeps : ∀ d, sw.leaf (q d).2 = sw.leaf d)
    (hset : ∀ a c, (set a c).poePortsBmap = c.poePortsBmap ∧ (set a c).poePorts = c.poePorts) :
    Triple (PoeRead sw leaves names) (valueGet q set) (fun _ => PoeRead sw leaves names) fun _ => True := by
  refine triple_bind (Q := fun _ => PoeRead sw leaves names) ?_ fun got => ?_
  · intro s hs
    exact ⟨(hkeeps _).trans hs.leaf, hs.bmap, hs.ports, hs.others⟩
  cases got with
  | fails => exact fun _ _ => trivial
  | missing => exact fun _ hs => hs
  | value a =>
    intro s hs
    obtain ⟨hbmap, hports⟩ := hset a s.state.cache
    refine ⟨hs.leaf, ?_, ?_, ?_⟩ <;> simp only [hbmap, hports]
    · exact hs.bmap
    · exact hs.ports
    · exact hs.others

/-- `plat_state_poe_init`, from a cleared cache. -/
theorem triple_platStatePoeInit (h : Fits leaves) {names poeNames : List String}
    (hlists : sw.portDev.Lists names poeNames)
    (hnames : ∀ name ∈ poeNames, ∃ pid < maxNumOfPorts, pidToName pid = name) :
    Triple (PoeRead sw leaves []) (platStatePoeInit sw.portDev) (fun _ => PoeRead sw leaves poeNames)
      fun _ => True := by
  have hkeeps : ∀ s, PoeRead sw leaves [] s →
      PoeRead sw leaves []
        { s with state := { s.state with dev := (sw.portDev.poePortList s.state.dev).2 } } :=
    fun s hs => ⟨(sw.poePortList_keeps _).trans hs.leaf, hs.bmap, hs.ports, hs.others⟩
  refine triple_listGet hlists.2 hkeeps (triple_listGet hlists.2 hkeeps ?_)
  refine triple_bind (triple_forM_listed hnames fun done pid hpid => triple_poePortInit sw h done hpid)
    fun _ => ?_
  refine triple_bind (triple_unitGet sw sw.poePowerMgmt_keeps fun _ _ => ⟨rfl, rfl⟩) fun _ => ?_
  exact triple_unitGet sw sw.poeUsageThreshold_keeps fun _ _ => ⟨rfl, rfl⟩

theorem keeps_listGet {I : PlatState → Prop} (q : δ → Option (List String) × δ) {undo : PortEnv δ → PortEnv δ}
    (hundo : ∀ e, (undo e).cache = e.cache) :
    Keeps (fun s : Traced (PortEnv δ) ℕ => I s.state.cache) (listGet q undo) := by
  refine keeps_bind (fun _ hs => hs) fun names => ?_
  cases names with
  | none =>
    refine keeps_bind (fun s hs => ?_) fun _ => keeps_fail _
    change I (undo s.state).cache
    rwa [hundo]
  | some names => exact keeps_pure names

theorem keeps_orElse {σ ε : Type} {I : Traced σ ε → Prop} {x y : Prog σ ε Unit} (hx : Keeps I x)
    (hy : Keeps I y) : Keeps I (Prog.orElse x y) := by
  intro s hs
  unfold Prog.orElse
  rcases hrun : x s with ⟨c | _, t⟩
  · exact hy t (hx.error hs hrun)
  · exact hx.ok hs hrun

/-- The ports are read into one part of the cache, -/
theorem keeps_platStatePortsInit (dv : PortDev δ) {I : PlatState → Prop}
    (hI : ∀ c c' : PlatState, c'.poePortsBmap = c.poePortsBmap → c'.poePorts = c.poePorts → I c → I c') :
    Keeps (fun s : Traced (PortEnv δ) ℕ => I s.state.cache) (platStatePortsInit dv) := by
  refine keeps_bind (keeps_listGet _ fun _ => rfl) fun _ => ?_
  refine keeps_bind (keeps_listGet _ fun _ => rfl) fun names => ?_
  refine keeps_forM names fun name => keeps_bind (fun _ hs => hs) fun pid => ?_
  refine keeps_bind (fun _ hs => hs) fun _ => keeps_bind (fun _ hs => hs) fun _ => ?_
  refine keeps_orElse ?_ fun s hs => hI s.state.cache _ rfl rfl hs
  refine keeps_bind (keeps_valueGet _ fun _ c hc => hI c _ rfl rfl hc) fun _ => ?_
  refine keeps_bind (keeps_valueGet _ fun _ c hc => hI c _ rfl rfl hc) fun _ => ?_
  refine keeps_bind (keeps_valueGet _ fun _ c hc => hI c _ rfl rfl hc) fun _ => ?_
  refine keeps_bind (keeps_valueGet _ fun _ c hc => hI c _ rfl rfl hc) fun _ => ?_
  exact keeps_valueGet _ fun _ c hc => hI c _ rfl rfl hc

/-- and the PoE ports into another. -/
theorem keeps_platStatePoeInit (dv : PortDev δ) {I : PlatState → Prop}
    (hI : ∀ c c' : PlatState, c'.ports = c.ports → c'.featAaa = c.featAaa → I c → I c') :
    Keeps (fun s : Traced (PortEnv δ) ℕ => I s.state.cache) (platStatePoeInit dv) := by
  refine keeps_bind (keeps_listGet _ fun _ => rfl) fun _ => ?_
  refine keeps_bind (keeps_listGet _ fun _ => rfl) fun names => ?_
  refine keeps_bind (keeps_forM names fun name => ?_) fun _ => ?_
  · refine keeps_bind (fun _ hs => hs) fun pid => ?_
    refine keeps_bind (fun s hs => hI s.state.cache _ rfl rfl hs) fun _ => ?_
    refine keeps_bind (fun s hs => hI s.state.cache _ rfl rfl hs) fun _ => ?_
    refine keeps_bind (keeps_valueGet _ fun _ c hc => hI c _ rfl rfl hc) fun _ => ?_
    refine keeps_bind (keeps_valueGet _ fun _ c hc => hI c _ rfl rfl hc) fun _ => ?_
    refine keeps_bind (keeps_valueGet _ fun _ c hc => hI c _ rfl rfl hc) fun _ => ?_
    exact keeps_valueGet _ fun _ c hc => hI c _ rfl rfl hc
  · refine keeps_bind (keeps_valueGet _ fun _ c hc => hI c _ rfl rfl hc) fun _ => ?_
    exact keeps_valueGet _ fun _ c hc => hI c _ rfl rfl hc

end Read

/-! ### Starting anew -/

/-- The part of `plat_state_init` that fills the port caches: all is cleared first, and -1 is returned unless
    both features are found to work. -/
def platStateInitPorts (dv : PortDev δ) : CacheM δ Unit := do
  Prog.modifyState fun e => { e with cache := {}, portKeys := fun _ => "", portsBmap := Bitmap.clear }
  platStatePortsInit dv
  Prog.orElse (platStatePoeInit dv)
    (Prog.modifyState fun e => { e with cache := { e.cache with featPoe := .fail } })
  let e ← Prog.getState
  Prog.when (decide (e.cache.featAaa = .fail) || decide (e.cache.featPoe = .fail)) (Prog.fail (-1))
  Prog.modifyState fun e => { e with cache := { e.cache with featAaa := .ok, featPoe := .ok } }

/-- The requests that a switch grants. -/
def grantedOps (dv : Dev δ) : List Op → δ → List Op
  | [], _ => []
  | op :: ops, d =>
    if (dv.request op d).1 then op :: grantedOps dv ops (dv.request op d).2
    else grantedOps dv ops (dv.request op d).2

/-- The switch after requests, granted or not. -/
def afterOps (dv : Dev δ) (ops : List Op) (d : δ) : δ := ops.foldl (fun d op => (dv.request op d).2) d

/-- What requests leave of a view: the granted ones, one after the other. -/
theorem Switch.view_afterOps {ν : Type} {store : Op → ν → ν} (sw : Switch δ ν fun op v v' => v' = store op v)
    (ops : List Op) (d : δ) : sw.view (afterOps sw.dev ops d) =
      (grantedOps sw.dev ops d).foldl (fun v op => store op v) (sw.view d) := by
  induction ops generalizing d with
  | nil => rfl
  | cons op ops ih =>
    rw [afterOps, List.foldl_cons, grantedOps]
    cases hg : (sw.dev.request op d).1 with
    | true =>
      rw [if_pos rfl, List.foldl_cons, ← sw.granted op d hg]
      exact ih _
    | false =>
      rw [if_neg (by decide), ← sw.refused op d hg]
      exact ih _

namespace GnmiSwitch

variable (sw : GnmiSwitch δ)

theorem fits_request {op : Op} (hop : OpFits op) {d : δ} (h : Fits (sw.leaf d)) :
    Fits (sw.leaf (sw.dev.request op d).2) := by
  rcases hleaf : leafRequest op with _ | ⟨p, v⟩
  · rw [sw.request_rest hleaf]
    exact h.samePorts (sw.request_keeps op d hleaf)
  · rw [sw.request_leaf hleaf]
    cases hg : (sw.set p v d).1 with
    | true =>
      rw [sw.granted p v d hg]
      exact h.request hleaf hop
    | false =>
      rw [sw.refused p v d hg]
      exact h

theorem fits_afterOps {ops : List Op} (hops : ∀ op ∈ ops, OpFits op) {d : δ} (h : Fits (sw.leaf d)) :
    Fits (sw.leaf (afterOps sw.dev ops d)) := by
  induction ops generalizing d with
  | nil => exact h
  | cons op ops ih =>
    exact ih (fun op' hop' => hops op' (List.mem_cons_of_mem _ hop'))
      (sw.fits_request (hops op List.mem_cons_self) h)

end GnmiSwitch

/-- The cache says what the switch has. -/
structure CachesPorts (sw : GnmiSwitch δ) (names poeNames : List String) (s : PlatSt δ) : Prop where
  dot1x : ∀ pid < maxNumOfPorts, s.state.cache.ports pid =
    if pidToName pid ∈ names then sw.dot1x.view s.state.dev (pidToName pid) else {}
  listed : ∀ pid, s.state.cache.poePortsBmap pid = true ↔ pid < maxNumOfPorts ∧ pidToName pid ∈ poeNames
  poePorts : ∀ pid, s.state.cache.poePortsBmap pid = true →
    (s.state.cache.poePorts pid).key = pidToName pid ∧
      (s.state.cache.poePorts pid).settings = sw.poe.view s.state.dev (pidToName pid)
  poe : PoeCoherent sw.poe s

/-- What has been read is what the switch has. -/
theorem cachesPorts_of_read {sw : GnmiSwitch δ} {leaves : Leaves} {names poeNames : List String}
    {s : Traced (PortEnv δ) ℕ} (hports : PortsRead sw leaves names s) (hok : s.state.cache.featAaa ≠ .fail)
    (hpoe : PoeRead sw leaves poeNames s) {c : PlatState} (hdot1x : c.ports = s.state.cache.ports)
    (hbmap : c.poePortsBmap = s.state.cache.poePortsBmap) (hcached : c.poePorts = s.state.cache.poePorts) :
    CachesPorts sw names poeNames ⟨⟨c, s.state.dev⟩, []⟩ := by
  refine ⟨fun pid hpid => ?_, fun pid => ?_, fun pid hbit => ?_,
    PoeKeyed.coherent (fun pid hbit => ?_) fun pid hbit => ?_⟩
  · change c.ports pid = if _ then dot1xAt (sw.leaf s.state.dev) _ else _
    rw [hdot1x, hports.leaf]
    exact hports.ports hok pid hpid
  · change c.poePortsBmap pid = true ↔ _
    rw [hbmap]
    exact hpoe.bmap pid
  · change c.poePortsBmap pid = true at hbit
    change (c.poePorts pid).key = _ ∧ (c.poePorts pid).settings = poeAt (sw.leaf s.state.dev) _
    rw [hbmap] at hbit
    rw [hcached, hpoe.leaf]
    exact hpoe.ports pid hbit
  · change c.poePortsBmap pid = true at hbit
    change nameToPid (c.poePorts pid).key = some pid
    rw [hbmap] at hbit
    have hpid : pid < 65536 := lt_trans ((hpoe.bmap pid).mp hbit).1 (by decide)
    rw [hcached, (hpoe.ports pid hbit).1, nameToPid_pidToName, Nat.mod_eq_of_lt hpid]
  · change c.poePortsBmap pid = true at hbit
    change (c.poePorts pid).settings = poeAt (sw.leaf s.state.dev) (c.poePorts pid).key
    rw [hbmap] at hbit
    rw [hcached, hpoe.leaf, (hpoe.ports pid hbit).1, (hpoe.ports pid hbit).2]

theorem triple_platStateInitPorts (sw : GnmiSwitch δ) {leaves : Leaves} (h : Fits leaves)
    {names poeNames : List String} (hlists : sw.portDev.Lists names poeNames)
    (hnames : ∀ name ∈ names, ∃ pid < maxNumOfPorts, pidToName pid = name)
    (hpoeNames : ∀ name ∈ poeNames, ∃ pid < maxNumOfPorts, pidToName pid = name) :
    Triple (LeavesAt sw leaves) (platStateInitPorts sw.portDev)
      (fun _ t => sw.leaf t.state.dev = leaves ∧
        CachesPorts sw names poeNames ⟨⟨t.state.cache, t.state.dev⟩, []⟩) fun _ => True := by
  -- the cache is cleared
  refine triple_bind (Q := fun _ s => PortsRead sw leaves [] s ∧
    (s.state.cache.poePortsBmap = Bitmap.clear ∧ s.state.cache.poePorts = fun _ => {})) ?_ fun _ => ?_
  · intro s hs
    exact ⟨⟨hs, fun _ pid _ => by simp⟩, rfl, rfl⟩
  -- the ports
  have hcleared := (keeps_platStatePortsInit sw.portDev
    (I := fun c => c.poePortsBmap = Bitmap.clear ∧ c.poePorts = fun _ => {})
    fun c c' hbmap hports hc => ⟨hbmap.trans hc.1, hports.trans hc.2⟩).anyFailure
  refine triple_bind (((triple_platStatePortsInit sw h hlists hnames).and hcleared).imp (fun _ hs => hs)
    (fun _ _ hs => hs) fun _ _ => trivial) fun _ => ?_
  -- the PoE ports
  refine triple_bind (Q := fun _ s => s.state.cache.featPoe = .fail ∨
    (PortsRead sw leaves names s ∧ PoeRead sw leaves poeNames s)) ?_ fun _ => ?_
  · rintro s ⟨hports, hbmap, hcache⟩
    have hpoe : PoeRead sw leaves [] s := by
      refine ⟨hports.leaf, ?_, ?_, ?_⟩ <;> intro pid <;> simp [hbmap, hcache, Bitmap.clear, PoePort.settings]
    have hkeeps := keeps_platStatePoeInit sw.portDev
      (I := fun c => c.ports = s.state.cache.ports ∧ c.featAaa = s.state.cache.featAaa)
      (fun c c' hdot1x haaa hc => ⟨hdot1x.trans hc.1, haaa.trans hc.2⟩)
    unfold Prog.orElse
    rcases hrun : platStatePoeInit sw.portDev s with ⟨_ | _, t⟩
    · exact Or.inl rfl
    · have hread := (triple_platStatePoeInit sw h hlists hpoeNames).ok hpoe hrun
      obtain ⟨hdot1x, haaa⟩ := hkeeps.ok ⟨rfl, rfl⟩ hrun
      refine Or.inr ⟨⟨hread.leaf, fun hok => ?_⟩, hread⟩
      rw [hdot1x]
      rw [haaa] at hok
      exact hports.ports hok
  -- both features work
  refine triple_at fun s hs => ?_
  refine triple_bind (Q := fun e t => e = s.state ∧ t = s) ?_ fun e => ?_
  · rintro _ rfl
    exact ⟨rfl, rfl⟩
  refine triple_at fun t ht => ?_
  obtain ⟨rfl, rfl⟩ := ht
  refine triple_bind
    (Q := fun _ u => u = t ∧ t.state.cache.featAaa ≠ .fail ∧ t.state.cache.featPoe ≠ .fail) ?_ fun _ => ?_
  · refine triple_when (fun _ _ _ => trivial) fun hboth u hu => ?_
    simpa [hu] using hboth
  · rintro u ⟨rfl, hok, hpoeOk⟩
    obtain ⟨hports, hpoe⟩ := hs.resolve_left hpoeOk
    exact ⟨hports.leaf, cachesPorts_of_read hports hok hpoe rfl rfl rfl⟩

/-- However the requests before it have ended, once the client has started anew and returned 0 it has, for
    every port that the switch lists, the settings that the granted requests have left there. -/
theorem restart_reads (sw : GnmiSwitch δ) {names poeNames : List String}
    (hlists : sw.portDev.Lists names poeNames)
    (hnames : ∀ name ∈ names, ∃ pid < maxNumOfPorts, pidToName pid = name)
    (hpoeNames : ∀ name ∈ poeNames, ∃ pid < maxNumOfPorts, pidToName pid = name)
    (d : δ) (h : Fits (sw.leaf d)) (ops : List Op) (hops : ∀ op ∈ ops, OpFits op)
    (s t : Traced (PortEnv δ) ℕ) (hs : s.state.dev = afterOps sw.dev ops d)
    (hrun : platStateInitPorts sw.portDev s = (.ok (), t)) :
    CachesPorts sw names poeNames ⟨⟨t.state.cache, t.state.dev⟩, []⟩ ∧
    sw.dot1x.view t.state.dev =
      (grantedOps sw.dev ops d).foldl (fun v op => dot1xStore op v) (sw.dot1x.view d) ∧
    sw.poe.view t.state.dev = (grantedOps sw.dev ops d).foldl (fun v op => poeStore op v) (sw.poe.view d) := by
  have hfits := sw.fits_afterOps hops h
  rw [← hs] at hfits
  obtain ⟨hleaf, hcaches⟩ := (triple_platStateInitPorts sw hfits hlists hnames hpoeNames).ok rfl hrun
  refine ⟨hcaches, ?_, ?_⟩
  · refine Eq.trans ?_ (sw.dot1x.view_afterOps ops d)
    change dot1xAt (sw.leaf t.state.dev) = dot1xAt (sw.leaf (afterOps sw.dev ops d))
    rw [hleaf, hs]
  · refine Eq.trans ?_ (sw.poe.view_afterOps ops d)
    change poeAt (sw.leaf t.state.dev) = poeAt (sw.leaf (afterOps sw.dev ops d))
    rw [hleaf, hs]

/-- A switch with a list of leaves, which lists these ports. -/
def listSwitch (names poeNames : List String) : GnmiSwitch (List (Path × Json) × List Bool) where
  toServer := listServer
  rest :=
    { request := fun _ d => (true, d)
      vlanList := fun d => (some Bitmap.clear, d)
      vlanMembers := fun d => (some ⟨fun _ => Bitmap.clear, fun _ => Bitmap.clear⟩, d)
      vlanErif := fun _ d => (some [], d)
      portList := fun d => (some names, d)
      dacHosts := fun d => (some [], d)
      radiusHosts := fun d => (some [], d) }
  poePortList d := (some poeNames, d)
  portErif _ d := (some [], d)
  poePowerMgmt d := (.missing, d)
  poeUsageThreshold d := (.missing, d)
  request_keeps _ _ _ _ := ⟨rfl, fun _ => ⟨rfl, rfl⟩⟩
  vlanList_keeps _ := rfl
  vlanMembers_keeps _ := rfl
  vlanErif_keeps _ _ := rfl
  portList_keeps _ := rfl
  dacHosts_keeps _ := rfl
  radiusHosts_keeps _ := rfl
  poePortList_keeps _ := rfl
  poePowerMgmt_keeps _ := rfl
  poeUsageThreshold_keeps _ := rfl

/-- One port with all settings; the last request is going to be refused. -/
def portRequests : List Op :=
  [.dot1xPaeSet "Ethernet0" true, .dot1xCtrlSet "Ethernet0" .auto, .dot1xHostSet "Ethernet0" .singleHost,
   .dot1xGuestVlanSet "Ethernet0" 10, .dot1xAuthFailVlanSet "Ethernet0" 20, .poePortAdminSet "Ethernet0" true,
   .poePortDetectionSet "Ethernet0" .dot3bt, .poePortPowerLimitSet "Ethernet0" true 15000,
   .poePortPrioritySet "Ethernet0" .high, .dot1xCtrlSet "Ethernet0" .forceAuthorized]

def portAnswers : List Bool := [true, true, true, true, true, true, true, true, true, false]

/-- A switch with this port. -/
def onePort : GnmiSwitch (List (Path × Json) × List Bool) := listSwitch ["Ethernet0"] ["Ethernet0"]

/-- The client before and after it starts anew. -/
def stopped : Traced (PortEnv (List (Path × Json) × List Bool)) ℕ :=
  ⟨⟨{}, fun _ => "", Bitmap.clear, 0, afterOps onePort.dev portRequests ([], portAnswers)⟩, []⟩

def restarted : Traced (PortEnv (List (Path × Json) × List Bool)) ℕ :=
  (platStateInitPorts onePort.portDev stopped).2

theorem stopped_returns : platStateInitPorts onePort.portDev stopped = (.ok (), restarted) := by
  have hok : (platStateInitPorts onePort.portDev stopped).1 = .ok () := by decide +kernel
  rw [← Prod.eta (platStateInitPorts onePort.portDev stopped), hok, restarted]

theorem fits_nil : Fits (onePort.leaf ([], portAnswers)) := by
  refine ⟨fun _ _ h => ?_, fun _ _ h => ?_, fun _ h => ?_, fun _ => rfl⟩ <;> cases h

theorem restart_reads_refused :
    CachesPorts onePort ["Ethernet0"] ["Ethernet0"] ⟨⟨restarted.state.cache, restarted.state.dev⟩, []⟩ ∧
    restarted.state.cache.ports 0 = ⟨.auto, .singleHost, 20, 10, true⟩ ∧
    (restarted.state.cache.poePorts 0).settings = ⟨true, .dot3bt, 15000, true, .high⟩ := by
  have hlisted : ∀ name ∈ ["Ethernet0"], ∃ pid < maxNumOfPorts, pidToName pid = name := by
    intro name hname
    rw [List.mem_singleton] at hname
    exact ⟨0, by decide, hname.symm⟩
  refine ⟨?_, by decide +kernel, by decide +kernel⟩
  exact (restart_reads onePort ⟨fun _ => Or.inr rfl, fun _ => Or.inr rfl⟩ hlisted hlisted ([], portAnswers)
    fits_nil portRequests (by simp [portRequests, OpFits]) stopped restarted rfl stopped_returns).1

end Ucentral.Plat
