import Ucentral.Lib.ParserStates
import Ucentral.Proto.CfgSafety

/-! `cfg_switch_port_isolation_parse` with its array of session slots.

    The sessions are counted, the array is allocated, and one slot after the other is filled. A session
    that is refused leaves its slot half filled; the error exit clears the lists of that slot and of all
    before it. The names are copied without a look at their length. -/

namespace Ucentral.Proto.Isolation
open CJson Plat Parse

/-! ### The slots -/

def emptySlot : IsolationSession := ⟨0, [], []⟩

/-- `cfg`, the array it points to and `i`, with the slots that have been read or written. -/
structure Locals where
  sessionsNum : ℕ := 0
  sessions : List IsolationSession := []
  i : ℕ := 0
  touched : List ℕ := []
  freed : Bool := false

def Locals.touch (k : ℕ) (s : Locals) : Locals := { s with touched := k :: s.touched }

/-- Write to a slot. -/
def Locals.write (k : ℕ) (f : IsolationSession → IsolationSession) (s : Locals) : Locals :=
  { s.touch k with sessions := s.sessions.modify k f }

/-- Write to `session_arr[i]`. -/
def writeCurrent (f : IsolationSession → IsolationSession) : Parser Locals Unit :=
  Parser.fill fun s => s.write s.i f

/-- `UCENTRAL_LIST_PUSH_MEMBER` on the list of a link. -/
def pushUplink (name : String) (session : IsolationSession) : IsolationSession :=
  { session with uplink := name :: session.uplink }

def pushDownlink (name : String) (session : IsolationSession) : IsolationSession :=
  { session with downlink := name :: session.downlink }

/-- One turn of the loop over the names. -/
def pushPort (push : String → IsolationSession → IsolationSession) (port : Ptr) : Parser Locals Unit := do
  need (isString port)
  copy (getStringValue port) 32
  writeCurrent (push (strOf port))

/-- `cfg_ethernet_port_isolation_interface_parse`, which takes the names by their index. -/
def cfgEthernetPortIsolationInterfaceParse (iface : Ptr)
    (push : String → IsolationSession → IsolationSession) : Parser Locals Unit := do
  let ifaceList := getItem iface "interface-list"
  need (isArray ifaceList && decide (getArraySize ifaceList ≠ 0))
  forM (List.range (getArraySize ifaceList)) fun k => pushPort push (getArrayItem ifaceList k)

/-- `for (j = i - 1; j >= 0; --j)`: is the id that of an earlier slot? -/
def dupScan (id : ℕ) : ℕ → Parser Locals Unit
  | 0 => pure ()
  | j + 1 => do
    Parser.fill (Locals.touch j)
    fun s => need (decide ((s.sessions.getD j emptySlot).id ≠ id)) s
    dupScan id j

/-- One turn of the loop over the sessions. -/
def sessionTurn (session : Json) : Parser Locals Unit := do
  let id := getItem (some session) "id"
  let sessionArrid := (getNumberValue id).toUInt 64
  let uplink := getItem (some session) "uplink"
  let downlink := getItem (some session) "downlink"
  need (isNumber id)
  fun s => dupScan sessionArrid s.i s
  writeCurrent fun slot => { slot with id := sessionArrid }
  need (isObject uplink)
  need (isObject downlink)
  cfgEthernetPortIsolationInterfaceParse uplink pushUplink
  cfgEthernetPortIsolationInterfaceParse downlink pushDownlink
  Parser.fill fun s => { s with i := s.i + 1 }

/-- `for (j = i; j >= 0; --j)`: both lists of a slot are destroyed. -/
def destroyFrom : ℕ → Locals → Locals
  | 0, s => s.write 0 fun slot => { slot with uplink := [], downlink := [] }
  | j + 1, s => destroyFrom j (s.write (j + 1) fun slot => { slot with uplink := [], downlink := [] })

/-- `err:` -/
def orCleanup (x : Parser Locals Unit) : Parser Locals Unit := fun s =>
  match x s with
  | (.error .fault, t) => (.error .fault, t)
  | (.error e, t) => (.error e, { destroyFrom t.i t with freed := true })
  | r => r

/-- `calloc(cfg->sessions_num, ...)`, unless there is nothing to do. -/
def withSessions (x : Parser Locals Unit) : Parser Locals Unit := fun s =>
  if s.sessionsNum = 0 then (.ok (), s)
  else x { s with sessions := List.replicate s.sessionsNum emptySlot }

/-- `cfg_switch_port_isolation_parse` -/
def cfgSwitchPortIsolationParse (portIsolation : Ptr) : Parser Locals Unit := do
  let sessions := getItem portIsolation "sessions"
  need (isObject portIsolation)
  need (isArray sessions)
  forM (children sessions) fun _ => Parser.fill fun s => { s with sessionsNum := s.sessionsNum + 1 }
  withSessions (orCleanup (forM (children sessions) sessionTurn))

/-! ### What a turn does to the slots -/

/-- The slots before `i` are done, and no slot outside the array has been touched. -/
structure Layout (n : ℕ) (done rest : List IsolationSession) (s : Locals) : Prop where
  num : s.sessionsNum = n
  len : done.length + rest.length = n
  i : s.i = done.length
  sessions : s.sessions = done ++ rest
  touched : ∀ k ∈ s.touched, k < n

/-- Where the loop stops: there is a slot at `i`. -/
structure Stopped (n : ℕ) (s : Locals) : Prop where
  num : s.sessionsNum = n
  i : s.i < n
  touched : ∀ k ∈ s.touched, k < n

theorem Layout.stopped {n : ℕ} {done rest : List IsolationSession} {cur : IsolationSession} {s : Locals}
    (h : Layout n done (cur :: rest) s) : Stopped n s := by
  refine ⟨h.num, ?_, h.touched⟩
  have := h.len
  rw [List.length_cons] at this
  rw [h.i]
  omega

theorem Layout.touch {n : ℕ} {done rest : List IsolationSession} {s : Locals} {k : ℕ}
    (h : Layout n done rest s) (hk : k < n) : Layout n done rest (s.touch k) where
  num := h.num
  len := h.len
  i := h.i
  sessions := h.sessions
  touched := List.forall_mem_cons.mpr ⟨hk, h.touched⟩

theorem modify_middle (f : IsolationSession → IsolationSession) (cur : IsolationSession)
    (rest : List IsolationSession) : ∀ done : List IsolationSession,
    (done ++ cur :: rest).modify done.length f = done ++ f cur :: rest
  | [] => rfl
  | d :: done => by
      rw [List.cons_append, List.length_cons, List.modify_succ_cons, modify_middle f cur rest done]
      rfl

theorem Layout.write {n : ℕ} {done rest : List IsolationSession} {cur : IsolationSession} {s : Locals}
    (h : Layout n done (cur :: rest) s) (f : IsolationSession → IsolationSession) :
    Layout n done (f cur :: rest) (s.write s.i f) where
  num := h.num
  len := h.len
  i := h.i
  sessions := by
    change s.sessions.modify s.i f = _
    rw [h.sessions, h.i]
    exact modify_middle f cur rest done
  touched := List.forall_mem_cons.mpr ⟨h.stopped.i, h.touched⟩

section Turn

variable {n : ℕ} {done rest : List IsolationSession} {cur : IsolationSession}

theorem from_writeCurrent (f : IsolationSession → IsolationSession) :
    FollowsFrom (Layout n done (cur :: rest)) (Layout n done (f cur :: rest)) (Stopped n)
      (writeCurrent f) [] :=
  from_fill fun _ h => h.write f

/-- The scan from a slot down finds the id among the slots before. -/
theorem from_dupScan (id : ℕ) : ∀ k ≤ done.length,
    FollowsFrom (Layout n done (cur :: rest)) (Layout n done (cur :: rest)) (Stopped n)
      (dupScan id k) [.need (!((done.take k).map (·.id)).contains id)]
  | 0, _ => ⟨fun _ _ => rfl, fun _ h _ => h, nofun⟩
  | k + 1, hk => by
      have hlt : k < done.length := hk
      have hread : ∀ s : Locals, Layout n done (cur :: rest) s →
          s.sessions.getD k emptySlot = done[k] := by
        intro s h
        rw [h.sessions, List.getD_eq_getElem?_getD, List.getElem?_append_left hlt,
          List.getElem?_eq_getElem hlt, Option.getD_some]
      have htake : (!((done.take (k + 1)).map (·.id)).contains id) =
          (decide (done[k].id ≠ id) && !((done.take k).map (·.id)).contains id) := by
        rw [List.take_succ_eq_append_getElem hlt, List.map_append, List.contains_append, Bool.not_or,
          Bool.and_comm]
        simp [eq_comm]
      have hchecks : outcome [.need (decide (done[k].id ≠ id)),
          .need (!((done.take k).map (·.id)).contains id)] =
          outcome [.need (!((done.take (k + 1)).map (·.id)).contains id)] := by
        rw [htake]
        cases decide (done[k].id ≠ id) <;> rfl
      refine from_outcome hchecks (from_fill_bind (Q := Layout n done (cur :: rest)) ?_ ?_)
      · exact fun s h => h.touch (by have := h.len; omega)
      · refine from_check_bind (from_congr (y := need (decide (done[k].id ≠ id))) ?_ ?_)
          (from_dupScan id k hlt.le)
        · intro s h
          rw [hread s h]
        · exact from_need _ fun _ h => h.stopped

/-- One name goes to the front of its list. -/
theorem from_pushPort (push : String → IsolationSession → IsolationSession) (port : Ptr) :
    FollowsFrom (Layout n done (cur :: rest)) (Layout n done (push (strOf port) cur :: rest)) (Stopped n)
      (pushPort push port) [.need (isString port), .text (getStringValue port) (some 32)] := by
  refine from_need_bind (fun _ h => h.stopped) fun _ => ?_
  exact from_check_bind (from_pass _ fun _ h => h.stopped) (from_writeCurrent _)

/-- All names of a list, one after the other. -/
def pushAll (push : String → IsolationSession → IsolationSession) (ports : List Json)
    (cur : IsolationSession) : IsolationSession :=
  ports.foldl (fun cur port => push (strOf (some port)) cur) cur

theorem forM_getArrayItem (f : Ptr → Parser Locals Unit) (l : Ptr) :
    forM (List.range (getArraySize l)) (fun k => f (getArrayItem l k)) =
      forM (children l) fun port => f (some port) := by
  have hitems : (List.range (getArraySize l)).map (getArrayItem l) = (children l).map some := by
    refine List.ext_getElem? fun k => ?_
    rw [List.getElem?_map, List.getElem?_map, getArraySize]
    rcases lt_or_ge k (children l).length with hk | hk
    · rw [List.getElem?_range hk, List.getElem?_eq_getElem hk]
      exact congrArg some (List.getElem?_eq_getElem hk)
    · rw [List.getElem?_eq_none (by rw [List.length_range]; exact hk), List.getElem?_eq_none hk]
      rfl
  rw [← List.forM_map (g := getArrayItem l) (f := f), hitems, List.forM_map]

theorem from_link (iface : Ptr) (push : String → IsolationSession → IsolationSession) :
    FollowsFrom (Layout n done (cur :: rest))
      (Layout n done (pushAll push (children (getItem iface "interface-list")) cur :: rest)) (Stopped n)
      (cfgEthernetPortIsolationInterfaceParse iface push) (isolatedPortsChecks iface) := by
  refine from_need_bind (fun _ h => h.stopped) fun _ => ?_
  rw [forM_getArrayItem (pushPort push)]
  refine from_forM (fun pre => Layout n done (pushAll push pre cur :: rest)) _ [] fun pre port _ _ => ?_
  unfold pushAll
  rw [List.foldl_append]
  exact from_pushPort push (some port)

/-- The session that an element describes, with both lists turned round. -/
def slotOf (session : Json) : IsolationSession where
  id := (getNumberValue (getItem (some session) "id")).toUInt 64
  uplink := ((children (getItem (getItem (some session) "uplink") "interface-list")).map
    fun port => strOf (some port)).reverse
  downlink := ((children (getItem (getItem (some session) "downlink") "interface-list")).map
    fun port => strOf (some port)).reverse

theorem pushAll_uplink : ∀ (ports : List Json) (cur : IsolationSession), pushAll pushUplink ports cur =
    { cur with uplink := (ports.map fun port => strOf (some port)).reverse ++ cur.uplink }
  | [], _ => rfl
  | port :: ports, cur => by
      rw [List.map_cons, List.reverse_cons, List.append_assoc]
      exact pushAll_uplink ports _

theorem pushAll_downlink : ∀ (ports : List Json) (cur : IsolationSession), pushAll pushDownlink ports cur =
    { cur with downlink := (ports.map fun port => strOf (some port)).reverse ++ cur.downlink }
  | [], _ => rfl
  | port :: ports, cur => by
      rw [List.map_cons, List.reverse_cons, List.append_assoc]
      exact pushAll_downlink ports _

/-- One session fills its slot. -/
theorem from_sessionTurn (session : Json) :
    FollowsFrom (Layout n done (emptySlot :: rest)) (Layout n (done ++ [slotOf session]) rest) (Stopped n)
      (sessionTurn session) (.need (isNumber (getItem (some session) "id")) ::
        .need (!(done.map (·.id)).contains (slotOf session).id) ::
        .need (isObject (getItem (some session) "uplink")) ::
        .need (isObject (getItem (some session) "downlink")) ::
        isolatedPortsChecks (getItem (some session) "uplink") ++
          isolatedPortsChecks (getItem (some session) "downlink")) := by
  have hscan : FollowsFrom (Layout n done (emptySlot :: rest)) (Layout n done (emptySlot :: rest))
      (Stopped n) (dupScan (slotOf session).id done.length) _ := from_dupScan _ done.length le_rfl
  rw [List.take_length] at hscan
  have hdup : FollowsFrom (Layout n done (emptySlot :: rest)) (Layout n done (emptySlot :: rest))
      (Stopped n) (fun s => dupScan (slotOf session).id s.i s)
      [.need (!(done.map (·.id)).contains (slotOf session).id)] :=
    from_congr (fun s h => congrArg (fun k => dupScan (slotOf session).id k s) h.i) hscan
  refine from_need_bind (fun _ h => h.stopped) fun _ => from_check_bind hdup ?_
  refine from_silent_bind (from_writeCurrent _) (from_need_bind (fun _ h => h.stopped) fun _ => ?_)
  refine from_need_bind (fun _ h => h.stopped) fun _ => ?_
  refine from_bind (from_link _ pushUplink) ?_
  rw [← List.append_nil (isolatedPortsChecks (getItem (some session) "downlink"))]
  refine from_bind (from_link _ pushDownlink) (from_fill fun s h => ?_)
  rw [pushAll_uplink, pushAll_downlink] at h
  refine ⟨h.num, ?_, ?_, ?_, h.touched⟩
  · have := h.len
    rw [List.length_cons] at this
    rw [List.length_append, List.length_singleton]
    omega
  · rw [List.length_append, List.length_singleton]
    exact congrArg (· + 1) h.i
  · refine h.sessions.trans ?_
    rw [List.append_assoc]
    simp [slotOf, emptySlot]

end Turn

/-! ### The whole run -/

/-- The loop fills one slot for each session. -/
theorem from_sessions {n : ℕ} : ∀ (sessions : List Json) (done : List IsolationSession),
    FollowsFrom (Layout n done (List.replicate sessions.length emptySlot))
      (Layout n (done ++ sessions.map slotOf) []) (Stopped n) (forM sessions sessionTurn)
      (sessionChecks (done.map (·.id)) sessions)
  | [], done => from_pure fun s h => by
      rw [List.map_nil, List.append_nil]
      exact h
  | session :: sessions, done => by
      have hrest := from_sessions (n := n) sessions (done ++ [slotOf session])
      rw [List.append_assoc, List.singleton_append, ← List.map_cons, List.map_append] at hrest
      rw [List.forM_cons, List.length_cons, List.replicate_succ]
      have hturn := from_bind (from_sessionTurn session) hrest
      rw [List.cons_append, List.cons_append, List.cons_append, List.cons_append,
        List.append_assoc] at hturn
      exact hturn

/-- Only slots of the array have been touched. -/
structure Within (s : Locals) : Prop where
  touched : ∀ k ∈ s.touched, k < s.sessionsNum

theorem destroyFrom_within : ∀ (j : ℕ) {s : Locals}, Within s → j < s.sessionsNum →
    Within (destroyFrom j s)
  | 0, _, h, hj => ⟨List.forall_mem_cons.mpr ⟨hj, h.touched⟩⟩
  | j + 1, s, h, hj =>
    destroyFrom_within j (s := s.write (j + 1) _) ⟨List.forall_mem_cons.mpr ⟨hj, h.touched⟩⟩
      (Nat.lt_of_succ_lt hj)

theorem Stopped.within {n : ℕ} {s : Locals} (h : Stopped n s) : Within s :=
  ⟨fun k hk => h.num ▸ h.touched k hk⟩

/-- The error exit stays within the array, too. -/
theorem from_orCleanup {n : ℕ} {P Q : Locals → Prop} {x : Parser Locals Unit} {cs : List Check}
    (hx : FollowsFrom P Q (Stopped n) x cs) : FollowsFrom P Q Within (orCleanup x) cs := by
  refine ⟨fun s hs => ?_, fun s hs h => ?_, fun s e hs h => ?_⟩
  · rw [← hx.stop s hs]
    unfold orCleanup
    rcases x s with ⟨(_ | _ | _) | _, t⟩ <;> rfl
  · have hpost := hx.post s hs
    unfold orCleanup at h ⊢
    rcases hrun : x s with ⟨(_ | _ | _) | _, t⟩
    · rw [hrun] at h
      cases h
    · rw [hrun] at h
      cases h
    · rw [hrun] at h
      cases h
    · rw [hrun] at hpost
      exact hpost rfl
  · have hexit := hx.exit s
    unfold orCleanup at h ⊢
    rcases hrun : x s with ⟨(_ | _ | _) | _, t⟩
    · rw [hrun] at hexit
      have hstopped := hexit _ hs rfl
      exact ⟨(destroyFrom_within t.i hstopped.within (hstopped.num ▸ hstopped.i)).touched⟩
    · rw [hrun] at hexit
      have hstopped := hexit _ hs rfl
      exact ⟨(destroyFrom_within t.i hstopped.within (hstopped.num ▸ hstopped.i)).touched⟩
    · rw [hrun] at hexit
      exact (hexit _ hs rfl).within
    · rw [hrun] at h
      cases h

theorem forM_count (sessions : List Json) (s : Locals) :
    forM sessions (fun _ => Parser.fill fun s => { s with sessionsNum := s.sessionsNum + 1 }) s =
      (.ok (), { s with sessionsNum := s.sessionsNum + sessions.length }) := by
  induction sessions generalizing s with
  | nil => rfl
  | cons session sessions ih =>
    rw [List.forM_cons]
    refine (fill_bind _ _ s).trans ((ih _).trans ?_)
    rw [List.length_cons, Nat.add_assoc, Nat.add_comm 1]

/-- The sessions of the object. -/
def sessionsOf (portIsolation : Ptr) : List Json := children (getItem portIsolation "sessions")

/-- `cfg` before the call. -/
def Zeroed (s : Locals) : Prop := s = {}

/-- The array holds one slot for each session. -/
structure Filled (sessions : List Json) (s : Locals) : Prop where
  num : s.sessionsNum = sessions.length
  slots : s.sessions = sessions.map slotOf

theorem from_withSessions (sessions : List Json) :
    FollowsFrom (fun s => s = { sessionsNum := sessions.length }) (Filled sessions) Within
      (withSessions (orCleanup (forM sessions sessionTurn))) (sessionChecks [] sessions) := by
  cases sessions with
  | nil =>
    refine ⟨?_, ?_, ?_⟩
    · rintro s rfl
      rfl
    · rintro s rfl -
      exact ⟨rfl, rfl⟩
    · rintro s e rfl h
      cases h
  | cons session sessions =>
    have hloop := from_orCleanup (from_sessions (n := (session :: sessions).length) (session :: sessions) [])
    have hstart : Layout (session :: sessions).length []
        (List.replicate (session :: sessions).length emptySlot)
        { sessionsNum := (session :: sessions).length,
          sessions := List.replicate (session :: sessions).length emptySlot } :=
      ⟨rfl, by simp, rfl, rfl, nofun⟩
    refine ⟨?_, ?_, ?_⟩
    · rintro s rfl
      exact hloop.stop _ hstart
    · rintro s rfl h
      have hend := hloop.post _ hstart h
      refine ⟨hend.num, hend.sessions.trans ?_⟩
      rw [List.nil_append, List.append_nil]
    · rintro s e rfl h
      exact hloop.exit _ e hstart h

/-- On a zeroed `cfg` the parser stops where the checks do. -/
theorem from_cfgSwitchPortIsolationParse (portIsolation : Ptr) :
    FollowsFrom Zeroed (Filled (sessionsOf portIsolation)) Within
      (cfgSwitchPortIsolationParse portIsolation) (isolationChecks portIsolation) := by
  have hzero : ∀ s, Zeroed s → Within s := by
    rintro s rfl
    exact ⟨nofun⟩
  refine from_need_bind hzero fun _ => from_need_bind hzero fun _ => ?_
  have hcount : FollowsFrom Zeroed
      (fun s => s = { sessionsNum := (sessionsOf portIsolation).length }) Within
      (forM (sessionsOf portIsolation)
        fun _ => Parser.fill fun s => { s with sessionsNum := s.sessionsNum + 1 }) [] := by
    refine from_congr (y := Parser.fill fun s =>
      { s with sessionsNum := s.sessionsNum + (sessionsOf portIsolation).length }) (fun s _ => ?_)
      (from_fill ?_)
    · exact forM_count _ s
    · rintro s rfl
      simp
  exact from_silent_bind hcount (from_withSessions _)

/-! ### Which objects are good -/

/-- The names before the first element that is no string are short. -/
def ShortBefore (ports : List Json) : Prop :=
  ∀ (names : List String) (name : String) (rest : List Json),
    ports = names.map .str ++ .str name :: rest → name.utf8ByteSize < 32

theorem shortBefore_cons_str (name : String) (ports : List Json) :
    ShortBefore (.str name :: ports) ↔ name.utf8ByteSize < 32 ∧ ShortBefore ports := by
  constructor
  · intro h
    refine ⟨h [] name ports rfl, fun names name' rest heq => ?_⟩
    refine h (name :: names) name' rest ?_
    rw [heq]
    rfl
  · rintro ⟨hname, h⟩ names name' rest heq
    cases names with
    | nil =>
      cases heq
      exact hname
    | cons n names =>
      rw [List.map_cons, List.cons_append, List.cons.injEq] at heq
      exact h names name' rest heq.2

theorem shortBefore_cons {port : Json} (h : isString (some port) = false) (ports : List Json) :
    ShortBefore (port :: ports) := by
  intro names name rest heq
  cases names with
  | nil =>
    cases heq
    cases h
  | cons n names =>
    cases heq
    cases h

theorem strings_cons_str (name : String) (ports : List Json) :
    (∃ names : List String, .str name :: ports = names.map Json.str) ↔
      ∃ names : List String, ports = names.map .str := by
  constructor
  · rintro ⟨names, heq⟩
    cases names with
    | nil => cases heq
    | cons n names =>
      rw [List.map_cons, List.cons.injEq] at heq
      exact ⟨names, heq.2⟩
  · rintro ⟨names, rfl⟩
    exact ⟨name :: names, rfl⟩

/-- The names are copied without a fault if those that are reached are short, and all are copied if all
    elements are strings. -/
theorem ports_outcome : ∀ ports : List Json,
    (outcome (ports.flatMap portNameChecks) ≠ some .fault ↔ ShortBefore ports) ∧
    (ShortBefore ports → (outcome (ports.flatMap portNameChecks) = none ↔
      ∃ names : List String, ports = names.map .str))
  | [] => by
      refine ⟨iff_of_true nofun fun names name rest h => ?_, fun _ => iff_of_true rfl ⟨[], rfl⟩⟩
      exact absurd h (by cases names <;> exact nofun)
  | port :: ports => by
      obtain ⟨hfault, hnone⟩ := ports_outcome ports
      cases hstring : isString (some port) with
      | false =>
        have hstop : outcome ((port :: ports).flatMap portNameChecks) = some .reject := by
          rw [List.flatMap_cons]
          unfold portNameChecks
          rw [hstring]
          rfl
        rw [hstop]
        refine ⟨iff_of_true nofun (shortBefore_cons hstring ports), fun _ => iff_of_false nofun ?_⟩
        rintro ⟨names, heq⟩
        cases names with
        | nil => cases heq
        | cons n names =>
          cases heq
          cases hstring
      | true =>
        match port, hstring with
        | .str name, _ =>
          rw [shortBefore_cons_str, strings_cons_str]
          by_cases hname : name.utf8ByteSize < 32
          · have hgo : outcome ((Json.str name :: ports).flatMap portNameChecks) =
                outcome (ports.flatMap portNameChecks) := by
              simp [portNameChecks, isString, getStringValue, outcome, Check.holds, fits, hname]
            rw [hgo]
            exact ⟨hfault.trans ⟨fun h => ⟨hname, h⟩, And.right⟩, fun h => hnone h.2⟩
          · have hstop : outcome ((Json.str name :: ports).flatMap portNameChecks) = some .fault := by
              simp [portNameChecks, isString, getStringValue, outcome, Check.holds, fits, hname,
                Check.stop]
            rw [hstop]
            exact ⟨iff_of_false (fun h => h rfl) fun h => hname h.1, fun h => absurd h.1 hname⟩

/-- The interface list is a non-empty array of strings. -/
def GoodLink (link : Ptr) : Prop :=
  ∃ names : List String, names ≠ [] ∧ getItem link "interface-list" = some (.arr (names.map .str))

/-- The elements of the interface list, if it is an array. -/
def portsOf (link : Ptr) : List Json :=
  match getItem link "interface-list" with
  | some (.arr ports) => ports
  | _ => []

theorem not_goodLink {link : Ptr} (h : ∀ ports, getItem link "interface-list" ≠ some (.arr ports)) :
    ¬ GoodLink link := fun ⟨_, _, heq⟩ => h _ heq

theorem shortBefore_nil : ShortBefore [] := ((ports_outcome []).1).mp nofun

theorem GoodLink.isObject {link : Ptr} (h : GoodLink link) : isObject link = true := by
  obtain ⟨names, -, heq⟩ := h
  match link, heq with
  | some (.obj _), _ => rfl

theorem link_outcome (link : Ptr) :
    (outcome (isolatedPortsChecks link) ≠ some .fault ↔ ShortBefore (portsOf link)) ∧
    (ShortBefore (portsOf link) → (outcome (isolatedPortsChecks link) = none ↔ GoodLink link)) := by
  unfold isolatedPortsChecks portsOf
  cases hlist : getItem link "interface-list" with
  | none =>
    exact ⟨iff_of_true nofun shortBefore_nil,
      fun _ => iff_of_false nofun (not_goodLink fun ports h => by rw [hlist] at h; cases h)⟩
  | some j =>
    cases j with
    | arr ports =>
      cases ports with
      | nil =>
        refine ⟨iff_of_true nofun shortBefore_nil, fun _ => iff_of_false nofun ?_⟩
        rintro ⟨names, hne, heq⟩
        rw [hlist, Option.some.injEq, Json.arr.injEq] at heq
        exact hne (List.map_eq_nil_iff.mp heq.symm)
      | cons port ports =>
        obtain ⟨hfault, hnone⟩ := ports_outcome (port :: ports)
        refine ⟨hfault, fun h => (hnone h).trans ⟨?_, ?_⟩⟩
        · rintro ⟨names, heq⟩
          refine ⟨names, ?_, by rw [hlist, heq]⟩
          rintro rfl
          cases heq
        · rintro ⟨names, -, heq⟩
          rw [hlist, Option.some.injEq, Json.arr.injEq] at heq
          exact ⟨names, heq⟩
    | _ =>
      exact ⟨iff_of_true nofun shortBefore_nil,
        fun _ => iff_of_false nofun (not_goodLink fun ports h => by rw [hlist] at h; cases h)⟩

def uplinkOf (session : Json) : Ptr := getItem (some session) "uplink"

def downlinkOf (session : Json) : Ptr := getItem (some session) "downlink"

/-- A session that is good but for its id, which may be that of another. -/
structure GoodSession (session : Json) : Prop where
  id : isNumber (getItem (some session) "id") = true
  uplink : GoodLink (uplinkOf session)
  downlink : GoodLink (downlinkOf session)

/-- All sessions are good, and their ids are different from each other and from those before. -/
def AllGood (seen : List ℕ) (sessions : List Json) : Prop :=
  (∀ session ∈ sessions, GoodSession session ∧ (slotOf session).id ∉ seen) ∧
    (sessions.map fun session => (slotOf session).id).Nodup

theorem allGood_cons (seen : List ℕ) (session : Json) (sessions : List Json) :
    AllGood seen (session :: sessions) ↔ GoodSession session ∧ (slotOf session).id ∉ seen ∧
      AllGood (seen ++ [(slotOf session).id]) sessions := by
  unfold AllGood
  simp only [List.forall_mem_cons, List.map_cons, List.nodup_cons, List.mem_map, not_exists, not_and,
    List.mem_append, List.mem_singleton, not_or]
  constructor
  · rintro ⟨⟨⟨hgood, hnew⟩, hall⟩, hne, hnodup⟩
    exact ⟨hgood, hnew, fun t ht => ⟨(hall t ht).1, (hall t ht).2, hne t ht⟩, hnodup⟩
  · rintro ⟨hgood, hnew, hall, hnodup⟩
    exact ⟨⟨⟨hgood, hnew⟩, fun t ht => ⟨(hall t ht).1, (hall t ht).2.1⟩⟩,
      fun t ht => (hall t ht).2.2, hnodup⟩

/-- Every name that is copied before the first defect is short. -/
def NamesShort (seen : List ℕ) : List Json → Prop
  | [] => True
  | session :: sessions =>
    isNumber (getItem (some session) "id") = true → (slotOf session).id ∉ seen →
    isObject (uplinkOf session) = true → isObject (downlinkOf session) = true →
      ShortBefore (portsOf (uplinkOf session)) ∧ (GoodLink (uplinkOf session) →
        ShortBefore (portsOf (downlinkOf session)) ∧ (GoodLink (downlinkOf session) →
          NamesShort (seen ++ [(slotOf session).id]) sessions))

/-- Both links and what comes after them. -/
theorem links_outcome (session : Json) {rest : List Check} {short good : Prop}
    (hfault : outcome rest ≠ some .fault ↔ short) (hnone : short → (outcome rest = none ↔ good)) :
    let checks := isolatedPortsChecks (uplinkOf session) ++
      (isolatedPortsChecks (downlinkOf session) ++ rest)
    let shorts := ShortBefore (portsOf (uplinkOf session)) ∧ (GoodLink (uplinkOf session) →
      ShortBefore (portsOf (downlinkOf session)) ∧ (GoodLink (downlinkOf session) → short))
    (outcome checks ≠ some .fault ↔ shorts) ∧ (shorts → (outcome checks = none ↔
      GoodLink (uplinkOf session) ∧ GoodLink (downlinkOf session) ∧ good)) := by
  have happend : ∀ (link : Ptr) {cs : List Check} {s g : Prop},
      (outcome cs ≠ some .fault ↔ s) → (s → (outcome cs = none ↔ g)) →
      (outcome (isolatedPortsChecks link ++ cs) ≠ some .fault ↔
        ShortBefore (portsOf link) ∧ (GoodLink link → s)) ∧
      (ShortBefore (portsOf link) ∧ (GoodLink link → s) →
        (outcome (isolatedPortsChecks link ++ cs) = none ↔ GoodLink link ∧ g)) := by
    intro link cs s g hf hn
    obtain ⟨hlf, hln⟩ := link_outcome link
    rw [outcome_append]
    by_cases hshort : ShortBefore (portsOf link)
    · by_cases hgood : GoodLink link
      · rw [if_pos ((hln hshort).mpr hgood)]
        exact ⟨by simp [hf, hshort, hgood], fun h => by rw [hn (h.2 hgood)]; simp [hgood]⟩
      · have hstop : outcome (isolatedPortsChecks link) ≠ none := fun h => hgood ((hln hshort).mp h)
        rw [if_neg hstop]
        exact ⟨by simp [hlf, hshort, hgood], fun _ => iff_of_false hstop fun h => hgood h.1⟩
    · have hstop : outcome (isolatedPortsChecks link) = some .fault :=
        not_not.mp fun h => hshort (hlf.mp h)
      rw [hstop, if_neg nofun]
      exact ⟨iff_of_false (fun h => h rfl) fun h => hshort h.1, fun h => absurd h.1 hshort⟩
  have hdown := happend (downlinkOf session) hfault hnone
  exact happend (uplinkOf session) hdown.1 hdown.2

/-- One test before. -/
theorem need_outcome (b : Bool) {cs : List Check} {short good : Prop}
    (hfault : outcome cs ≠ some .fault ↔ short) (hnone : short → (outcome cs = none ↔ good)) :
    (outcome (.need b :: cs) ≠ some .fault ↔ (b = true → short)) ∧
    ((b = true → short) → (outcome (.need b :: cs) = none ↔ b = true ∧ good)) := by
  cases b with
  | false => exact ⟨iff_of_true nofun nofun, fun _ => iff_of_false nofun nofun⟩
  | true => exact ⟨hfault.trans ⟨fun h _ => h, fun h => h rfl⟩, fun h => (hnone (h rfl)).trans (by simp)⟩

theorem sessions_outcome : ∀ (sessions : List Json) (seen : List ℕ),
    (outcome (sessionChecks seen sessions) ≠ some .fault ↔ NamesShort seen sessions) ∧
    (NamesShort seen sessions → (outcome (sessionChecks seen sessions) = none ↔ AllGood seen sessions))
  | [], seen => ⟨iff_of_true nofun trivial, fun _ => iff_of_true rfl ⟨nofun, List.nodup_nil⟩⟩
  | session :: sessions, seen => by
      obtain ⟨hfault, hnone⟩ := sessions_outcome sessions (seen ++ [(slotOf session).id])
      have hlinks := links_outcome session hfault hnone
      have hdown := need_outcome (isObject (downlinkOf session)) hlinks.1 hlinks.2
      have hup := need_outcome (isObject (uplinkOf session)) hdown.1 hdown.2
      have hnew := need_outcome (!seen.contains (slotOf session).id) hup.1 hup.2
      have hid := need_outcome (isNumber (getItem (some session) "id")) hnew.1 hnew.2
      have hmem : (!seen.contains (slotOf session).id) = true ↔ (slotOf session).id ∉ seen := by simp
      rw [allGood_cons]
      rw [hmem] at hid
      refine ⟨hid.1, fun h => (hid.2 h).trans ⟨?_, ?_⟩⟩
      · rintro ⟨hn, hs, -, -, hu, hd, hrest⟩
        exact ⟨⟨hn, hu, hd⟩, hs, hrest⟩
      · rintro ⟨⟨hn, hu, hd⟩, hs, hrest⟩
        exact ⟨hn, hs, hu.isObject, hd.isObject, hu, hd, hrest⟩

/-! ### What is asked of the parser -/

/-- The ids are non-negative integers that a double holds exactly. -/
def Ids (sessions : List Json) : Prop :=
  ∀ session ∈ sessions, ∀ d, getItem (some session) "id" = some (.num d) →
    ∃ n : ℕ, d = .fin n ∧ n < 2 ^ 53

/-- Two sessions have the same id. -/
def Repeated (sessions : List Json) : Prop :=
  ∃ (i j : ℕ) (session session' : Json) (d : Double), i < j ∧ sessions[i]? = some session ∧
    sessions[j]? = some session' ∧ getItem (some session) "id" = some (.num d) ∧
    getItem (some session') "id" = some (.num d)

/-- What an object is to be refused for. -/
def Defective (portIsolation : Ptr) : Prop :=
  (∀ sessions, getItem portIsolation "sessions" ≠ some (.arr sessions)) ∨
  (∃ session ∈ sessionsOf portIsolation, (∀ d, getItem (some session) "id" ≠ some (.num d)) ∨
    ¬ GoodLink (uplinkOf session) ∨ ¬ GoodLink (downlinkOf session)) ∨
  Repeated (sessionsOf portIsolation)

/-- The names of a link, in reverse order. -/
def LinkIs (link : Ptr) (names : List String) : Prop :=
  names ≠ [] ∧ getItem link "interface-list" = some (.arr (names.reverse.map .str))

/-- The slot holds the session. -/
structure SessionIs (session : Json) (slot : IsolationSession) : Prop where
  id : getItem (some session) "id" = some (.num (.fin (slot.id : ℚ)))
  uplink : LinkIs (uplinkOf session) slot.uplink
  downlink : LinkIs (downlinkOf session) slot.downlink

/-- A run that accepts has all sessions, one that refuses has found a defect and stayed within the
    array, and none faults. -/
def Meets (portIsolation : Ptr) (run : Except Stop Unit × Locals) : Prop :=
  match run.1 with
  | .ok _ => ¬ Defective portIsolation ∧
      run.2.sessionsNum = (sessionsOf portIsolation).length ∧
      List.Forall₂ SessionIs (sessionsOf portIsolation) run.2.sessions ∧
      (run.2.sessions.map (·.id)).Nodup
  | .error .reject => Defective portIsolation ∧ ∀ k ∈ run.2.touched, k < run.2.sessionsNum
  | .error .format | .error .fault => False

theorem isNumber_iff {j : Ptr} : isNumber j = true ↔ ∃ d, j = some (.num d) := by
  constructor
  · intro h
    match j, h with
    | some (.num d), _ => exact ⟨d, rfl⟩
  · rintro ⟨d, rfl⟩
    rfl

/-- In 64 bits the ids are what they were. -/
theorem slotOf_id {sessions : List Json} (hids : Ids sessions) {session : Json} (hmem : session ∈ sessions)
    {d : Double} (hd : getItem (some session) "id" = some (.num d)) :
    d = .fin ((slotOf session).id : ℚ) := by
  obtain ⟨n, rfl, hn⟩ := hids session hmem d hd
  unfold slotOf
  rw [hd]
  dsimp only [getNumberValue]
  rw [Double.toUInt_natCast, Nat.mod_eq_of_lt (by omega)]

theorem repeated_iff {sessions : List Json} (hids : Ids sessions)
    (hnum : ∀ session ∈ sessions, isNumber (getItem (some session) "id") = true) :
    Repeated sessions ↔ ¬ (sessions.map fun session => (slotOf session).id).Nodup := by
  rw [List.nodup_iff_getElem?_ne_getElem?]
  constructor
  · rintro ⟨i, j, session, session', d, hij, hi, hj, hd, hd'⟩ hne
    have hlt := (List.getElem?_eq_some_iff.mp hj).1
    refine hne i j hij (by rwa [List.length_map]) ?_
    have heq := (slotOf_id hids (List.mem_of_getElem? hi) hd).symm.trans
      (slotOf_id hids (List.mem_of_getElem? hj) hd')
    have hid : (slotOf session).id = (slotOf session').id := by
      have hrat := Double.fin.inj heq
      exact_mod_cast hrat
    rw [List.getElem?_map, List.getElem?_map, hi, hj, Option.map_some, Option.map_some, hid]
  · intro h
    simp only [not_forall, not_not] at h
    obtain ⟨i, j, hij, hlt, heq⟩ := h
    rw [List.length_map] at hlt
    have hi := List.getElem?_eq_getElem (hij.trans hlt)
    have hj := List.getElem?_eq_getElem hlt
    rw [List.getElem?_map, List.getElem?_map, hi, hj, Option.map_some, Option.map_some,
      Option.some.injEq] at heq
    obtain ⟨d, hd⟩ := isNumber_iff.mp (hnum _ (List.mem_of_getElem? hi))
    obtain ⟨d', hd'⟩ := isNumber_iff.mp (hnum _ (List.mem_of_getElem? hj))
    have hsame : d = d' := by
      rw [slotOf_id hids (List.mem_of_getElem? hi) hd, slotOf_id hids (List.mem_of_getElem? hj) hd', heq]
    exact ⟨i, j, _, _, d, hij, hi, hj, hd, hsame ▸ hd'⟩

theorem allGood_iff {portIsolation : Ptr} (hids : Ids (sessionsOf portIsolation))
    (harray : isArray (getItem portIsolation "sessions") = true) :
    AllGood [] (sessionsOf portIsolation) ↔ ¬ Defective portIsolation := by
  have hsome : ¬ ∀ sessions, getItem portIsolation "sessions" ≠ some (.arr sessions) := by
    match getItem portIsolation "sessions", harray with
    | some (.arr sessions), _ => exact fun h => h sessions rfl
  have hgood : ∀ session, GoodSession session ↔ ¬ ((∀ d, getItem (some session) "id" ≠ some (.num d)) ∨
      ¬ GoodLink (uplinkOf session) ∨ ¬ GoodLink (downlinkOf session)) := by
    intro session
    rw [not_or, not_or, not_not, not_not, ← not_exists_not, not_not]
    simp only [ne_eq, not_not, ← isNumber_iff]
    exact ⟨fun h => ⟨h.id, h.uplink, h.downlink⟩, fun h => ⟨h.1, h.2.1, h.2.2⟩⟩
  unfold AllGood Defective
  rw [not_or, not_or]
  simp only [not_exists, not_and, ← hgood, List.not_mem_nil, not_false_eq_true, and_true]
  constructor
  · rintro ⟨hall, hnodup⟩
    refine ⟨hsome, hall, fun h => ?_⟩
    exact (repeated_iff hids fun session hmem => (hall session hmem).id).mp h hnodup
  · rintro ⟨-, hall, hno⟩
    refine ⟨hall, not_not.mp fun h => hno ?_⟩
    exact (repeated_iff hids fun session hmem => (hall session hmem).id).mpr h

/-- The names of a good link are the strings of its list. -/
theorem linkIs_ports {link : Ptr} (h : GoodLink link) :
    LinkIs link
      ((children (getItem link "interface-list")).map fun port => strOf (some port)).reverse := by
  obtain ⟨names, hne, hlist⟩ := h
  have hnames : ((children (getItem link "interface-list")).map fun port => strOf (some port)) =
      names := by
    rw [hlist]
    change (names.map Json.str).map _ = names
    rw [List.map_map]
    exact List.map_id names
  rw [hnames]
  refine ⟨fun h => hne (List.reverse_eq_nil_iff.mp h), ?_⟩
  rw [List.reverse_reverse, hlist]

theorem sessionIs_slotOf {sessions : List Json} (hids : Ids sessions) {session : Json}
    (hmem : session ∈ sessions) (h : GoodSession session) : SessionIs session (slotOf session) := by
  obtain ⟨d, hd⟩ := isNumber_iff.mp h.id
  refine ⟨?_, linkIs_ports h.uplink, linkIs_ports h.downlink⟩
  rw [hd, slotOf_id hids hmem hd]

/-- The filled array is what is asked for. -/
theorem filled_meets {sessions : List Json} (hids : Ids sessions) (h : AllGood [] sessions) {s : Locals}
    (hfilled : Filled sessions s) :
    s.sessionsNum = sessions.length ∧ List.Forall₂ SessionIs sessions s.sessions ∧
      (s.sessions.map (·.id)).Nodup := by
  obtain ⟨hall, hnodup⟩ := h
  refine ⟨hfilled.num, ?_, ?_⟩
  · rw [hfilled.slots, List.forall₂_map_right_iff, List.forall₂_same]
    exact fun session hmem => sessionIs_slotOf hids hmem (hall session hmem).1
  · rw [hfilled.slots, List.map_map]
    exact hnodup

/-- What is no array of sessions is refused before any of them. -/
theorem isolationChecks_of_not_array {portIsolation : Ptr}
    (harray : isArray (getItem portIsolation "sessions") = false) :
    outcome (isolationChecks portIsolation) = some .reject := by
  unfold isolationChecks
  dsimp only
  rw [harray]
  cases isObject portIsolation <;> rfl

/-- Otherwise the checks are those of the sessions. -/
theorem isolationChecks_of_array {portIsolation : Ptr}
    (harray : isArray (getItem portIsolation "sessions") = true) :
    outcome (isolationChecks portIsolation) =
      outcome (sessionChecks [] (sessionsOf portIsolation)) := by
  have hobject : isObject portIsolation = true := by
    match portIsolation, harray with
    | some (.obj _), _ => rfl
  unfold isolationChecks
  dsimp only
  rw [harray, hobject]
  rfl

/-- What is tested there is not shown in a message. -/
theorem sessionChecks_ne_format (sessions : List Json) (seen : List ℕ) :
    outcome (sessionChecks seen sessions) ≠ some .format := by
  rw [outcome_ne_format_iff]
  exact fun vs hreached => absurd hreached.mem (not_shown_mem_sessionChecks sessions seen)

/-- For every object with such ids. -/
theorem isolation_meets_iff {portIsolation : Ptr} (hids : Ids (sessionsOf portIsolation)) :
    Meets portIsolation (cfgSwitchPortIsolationParse portIsolation {}) ↔
      (isArray (getItem portIsolation "sessions") = true → NamesShort [] (sessionsOf portIsolation)) := by
  have hrun := from_cfgSwitchPortIsolationParse portIsolation
  have hstop := hrun.stop {} rfl
  have hpost := hrun.post {} rfl
  have hexit := hrun.exit {}
  unfold Meets
  cases harray : isArray (getItem portIsolation "sessions") with
  | false =>
    have hdefect : Defective portIsolation := by
      refine Or.inl fun sessions h => ?_
      rw [h] at harray
      cases harray
    rw [isolationChecks_of_not_array harray] at hstop
    refine iff_of_true ?_ nofun
    rcases hr : (cfgSwitchPortIsolationParse portIsolation {}).1 with (_ | _ | _) | _
    · exact ⟨hdefect, (hexit _ rfl hr).touched⟩
    · rw [hr] at hstop
      cases hstop
    · rw [hr] at hstop
      cases hstop
    · rw [hr] at hstop
      cases hstop
  | true =>
    obtain ⟨hfault, hnone⟩ := sessions_outcome (sessionsOf portIsolation) []
    have hformat := sessionChecks_ne_format (sessionsOf portIsolation) []
    rw [← isolationChecks_of_array harray, ← hstop] at hfault hnone hformat
    simp only [forall_const]
    rcases hr : (cfgSwitchPortIsolationParse portIsolation {}).1 with (_ | _ | _) | _
    · rw [hr] at hfault hnone
      have hshort := hfault.mp nofun
      refine iff_of_true ⟨?_, (hexit _ rfl hr).touched⟩ hshort
      have hbad : ¬ AllGood [] (sessionsOf portIsolation) := fun h => nomatch (hnone hshort).mpr h
      exact not_not.mp fun h => hbad ((allGood_iff hids harray).mpr h)
    · rw [hr] at hformat
      exact absurd rfl hformat
    · rw [hr] at hfault
      exact iff_of_false id fun h => hfault.mpr h rfl
    · rw [hr] at hfault hnone
      have hshort := hfault.mp nofun
      have hgood := (hnone hshort).mp rfl
      exact iff_of_true ⟨(allGood_iff hids harray).mp hgood, filled_meets hids hgood (hpost hr)⟩ hshort

def isolationSession (id : ℕ) (up down : List Json) : Json :=
  .obj [("id", .num (.fin id)), ("uplink", .obj [("interface-list", .arr up)]),
    ("downlink", .obj [("interface-list", .arr down)])]

/-- Two sessions with short names. -/
def twoSessions : Ptr := some (.obj [("sessions", .arr
  [isolationSession 1 [.str "Ethernet0"] [.str "Ethernet1", .str "Ethernet2"],
    isolationSession 7 [.str "Ethernet3"] [.str "Ethernet4"]])])

theorem ids_isolationSession {portIsolation : Ptr} {l : List (ℕ × List Json × List Json)}
    (h : sessionsOf portIsolation = l.map fun x => isolationSession x.1 x.2.1 x.2.2)
    (hlt : ∀ x ∈ l, x.1 < 2 ^ 53) : Ids (sessionsOf portIsolation) := by
  rw [h]
  intro session hmem d hd
  obtain ⟨x, hx, rfl⟩ := List.mem_map.mp hmem
  have hid : getItem (some (isolationSession x.1 x.2.1 x.2.2)) "id" = some (.num (.fin (x.1 : ℚ))) := by
    simp [isolationSession, getItem]
  rw [hid] at hd
  cases hd
  exact ⟨x.1, rfl, hlt x hx⟩

theorem twoSessions_meets : Meets twoSessions (cfgSwitchPortIsolationParse twoSessions {}) := by
  have hlist : sessionsOf twoSessions =
      [(1, [Json.str "Ethernet0"], [Json.str "Ethernet1", Json.str "Ethernet2"]),
      (7, [Json.str "Ethernet3"], [Json.str "Ethernet4"])].map
        fun x => isolationSession x.1 x.2.1 x.2.2 := by
    simp [sessionsOf, twoSessions, getItem, children]
  refine (isolation_meets_iff (ids_isolationSession hlist (by decide))).mpr fun _ => ?_
  exact (sessions_outcome _ []).1.mp (by decide +kernel)

/-- A name of 32 bytes runs over its field. -/
def longName : Ptr := some (.obj [("sessions", .arr
  [isolationSession 1 [.str "Ethernet00000000000000000000000a"] [.str "Ethernet1"]])])

theorem longName_faults : ¬ Defective longName ∧
    (cfgSwitchPortIsolationParse longName {}).1 = .error .fault ∧
    ¬ Meets longName (cfgSwitchPortIsolationParse longName {}) := by
  have hfault : (cfgSwitchPortIsolationParse longName {}).1 = .error .fault := by decide +kernel
  have hlist : sessionsOf longName = [(1, [Json.str "Ethernet00000000000000000000000a"],
      [Json.str "Ethernet1"])].map fun x => isolationSession x.1 x.2.1 x.2.2 := by
    simp [sessionsOf, longName, getItem, children]
  refine ⟨(allGood_iff (ids_isolationSession hlist (by decide)) (by decide +kernel)).mp ?_, hfault, ?_⟩
  · rw [hlist]
    refine ⟨fun session hmem => ⟨?_, List.not_mem_nil⟩, List.nodup_singleton _⟩
    obtain rfl := List.mem_singleton.mp hmem
    refine ⟨by decide +kernel, ⟨["Ethernet00000000000000000000000a"], List.cons_ne_nil _ _, ?_⟩,
      ⟨["Ethernet1"], List.cons_ne_nil _ _, ?_⟩⟩
    · simp [uplinkOf, isolationSession, getItem]
    · simp [downlinkOf, isolationSession, getItem]
  · unfold Meets
    rw [hfault]
    exact id

/-! ### The parser of the configuration -/

theorem turns_names (ports : List Json) :
    Turns (fun names : List String => names) ((ports.map fun port => strOf (some port)).reverse ++ ·)
      (forM ports fun port => do
        need (isString (some port))
        copy (getStringValue (some port)) 32
        Parser.fill fun names => strOf (some port) :: names) := by
  induction ports with
  | nil => exact (leaves_pure ()).turns
  | cons port ports ih =>
    rw [List.forM_cons]
    refine turns_bind (strOf (some port) :: ·) _ ?_ (fun _ => ih) (fun names => by simp)
    exact turns_leaves_bind (leaves_pass _) fun _ => turns_leaves_bind (leaves_pass _) fun _ =>
      turns_fill fun _ => rfl

theorem scratch_names {iface : Ptr}
    (h : (Proto.cfgEthernetPortIsolationInterfaceParse iface []).1 = .ok ()) :
    (Proto.cfgEthernetPortIsolationInterfaceParse iface []).2 =
      ((children (getItem iface "interface-list")).map fun port => strOf (some port)).reverse := by
  have hturns : Turns (fun names : List String => names)
      (((children (getItem iface "interface-list")).map fun port => strOf (some port)).reverse ++ ·)
      (Proto.cfgEthernetPortIsolationInterfaceParse iface) :=
    turns_leaves_bind (leaves_pass _) fun _ => turns_names _
  exact (hturns [] () h).trans (List.append_nil _)

/-- The slots of the array are the sessions of the configuration. -/
theorem isolationGo_table : ∀ (sessions : List Json) (seen : List ℕ) (c : PlatCfg),
    (isolationGo seen sessions c).1 = .ok () →
    (isolationGo seen sessions c).2.portIsolation = c.portIsolation ++ sessions.map slotOf
  | [], _, _, _ => (List.append_nil _).symm
  | session :: sessions, seen, c, h => by
      rw [isolationGo] at h ⊢
      obtain ⟨-, heq⟩ := need_bind_ok h
      rw [heq] at h ⊢
      obtain ⟨-, heq⟩ := need_bind_ok h
      rw [heq] at h ⊢
      obtain ⟨-, heq⟩ := need_bind_ok h
      rw [heq] at h ⊢
      obtain ⟨-, heq⟩ := need_bind_ok h
      rw [heq] at h ⊢
      obtain ⟨hup, heq⟩ := scratch_bind_ok h
      rw [heq] at h ⊢
      obtain ⟨hdown, heq⟩ := scratch_bind_ok h
      rw [heq] at h ⊢
      rw [fill_bind] at h ⊢
      refine (isolationGo_table sessions _ _ h).trans ?_
      rw [scratch_names hup, scratch_names hdown, List.append_assoc]
      rfl

theorem cfgSwitchPortIsolationParse_same (portIsolation : Ptr) {c : PlatCfg} (hc : c.portIsolation = []) :
    stopOf (Proto.cfgSwitchPortIsolationParse portIsolation c).1 =
      stopOf (cfgSwitchPortIsolationParse portIsolation {}).1 ∧
    ((Proto.cfgSwitchPortIsolationParse portIsolation c).1 = .ok () →
      (Proto.cfgSwitchPortIsolationParse portIsolation c).2.portIsolation =
        (cfgSwitchPortIsolationParse portIsolation {}).2.sessions) := by
  have hrun := from_cfgSwitchPortIsolationParse portIsolation
  have hsame : stopOf (Proto.cfgSwitchPortIsolationParse portIsolation c).1 =
      stopOf (cfgSwitchPortIsolationParse portIsolation {}).1 := by
    rw [hrun.stop {} rfl]
    exact follows_need_bind (fun _ => follows_need_bind fun _ => follows_isolationGo _ _) c
  refine ⟨hsame, fun h => ?_⟩
  have hok : (cfgSwitchPortIsolationParse portIsolation {}).1 = .ok () := by
    rw [h] at hsame
    cases hslots : (cfgSwitchPortIsolationParse portIsolation {}).1 with
    | ok _ => rfl
    | error e =>
      rw [hslots] at hsame
      cases hsame
  rw [(hrun.post {} rfl hok).slots]
  unfold Proto.cfgSwitchPortIsolationParse at h ⊢
  obtain ⟨-, heq⟩ := need_bind_ok h
  rw [heq] at h ⊢
  obtain ⟨-, heq⟩ := need_bind_ok h
  rw [heq] at h ⊢
  refine (isolationGo_table _ _ c h).trans ?_
  rw [hc]
  rfl

end Ucentral.Proto.Isolation
