import Ucentral.Proto.Handle
import Ucentral.Proto.Session

/-! The replies to a request, and the id each of them carries.

    The id of a request is a double. `configure_reply` and the handlers that fill in a result of
    their own pass it on as it is; `action_reply` and `script_reply` take a `uint32_t`, and a script
    that has been started keeps the id as a `uint64_t` until its result is there. -/

namespace Ucentral.Proto
open CJson Plat Parse

/-! ### The reply helpers -/

/-- `status` of a reply, by the helper that fills it in. -/
inductive Status
  | configure (error : ℕ) (text : String)
  | success
  | action (error : ℕ) (text : String) (resultCode : ℕ)
  | script (error : ℕ) (result : String)
  deriving DecidableEq

/-- What is sent: `result_new_blob` puts the id and the uuid, the helper the status. -/
structure Reply where
  id : Double
  uuid : ℤ
  status : Status
  deriving DecidableEq

/-- Conversion of an unsigned integer to an `int32_t`. -/
def toInt32 (n : ℕ) : ℤ :=
  if n % 2 ^ 32 < 2 ^ 31 then (n % 2 ^ 32 : ℕ) else (n % 2 ^ 32 : ℕ) - 2 ^ 32

/-- Conversion of an integer to a `uint32_t`. -/
def toUint32 (z : ℤ) : ℕ := (z % 2 ^ 32).toNat

/-- `action_reply`; the id is a `uint32_t`. -/
def actionReply (uuid : ℤ) (error : ℕ) (text : String) (retcode id : ℕ) : Reply :=
  ⟨.fin id, uuid, .action error text retcode⟩

/-- `script_reply`; the id is a `uint32_t`. -/
def scriptReply (uuid : ℤ) (error : ℕ) (text : String) (id : ℕ) : Reply :=
  ⟨.fin id, uuid, .script error text⟩

/-- `configure_reply`. -/
def configureReplyOf : Msg → Option Reply
  | .configureReply error text uuid id => some ⟨id, uuid, .configure error text⟩
  | _ => none

/-! ### What the platform answers -/

/-- How `est_simple_reenroll` and the steps around it end. -/
inductive Reenroll
  | noServer | failed | notSaved | renewed
  deriving DecidableEq

/-- What `script_result_cb` is called with. -/
inductive ScriptEnd
  | failed
  | ended (timeoutExceeded : Bool) (exitStatus : ℤ) (stdoutString : String)

/-- The memory for the context of a script, the start of the script, and the result if there is one
    already; `uuid_active` may have changed by then. -/
structure ScriptRun where
  ctx : Bool
  uriCopied : Bool
  started : Bool
  result : Option (ℤ × ScriptEnd)

/-- The answers to whatever the handlers ask for; a true one means that a call succeeded. -/
structure Answers where
  configure : Outcomes
  reboot : Bool
  reenroll : Reenroll
  factory : Bool
  rtty : Bool
  upgrade : Bool
  script : ScriptRun

/-! ### The handlers -/

/-- `reboot_handle` and `factory_handle`, with the texts they send. -/
def orderReply (uuid : ℤ) (params : Ptr) (id : Double) (failed requested : String) (ok : Bool) :
    Reply :=
  if (getItem params "serial").isNone then actionReply uuid 1 "invalid parameters" 1 (id.toUInt 32)
  else if !ok then actionReply uuid 1 failed 1 (id.toUInt 32)
  else actionReply uuid 0 requested 0 (id.toUInt 32)

def rebootReply (uuid : ℤ) (params : Ptr) (id : Double) : Bool → Reply :=
  orderReply uuid params id "reboot failed" "Reboot requested successfully"

def factoryReply (uuid : ℤ) (params : Ptr) (id : Double) : Bool → Reply :=
  orderReply uuid params id "factory failed" "factory requested successfully"

/-- `reenroll_handle`. -/
def reenrollReply (uuid : ℤ) (params : Ptr) (id : Double) (est : Reenroll) : Reply :=
  if (getItem params "serial").isNone then actionReply uuid 1 "invalid parameters" 1 (id.toUInt 32)
  else match est with
    | .noServer => actionReply uuid 1 "Failed to detect EST server" 1 (id.toUInt 32)
    | .failed => actionReply uuid 1 "Certificate reenrollment failed" 1 (id.toUInt 32)
    | .notSaved => actionReply uuid 1 "Failed to save renewed certificate" 1 (id.toUInt 32)
    | .renewed => actionReply uuid 0
        "Certificate reenrollment successful, restarting in 10 seconds" 0 (id.toUInt 32)

/-- `rtty_handle`; members that are no strings, or too long, end the client before it replies. -/
def rttyReplies (uuid : ℤ) (params : Ptr) (id : Double) (ok : Bool) : List Reply :=
  match stopOf (rttyParse params {}).1 with
  | some .fault => []
  | some .reject | some .format => [actionReply uuid 1 "RTTY cmd parse failed" 1 (id.toUInt 32)]
  | none =>
    if ok then [⟨id, uuid, .success⟩]
    else [actionReply uuid 1 "RTTY cmd execution failed" 1 (id.toUInt 32)]

/-- `upgrade_handle`. -/
def upgradeReply (uuid : ℤ) (params : Ptr) (id : Double) (ok : Bool) : Reply :=
  if (getItem params "serial").isNone || !isString (getItem params "uri") then
    actionReply uuid 1 "invalid parameters" 1 (id.toUInt 32)
  else if !ok then actionReply uuid 1 "upgrade failed" 1 (id.toUInt 32)
  else actionReply uuid 0 "upgrade requested successfully" 0 (id.toUInt 32)

/-- `telemetry_handle`. -/
def telemetryReply (uuid : ℤ) (params : Ptr) (id : Double) : Reply :=
  let interval := getItem params "interval"
  let off := interval.isNone || (getNumberValue interval).isZero
  if (getItem params "serial").isNone || !off && (getItem params "types").isNone then
    actionReply uuid 1 "invalid parameters" 1 (id.toUInt 32)
  else actionReply uuid 0 "Telemetry configure requested successfully" 0 (id.toUInt 32)

/-- `script_result_cb`, with the id and the address of `struct proto_script_ctx`. -/
def scriptResultCb (uuid : ℤ) (id : ℕ) (uri : Bool) : ScriptEnd → Reply
  | .failed => actionReply uuid 1 "failed to execute script" 1 (id % 2 ^ 32)
  | .ended timeoutExceeded exitStatus stdoutString =>
    let e := if timeoutExceeded then 255 else toUint32 exitStatus
    let result :=
      if uri then
        if timeoutExceeded then "timed out" else if exitStatus ≠ 0 then "error" else "done"
      else stdoutString
    scriptReply uuid e result (toUint32 (toInt32 id))

/-- The members that `script_handle` asks for. -/
def scriptMembers (params : Ptr) : Bool :=
  isString (getItem params "serial") && isString (getItem params "type") &&
    optNumber (getItem params "timeout") && optString (getItem params "uri")

/-- The types of script that `script_plat_handle` takes. -/
def scriptType (params : Ptr) : Bool :=
  let type := getItem params "type"
  strOf type == "diagnostic" || isString (getItem params "script") && strOf type == "shell"

/-- `script_handle` and `script_plat_handle`, and the result when it comes. -/
def scriptReplies (uuid : ℤ) (params : Ptr) (id : Double) (run : ScriptRun) : List Reply :=
  if !scriptMembers params then [actionReply uuid 1 "invalid parameters" 1 (id.toUInt 32)]
  else if !scriptType params then [actionReply uuid 1 "invalid parameters" 1 (id.toUInt 32)]
  else if !run.ctx then []
  else if !run.started then [actionReply uuid 1 "failed to start execution" 1 (id.toUInt 32)]
  else
    let uri := (getItem params "uri").isSome && run.uriCopied
    (if uri then [scriptReply uuid 0 "pending" (id.toUInt 32)] else []) ++
      (run.result.map fun (now, e) => scriptResultCb now (id.toUInt 64) uri e).toList

/-- The id of a request: `rpc[JSONRPC_ID]`, or 0. -/
def requestId (obj : Json) : Double :=
  let id := getItem (some obj) "id"
  if id.isSome then getNumberValue id else .fin 0

/-- The replies of one handler. -/
def handlerReplies (obj : Json) (c : Client) (a : Answers) : Method → List Reply :=
  let params := getItem (some obj) "params"
  let id := requestId obj
  fun
  | .configure =>
    (configureHandle params (getItem (some obj) "id") a.configure c).2.filterMap configureReplyOf
  | .ping => [⟨id, c.uuidActive, .success⟩]
  | .reboot => [rebootReply c.uuidActive params id a.reboot]
  | .reenroll => [reenrollReply c.uuidActive params id a.reenroll]
  | .factory => [factoryReply c.uuidActive params id a.factory]
  | .rtty => rttyReplies c.uuidActive params id a.rtty
  | .upgrade => [upgradeReply c.uuidActive params id a.upgrade]
  | .telemetry => [telemetryReply c.uuidActive params id]
  | .script => scriptReplies c.uuidActive params id a.script
  | .generic => [⟨id, c.uuidActive, .success⟩]

/-- The handler `proto_handle_blob` calls. -/
def calledMethod (obj : Json) : Option Method :=
  if hasShape obj && strOf (getItem (some obj) "jsonrpc") == "2.0" then
    (getStringValue (getItem (some obj) "method")).map methodOf
  else none

/-- Everything that is sent in reply to a request. -/
def replies (obj : Json) (c : Client) (a : Answers) : List Reply :=
  match calledMethod obj with
  | none => []
  | some method => handlerReplies obj c a method

/-! ### Which ids come back -/

/-- Does a reply of this handler go through a `uint32_t`? -/
def narrows (params : Ptr) (a : Answers) : Method → Bool
  | .configure | .ping | .generic => false
  | .reboot | .reenroll | .factory | .upgrade | .telemetry => true
  | .rtty =>
    match stopOf (rttyParse params {}).1 with
    | some .fault => false
    | some .reject | some .format => true
    | none => !a.rtty
  | .script =>
    !(scriptMembers params && scriptType params) || a.script.ctx &&
      (!a.script.started || (getItem params "uri").isSome && a.script.uriCopied ||
        a.script.result.isSome)

/-- Is the id of this request narrowed in a reply to it? -/
def narrowed (obj : Json) (a : Answers) : Bool :=
  match calledMethod obj with
  | none => false
  | some method => narrows (getItem (some obj) "params") a method

/-- The sign that the context's id may get on its way is taken off again. -/
theorem toUint32_toInt32 (n : ℕ) : toUint32 (toInt32 n) = n % 2 ^ 32 := by
  unfold toUint32 toInt32
  split <;> omega

/-- The id of a reply as the helpers leave it. -/
def Narrow (n : ℕ) (r : Reply) : Prop := r.id = .fin ((n % 2 ^ 32 : ℕ) : ℚ)

section Ids

variable {n : ℕ} (uuid : ℤ) (params : Ptr)

theorem narrow_orderReply (failed requested : String) (ok : Bool) :
    Narrow n (orderReply uuid params (.fin n) failed requested ok) := by
  unfold orderReply
  rw [Double.toUInt_natCast]
  split
  · rfl
  · split <;> rfl

theorem narrow_reenrollReply (est : Reenroll) :
    Narrow n (reenrollReply uuid params (.fin n) est) := by
  unfold reenrollReply
  rw [Double.toUInt_natCast]
  split
  · rfl
  · cases est <;> rfl

theorem narrow_upgradeReply (ok : Bool) : Narrow n (upgradeReply uuid params (.fin n) ok) := by
  unfold upgradeReply
  rw [Double.toUInt_natCast]
  split
  · rfl
  · split <;> rfl

theorem narrow_telemetryReply : Narrow n (telemetryReply uuid params (.fin n)) := by
  unfold telemetryReply
  simp only [Double.toUInt_natCast]
  split <;> rfl

theorem narrow_scriptResultCb (uri : Bool) (e : ScriptEnd) :
    Narrow n (scriptResultCb uuid n uri e) := by
  cases e with
  | failed => rfl
  | ended timedOut status out =>
    change Double.fin _ = _
    rw [toUint32_toInt32]

/-- Either there are replies and all are narrow, or all carry the id as it is. -/
def IdsOf (n : ℕ) (narrow : Bool) (rs : List Reply) : Prop :=
  if narrow then rs ≠ [] ∧ ∀ r ∈ rs, Narrow n r else ∀ r ∈ rs, r.id = .fin n

theorem idsOf_narrow {r : Reply} (h : Narrow n r) : IdsOf n true [r] := by
  refine ⟨List.cons_ne_nil _ _, fun r' hr' => ?_⟩
  rw [List.mem_singleton.mp hr']
  exact h

theorem idsOf_wide {r : Reply} (h : r.id = .fin n) : IdsOf n false [r] := by
  intro r' hr'
  rw [List.mem_singleton.mp hr']
  exact h

theorem idsOf_nil : IdsOf n false [] := fun _ h => absurd h (List.not_mem_nil)

theorem idsOf_configure (id : Ptr) (out : Outcomes) (c : Client)
    (hid : (if id.isSome then getNumberValue id else .fin 0) = .fin n) :
    IdsOf n false ((configureHandle params id out c).2.filterMap configureReplyOf) := by
  intro r hr
  obtain ⟨msg, hmsg, hr⟩ := List.mem_filterMap.mp hr
  have hkeep : ∀ error text uuid, configureReplyOf (.configureReply error text uuid (.fin n)) =
      some r → r.id = .fin n := by
    rintro error text uuid h
    cases h
    rfl
  simp only [configureHandle, hid] at hmsg
  split at hmsg
  · rw [List.mem_singleton.mp hmsg] at hr
    exact hkeep _ _ _ hr
  · rcases hparsed : out.parsed with _ | cfg
    · rw [hparsed] at hmsg
      rw [List.mem_singleton.mp hmsg] at hr
      exact hkeep _ _ _ hr
    · simp only [hparsed] at hmsg
      split at hmsg
      · rw [List.mem_singleton.mp hmsg] at hr
        exact hkeep _ _ _ hr
      · rcases List.mem_append.mp hmsg with h | h
        · -- the device update is no reply
          split at h
          · rw [List.mem_singleton.mp h] at hr
            cases hr
          · cases h
        · rw [List.mem_singleton.mp h] at hr
          exact hkeep _ _ _ hr

theorem idsOf_rttyReplies (a : Answers) :
    IdsOf n (narrows params a .rtty) (rttyReplies uuid params (.fin n) a.rtty) := by
  unfold narrows rttyReplies
  rcases stopOf (rttyParse params {}).1 with _ | stop
  · cases a.rtty with
    | true => exact idsOf_wide rfl
    | false => exact idsOf_narrow (congrArg _ (congrArg _ (Double.toUInt_natCast 32 n)))
  · cases stop with
    | fault => exact idsOf_nil
    | reject | format => exact idsOf_narrow (congrArg _ (congrArg _ (Double.toUInt_natCast 32 n)))

theorem idsOf_scriptReplies (hn : n < 2 ^ 64) (a : Answers) :
    IdsOf n (narrows params a .script) (scriptReplies uuid params (.fin n) a.script) := by
  have hwhole : (Double.fin (n : ℚ)).toUInt 64 = n := by
    rw [Double.toUInt_natCast]
    exact Nat.mod_eq_of_lt hn
  unfold narrows scriptReplies
  rw [Double.toUInt_natCast, hwhole]
  cases hm : scriptMembers params with
  | false => exact idsOf_narrow rfl
  | true =>
  cases ht : scriptType params with
  | false => exact idsOf_narrow rfl
  | true =>
  cases hc : a.script.ctx with
  | false => exact idsOf_nil
  | true =>
  cases hs : a.script.started with
  | false => exact idsOf_narrow rfl
  | true =>
  -- the script runs: a reply while it does, and one when it ends
  cases hu : (getItem params "uri").isSome && a.script.uriCopied with
  | false =>
    rcases a.script.result with _ | ⟨now, e⟩
    · exact idsOf_nil
    · exact idsOf_narrow (narrow_scriptResultCb now false e)
  | true =>
    refine ⟨List.cons_ne_nil _ _, fun r hr => ?_⟩
    rcases List.mem_cons.mp hr with rfl | hr
    · rfl
    · rcases hres : a.script.result with _ | ⟨now, e⟩
      · rw [hres] at hr
        cases hr
      · rw [hres] at hr
        rw [List.mem_singleton.mp hr]
        exact narrow_scriptResultCb now true e

end Ids

theorem idsOf_handlerReplies {n : ℕ} {obj : Json} (hid : requestId obj = .fin n) (hn : n < 2 ^ 64)
    (c : Client) (a : Answers) (method : Method) :
    IdsOf n (narrows (getItem (some obj) "params") a method) (handlerReplies obj c a method) := by
  unfold handlerReplies
  rw [hid]
  cases method with
  | configure => exact idsOf_configure _ _ _ _ hid
  | ping => exact idsOf_wide rfl
  | generic => exact idsOf_wide rfl
  | reboot => exact idsOf_narrow (narrow_orderReply _ _ _ _ _)
  | factory => exact idsOf_narrow (narrow_orderReply _ _ _ _ _)
  | reenroll => exact idsOf_narrow (narrow_reenrollReply _ _ _)
  | upgrade => exact idsOf_narrow (narrow_upgradeReply _ _ _)
  | telemetry => exact idsOf_narrow (narrow_telemetryReply _ _)
  | rtty => exact idsOf_rttyReplies _ _ _
  | script => exact idsOf_scriptReplies _ _ hn _

theorem idsOf_replies {n : ℕ} {obj : Json} (hid : requestId obj = .fin n) (hn : n < 2 ^ 64)
    (c : Client) (a : Answers) : IdsOf n (narrowed obj a) (replies obj c a) := by
  unfold narrowed replies
  rcases calledMethod obj with _ | method
  · exact idsOf_nil
  · exact idsOf_handlerReplies hid hn c a method

/-- Replies all carry the id exactly if it fits 32 bits or none of them is narrow. -/
theorem all_ids_iff {n : ℕ} {narrow : Bool} {rs : List Reply} (h : IdsOf n narrow rs) :
    (∀ r ∈ rs, r.id = .fin n) ↔ n < 2 ^ 32 ∨ narrow = false := by
  cases narrow with
  | false => exact iff_of_true h (Or.inr rfl)
  | true =>
    obtain ⟨hne, hall⟩ := h
    obtain ⟨r, rs, rfl⟩ := List.exists_cons_of_ne_nil hne
    have hr : Narrow n r := hall r List.mem_cons_self
    constructor
    · intro hid
      have heq : Double.fin (n : ℚ) = .fin ((n % 2 ^ 32 : ℕ) : ℚ) :=
        (hid r List.mem_cons_self).symm.trans hr
      injection heq with heq
      have hmod : n = n % 2 ^ 32 := by exact_mod_cast heq
      exact Or.inl (by omega)
    · rintro (hlt | hfalse)
      · intro r' hr'
        rw [hall r' hr', Nat.mod_eq_of_lt hlt]
      · cases hfalse

/-- Every reply to a request carries its id exactly if the id fits 32 bits or all replies go through
    the helpers that take a double. -/
theorem replies_carry_id_iff (obj : Json) (c : Client) (a : Answers) (n : ℕ) (hn : n < 2 ^ 53)
    (hid : getItem (some obj) "id" = some (.num (.fin n))) :
    (∀ r ∈ replies obj c a, r.id = .fin n) ↔ n < 2 ^ 32 ∨ narrowed obj a = false := by
  have hreq : requestId obj = .fin n := by simp [requestId, hid, getNumberValue]
  exact all_ids_iff (idsOf_replies hreq (by omega) c a)

/-- A request to reboot with this id. -/
def rebootRequest (n : ℕ) : Json :=
  .obj [("jsonrpc", .str "2.0"), ("id", .num (.fin n)), ("method", .str "reboot"),
    ("params", .obj [("serial", .str "s")])]

/-- A diagnostic script with this id whose output goes to an address. -/
def diagnosticRequest (n : ℕ) : Json :=
  .obj [("jsonrpc", .str "2.0"), ("id", .num (.fin n)), ("method", .str "script"),
    ("params", .obj [("serial", .str "s"), ("type", .str "diagnostic"), ("uri", .str "u")])]

/-- Whatever is asked for succeeds. -/
def allGranted : Answers where
  configure := ⟨none, true, true, .noOpen, true, none⟩
  reboot := true
  reenroll := .renewed
  factory := true
  rtty := true
  upgrade := true
  script := ⟨true, true, true, some (0, .ended false 0 "")⟩

theorem replies_carry_id_reboot :
    (∀ r ∈ replies (rebootRequest 7) {} allGranted, r.id = .fin 7) ↔
      7 < 2 ^ 32 ∨ narrowed (rebootRequest 7) allGranted = false :=
  replies_carry_id_iff (rebootRequest 7) {} allGranted 7 (by decide) rfl

/-- The id 2^32 comes back as 0, from a reboot and twice from a script. -/
theorem replies_lose_id :
    (replies (rebootRequest (2 ^ 32)) {} allGranted).map Reply.id = [.fin 0] ∧
    (replies (diagnosticRequest (2 ^ 32)) {} allGranted).map Reply.id = [.fin 0, .fin 0] ∧
    ¬ ∀ r ∈ replies (rebootRequest (2 ^ 32)) {} allGranted, r.id = .fin (2 ^ 32 : ℕ) := by
  refine ⟨by decide +kernel, by decide +kernel, by decide +kernel⟩

end Ucentral.Proto
