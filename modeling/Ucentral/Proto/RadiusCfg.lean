import Ucentral.Proto.CfgParse

/-! RADIUS hosts: one node for each element of `radius`, the last element first.

    A node takes each of its fields from a member of the element. The exception is the priority, whose
    value is that of the port: it is right only where the low eight bits of the port happen to be the
    priority that was asked for. -/

namespace Ucentral.Proto
open CJson Inet Router Plat Parse

/-! ### Cut texts -/

/-- The number of bytes of a text. -/
def bytes (cs : List Char) : ℕ := (cs.map Char.utf8Size).sum

/-- The front of a text, of the characters that fit whole into `n` bytes. -/
def IsCut (n : ℕ) (cs front : List Char) : Prop :=
  ∃ rest, cs = front ++ rest ∧ bytes front ≤ n ∧ ∀ c ∈ rest.head?, n < bytes front + c.utf8Size

theorem isCut_go : ∀ (n : ℕ) (cs : List Char), IsCut n cs (cutBytes.go n cs)
  | n, [] => ⟨[], by simp [cutBytes.go], by simp [cutBytes.go, bytes], by simp⟩
  | n, c :: cs => by
      rw [cutBytes.go]
      by_cases hc : c.utf8Size ≤ n
      · rw [if_pos hc]
        obtain ⟨rest, heq, hle, hnext⟩ := isCut_go (n - c.utf8Size) cs
        refine ⟨rest, congrArg (c :: ·) heq, ?_, ?_⟩
        · simp only [bytes, List.map_cons, List.sum_cons] at hle ⊢
          omega
        · intro d hd
          have hlt := hnext d hd
          simp only [bytes, List.map_cons, List.sum_cons] at hlt ⊢
          omega
      · rw [if_neg hc]
        refine ⟨c :: cs, rfl, by simp [bytes], ?_⟩
        intro d hd
        obtain rfl : c = d := by simpa using hd
        simp only [bytes, List.map_nil, List.sum_nil]
        omega

theorem isCut_cutBytes (n : ℕ) (s : String) : IsCut n s.toList (cutBytes n s).toList := by
  rw [cutBytes, String.toList_ofList]
  exact isCut_go n s.toList

/-! ### The list of hosts -/

/-- The elements of `radius`. -/
def radiusOf (sw : Ptr) : List Json := children (getItem (getItem sw "ieee8021x") "radius")

def authPortOf (iter : Json) : Ptr := getItem (some iter) "server-authentication-port"

def priorityOf (iter : Json) : Ptr := getItem (some iter) "server-priority"

/-- The node that is made of an element. -/
def radiusHostOf (iter : Json) : RadiusHost where
  hostname := cutBytes 63 (strOf (getItem (some iter) "server-host"))
  passkey := cutBytes 63 (strOf (getItem (some iter) "server-key"))
  authPort := if noNumber (authPortOf iter) then 1812 else (getNumberValue (authPortOf iter)).toUInt 16
  priority := if noNumber (priorityOf iter) then 1 else (getNumberValue (authPortOf iter)).toUInt 8

theorem turns_radiusHost (iter : Json) :
    Turns PlatCfg.radiusHosts (radiusHostOf iter :: ·) (radiusHost iter) := by
  refine turns_leaves_bind (leaves_pass _) (fun _ => turns_leaves_bind (leaves_pass _) fun _ => ?_)
  refine turns_leaves_bind (leaves_pass _) (fun _ => turns_fill fun c => ?_)
  rfl

/-- Each node goes to the front of the list. -/
theorem turns_radiusHosts (iters : List Json) :
    Turns PlatCfg.radiusHosts ((iters.map radiusHostOf).reverse ++ ·) (forM iters radiusHost) := by
  induction iters with
  | nil => exact (leaves_pure ()).turns
  | cons iter iters ih =>
    rw [List.forM_cons]
    refine turns_bind _ _ (turns_radiusHost iter) (fun _ => ih) (fun hosts => ?_)
    simp

theorem turns_cfgSwitchIeee8021xParse (sw : Ptr) :
    Turns PlatCfg.radiusHosts (((radiusOf sw).map radiusHostOf).reverse ++ ·)
      (cfgSwitchIeee8021xParse sw) := by
  unfold cfgSwitchIeee8021xParse radiusOf
  cases getItem sw "ieee8021x" with
  | none => exact (leaves_pure ()).turns
  | some ieee8021x =>
    refine turns_leaves_bind (leaves_pass _) (fun _ => ?_)
    refine turns_leaves_bind (leaves_fill fun _ => rfl) (fun _ => ?_)
    exact turns_leaves_bind (leaves_pass _) (fun _ => turns_radiusHosts _)

/-! ### What is asked for -/

/-- The number given, or the default where there is none or a zero. -/
def GivenOr (default : ℕ) (j : Ptr) (n : ℕ) : Prop :=
  if noNumber j then n = default else (getNumberValue j).eqNat n = true

/-- Each field is that of the element. -/
structure IsHostOf (iter : Json) (host : RadiusHost) : Prop where
  hostname : IsCut 63 (strOf (getItem (some iter) "server-host")).toList host.hostname.toList
  passkey : IsCut 63 (strOf (getItem (some iter) "server-key")).toList host.passkey.toList
  authPort : GivenOr 1812 (authPortOf iter) host.authPort
  priority : GivenOr 1 (priorityOf iter) host.priority

/-- One node for each element, the last first, in front of what was there. -/
def RadiusAsGiven (iters : List Json) (before after : List RadiusHost) : Prop :=
  ∃ hosts, after = hosts ++ before ∧ List.Forall₂ IsHostOf iters.reverse hosts

/-- The port is one, and the priority is its low eight bits. -/
structure PriorityFromPort (iter : Json) : Prop where
  port : noNumber (authPortOf iter) = true ∨
    ∃ n < 65536, (getNumberValue (authPortOf iter)).eqNat n = true
  priority : noNumber (priorityOf iter) = true ∨
    ∃ n, (getNumberValue (authPortOf iter)).eqNat n = true ∧
      (getNumberValue (priorityOf iter)).eqNat (n % 256) = true

theorem toUInt_of_eqNat {x : Double} {n : ℕ} (h : x.eqNat n = true) (w : ℕ) :
    x.toUInt w = n % 2 ^ w := by
  rw [Double.eqNat_iff.mp h]
  exact Double.toUInt_natCast w n

/-- Where there is no number, there is none in eight bits either. -/
theorem toUInt_of_noNumber {j : Ptr} (h : noNumber j = true) (w : ℕ) : (getNumberValue j).toUInt w = 0 := by
  rw [noNumber, Bool.or_eq_true] at h
  rcases h with hnone | hzero
  · rw [Option.isNone_iff_eq_none.mp hnone]
    simp [getNumberValue, Double.toUInt, Double.trunc]
  · cases hx : getNumberValue j with
    | nan => simp [Double.toUInt, Double.trunc]
    | inf neg => simp [Double.toUInt, Double.trunc]
    | fin q =>
      rw [hx, Double.isZero, beq_iff_eq] at hzero
      subst hzero
      simp [Double.toUInt, Double.trunc]

theorem givenOr_port_iff (j : Ptr) :
    GivenOr 1812 j (if noNumber j then 1812 else (getNumberValue j).toUInt 16) ↔
      noNumber j = true ∨ ∃ n < 65536, (getNumberValue j).eqNat n = true := by
  unfold GivenOr
  by_cases hno : noNumber j = true
  · simp [hno]
  · simp only [hno, if_false, false_or, Bool.false_eq_true]
    constructor
    · intro h
      exact ⟨_, Double.toUInt_lt 16 _, h⟩
    · rintro ⟨n, hlt, hn⟩
      have hfit : n % 2 ^ 16 = n := Nat.mod_eq_of_lt hlt
      rw [toUInt_of_eqNat hn, hfit]
      exact hn

theorem isHostOf_iff (iter : Json) : IsHostOf iter (radiusHostOf iter) ↔ PriorityFromPort iter := by
  have hport := givenOr_port_iff (authPortOf iter)
  constructor
  · intro h
    have hgiven := hport.mp h.authPort
    refine ⟨hgiven, ?_⟩
    by_cases hno : noNumber (priorityOf iter) = true
    · exact Or.inl hno
    · have hprio := h.priority
      simp only [GivenOr, radiusHostOf, hno, if_false, Bool.false_eq_true] at hprio
      rcases hgiven with hnone | ⟨n, -, hn⟩
      · -- a priority of 0 counts as none
        rw [toUInt_of_noNumber hnone, Double.eqNat_iff] at hprio
        exact absurd (by simp [noNumber, hprio, Double.isZero]) hno
      · rw [toUInt_of_eqNat hn] at hprio
        exact Or.inr ⟨n, hn, hprio⟩
  · intro h
    refine ⟨isCut_cutBytes 63 _, isCut_cutBytes 63 _, hport.mpr h.port, ?_⟩
    rcases h.priority with hno | ⟨n, hn, hprio⟩
    · simp [GivenOr, radiusHostOf, hno]
    · by_cases hno : noNumber (priorityOf iter) = true
      · simp [GivenOr, radiusHostOf, hno]
      · simp only [GivenOr, radiusHostOf, hno, if_false, Bool.false_eq_true]
        rw [toUInt_of_eqNat hn]
        exact hprio

/-- For every array that is accepted, from whatever list. -/
theorem radiusAsGiven_iff (sw : Ptr) (c : PlatCfg) (hok : (cfgSwitchIeee8021xParse sw c).1 = .ok ()) :
    RadiusAsGiven (radiusOf sw) c.radiusHosts (cfgSwitchIeee8021xParse sw c).2.radiusHosts ↔
      ∀ iter ∈ radiusOf sw, PriorityFromPort iter := by
  have hlist := turns_cfgSwitchIeee8021xParse sw c () hok
  have hnodes : List.Forall₂ IsHostOf (radiusOf sw).reverse ((radiusOf sw).map radiusHostOf).reverse ↔
      ∀ iter ∈ radiusOf sw, PriorityFromPort iter := by
    rw [← List.map_reverse, List.forall₂_map_right_iff, List.forall₂_same]
    simp only [isHostOf_iff, List.mem_reverse]
  rw [hlist, ← hnodes]
  constructor
  · rintro ⟨hosts, heq, hforall⟩
    rwa [List.append_cancel_right heq]
  · intro h
    exact ⟨_, rfl, h⟩

/-- One server, with its port and its priority. -/
def radiusServer (port prio : ℚ) : Ptr :=
  some (.obj [("ieee8021x", .obj [("radius", .arr [.obj [("server-host", .str "10.0.0.1"),
    ("server-authentication-port", .num (.fin port)), ("server-key", .str "secret"),
    ("server-priority", .num (.fin prio))]])])])

theorem radiusAsGiven_twenty :
    RadiusAsGiven (radiusOf (radiusServer 1812 20)) []
      (cfgSwitchIeee8021xParse (radiusServer 1812 20) {}).2.radiusHosts := by
  refine (radiusAsGiven_iff (radiusServer 1812 20) {} (by decide +kernel)).mpr ?_
  intro iter hiter
  cases List.mem_singleton.mp hiter
  exact ⟨Or.inr ⟨1812, by decide, by decide +kernel⟩,
    Or.inr ⟨1812, by decide +kernel, by decide +kernel⟩⟩

/-- The priority is 5 in the configuration, and 20 in the list. -/
theorem radius_priority_from_port :
    (cfgSwitchIeee8021xParse (radiusServer 1812 5) {}).1 = .ok () ∧
    ((cfgSwitchIeee8021xParse (radiusServer 1812 5) {}).2.radiusHosts.map RadiusHost.priority) = [20] ∧
    ¬ RadiusAsGiven (radiusOf (radiusServer 1812 5)) []
      (cfgSwitchIeee8021xParse (radiusServer 1812 5) {}).2.radiusHosts := by
  have hprio : (cfgSwitchIeee8021xParse (radiusServer 1812 5) {}).2.radiusHosts.map
      RadiusHost.priority = [20] := by decide +kernel
  refine ⟨by decide +kernel, hprio, ?_⟩
  rintro ⟨hosts, heq, hforall⟩
  rw [List.append_nil] at heq
  rw [heq] at hprio
  cases hforall with
  | cons hhost htail =>
    have hgiven := hhost.priority
    rw [(List.cons.inj hprio).1, GivenOr, if_neg (by decide +kernel)] at hgiven
    revert hgiven
    decide +kernel

end Ucentral.Proto
