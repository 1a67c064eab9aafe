import Ucentral.Lib.Triple
import Ucentral.Plat.Device

/-! A switch as far as one part of its state goes.

    The results about a cache compare it with the part of the switch it stands for. Such a part is a
    view of the state of the switch: a granted request has an effect on it, a refused one has none,
    and asking leaves it alone. Which requests are granted is up to the switch. -/

namespace Ucentral.Plat
open Effect

variable {δ ν : Type}

/-- The cache, the switch and the requests made so far. -/
abbrev PlatSt (δ : Type) := Traced (Env δ) (Op × Bool)

/-- A switch with a view of its state, and what a granted request may do to the view. -/
structure Switch (δ ν : Type) (effect : Op → ν → ν → Prop) where
  dev : Dev δ
  view : δ → ν
  granted : ∀ op d, (dev.request op d).1 = true → effect op (view d) (view (dev.request op d).2)
  refused : ∀ op d, (dev.request op d).1 = false → view (dev.request op d).2 = view d
  vlanList : ∀ d, view (dev.vlanList d).2 = view d
  vlanMembers : ∀ d, view (dev.vlanMembers d).2 = view d
  vlanErif : ∀ vid d, view (dev.vlanErif vid d).2 = view d
  portList : ∀ d, view (dev.portList d).2 = view d
  dacHosts : ∀ d, view (dev.dacHosts d).2 = view d
  radiusHosts : ∀ d, view (dev.radiusHosts d).2 = view d

/-- The same switch, with less said about what granted requests do. -/
def Switch.weaken {effect effect' : Op → ν → ν → Prop} (sw : Switch δ ν effect)
    (h : ∀ op v v', effect op v v' → effect' op v v') : Switch δ ν effect' :=
  { sw with granted := fun op d hg => h op _ _ (sw.granted op d hg) }

/-! ### Requests and queries as triples -/

section Triples

variable {effect : Op → ν → ν → Prop} (sw : Switch δ ν effect) {P Q E : PlatSt δ → Prop}

/-- A request: granted with its effect, or refused without one. -/
theorem triple_gnmiRequest {op : Op}
    (hok : ∀ s d, P s → effect op (sw.view s.state.dev) (sw.view d) →
      Q ⟨⟨s.state.cache, d⟩, s.log ++ [(op, true)]⟩)
    (herror : ∀ s d, P s → sw.view d = sw.view s.state.dev →
      E ⟨⟨s.state.cache, d⟩, s.log ++ [(op, false)]⟩) :
    Triple P (gnmiRequest sw.dev op) (fun _ => Q) E := by
  intro s hp
  rw [gnmiRequest_run]
  cases hg : (sw.dev.request op s.state.dev).1 with
  | true => exact hok s _ hp (sw.granted op _ hg)
  | false => exact herror s _ hp (sw.refused op _ hg)

/-- A query that leaves the view alone. -/
theorem triple_ask {α : Type} {q : δ → α × δ} (hq : ∀ d, sw.view (q d).2 = sw.view d)
    {R : α → PlatSt δ → Prop}
    (h : ∀ s d a, P s → sw.view d = sw.view s.state.dev → R a ⟨⟨s.state.cache, d⟩, s.log⟩) :
    Triple P (ask q) R E := by
  intro s hp
  rw [ask_run]
  exact h s _ _ hp (hq _)

theorem triple_getCache {R : PlatState → PlatSt δ → Prop} :
    Triple (fun s => R s.state.cache s) getCache R E :=
  fun _ h => h

theorem triple_modifyCache {f : PlatState → PlatState}
    (h : ∀ s, P s → Q ⟨⟨f s.state.cache, s.state.dev⟩, s.log⟩) :
    Triple P (modifyCache f) (fun _ => Q) E :=
  fun s hp => h s hp

end Triples

/-! ### Requests in a row -/

/-- Requests one after the other, up to the first that is refused. -/
def sendAll (dv : Dev δ) (ops : List Op) : ApplyM δ Unit := forM ops (gnmiRequest dv)

/-- Are they all granted? And the switch after them. -/
def sentAll (dv : Dev δ) : List Op → δ → Bool × δ
  | [], d => (true, d)
  | op :: ops, d =>
    if (dv.request op d).1 then sentAll dv ops (dv.request op d).2
    else (false, (dv.request op d).2)

theorem sendAll_run (dv : Dev δ) : ∀ (ops : List Op) (s : PlatSt δ),
    ∃ l, sendAll dv ops s = (if (sentAll dv ops s.state.dev).1 then .ok () else .error (-1),
      ⟨⟨s.state.cache, (sentAll dv ops s.state.dev).2⟩, l⟩)
  | [], s => ⟨s.log, rfl⟩
  | op :: ops, s => by
      have hreq := gnmiRequest_run dv op s
      unfold sendAll sentAll
      rw [List.forM_cons]
      cases hg : (dv.request op s.state.dev).1 with
      | false =>
        rw [hg] at hreq
        exact ⟨_, Prog.bind_run_error hreq _⟩
      | true =>
        rw [hg] at hreq
        rw [Prog.bind_run_ok hreq]
        exact sendAll_run dv ops _

theorem sendAll_append (dv : Dev δ) (ops ops' : List Op) :
    sendAll dv (ops ++ ops') = (do sendAll dv ops; sendAll dv ops') :=
  List.forM_append

/-- A request that is made under a condition. -/
theorem when_gnmiRequest (dv : Dev δ) (b : Bool) (op : Op) :
    Prog.when b (gnmiRequest dv op) = sendAll dv (if b then [op] else []) := by
  cases b with
  | false => rfl
  | true =>
    change gnmiRequest dv op = gnmiRequest dv op >>= fun _ => pure ()
    rw [bind_pure_unit]

theorem forM_gnmiRequest (dv : Dev δ) {η : Type} (op : η → Op) :
    ∀ xs : List η, (forM xs fun x => gnmiRequest dv (op x)) = sendAll dv (xs.map op)
  | [] => rfl
  | x :: xs => by
      rw [List.forM_cons, forM_gnmiRequest dv op xs]
      exact (List.forM_cons).symm

theorem forM_when_gnmiRequest (dv : Dev δ) {η : Type} (b : η → Bool) (op : η → Op) :
    ∀ xs : List η, (forM xs fun x => Prog.when (b x) (gnmiRequest dv (op x))) =
      sendAll dv ((xs.filter b).map op)
  | [] => rfl
  | x :: xs => by
      rw [List.forM_cons, forM_when_gnmiRequest dv b op xs, when_gnmiRequest, ← sendAll_append]
      cases hb : b x with
      | false => rw [List.filter_cons_of_neg (by simp [hb])]; rfl
      | true => rw [List.filter_cons_of_pos hb]; rfl

/-- Requests that are all granted leave their effects, one after the other. -/
theorem Switch.view_sentAll {store : Op → ν → ν} (sw : Switch δ ν fun op v v' => v' = store op v) :
    ∀ (ops : List Op) (d : δ), (sentAll sw.dev ops d).1 = true →
      sw.view (sentAll sw.dev ops d).2 = ops.foldl (fun v op => store op v) (sw.view d)
  | [], _, _ => rfl
  | op :: ops, d, h => by
      cases hg : (sw.dev.request op d).1 with
      | false =>
        rw [sentAll, hg] at h
        cases h
      | true =>
        rw [sentAll, if_pos hg] at h
        rw [sentAll, if_pos hg, sw.view_sentAll ops _ h, sw.granted op d hg]
        rfl

/-! ### A switch that answers as it is told -/

/-- A view, and the answers to the next requests; when they are used up, all requests are granted.
    The ports, the VLANs and their addresses are fixed, the RADIUS servers are those of the view. -/
def scriptedDev (store : Op → ν → ν) (vlans : Bitmap) (addrs : ℕ → List IpPrefix)
    (ports : List String) (hosts : ν → List String) : Dev (ν × List Bool) where
  request op d :=
    match d.2 with
    | [] => (true, (store op d.1, []))
    | b :: bs => (b, (if b then store op d.1 else d.1, bs))
  vlanList d := (some vlans, d)
  vlanMembers d := (some ⟨fun _ => Bitmap.clear, fun _ => Bitmap.clear⟩, d)
  vlanErif vid d := (some (addrs vid), d)
  portList d := (some ports, d)
  dacHosts d := (some [], d)
  radiusHosts d := (some (hosts d.1), d)

/-- It keeps its view. -/
def scriptedSwitch (store : Op → ν → ν) (vlans : Bitmap) (addrs : ℕ → List IpPrefix)
    (ports : List String) (hosts : ν → List String) :
    Switch (ν × List Bool) ν fun op v v' => v' = store op v where
  dev := scriptedDev store vlans addrs ports hosts
  view := Prod.fst
  granted op d h := by
    rcases d with ⟨v, _ | ⟨b, bs⟩⟩
    · rfl
    · cases h
      rfl
  refused op d h := by
    rcases d with ⟨v, _ | ⟨b, bs⟩⟩
    · cases h
    · cases h
      rfl
  vlanList _ := rfl
  vlanMembers _ := rfl
  vlanErif _ _ := rfl
  portList _ := rfl
  dacHosts _ := rfl
  radiusHosts _ := rfl

end Ucentral.Plat
