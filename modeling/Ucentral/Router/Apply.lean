import Ucentral.Plat.Device

/-! `config_router_apply`: bring the static routes of the switch from the cached table to the table
    of a configuration.

    The two tables are sorted and walked together; each step of the walk removes, creates or replaces
    one route. The first failed create ends the call and leaves the cache as it was, although the
    array the cache points to may have been sorted on the way. The result of a remove is not
    looked at. -/

namespace Ucentral.Router
open Inet Merge Effect Plat

variable {δ : Type}

/-- `router_fib_key2gnma_prefix`. -/
def routerFibKey2gnmaPrefix (k : FibKey) : IpPrefix := ⟨k.pref, k.prefixLen⟩

/-- `router_fib_info2gnma_attr`: the other kinds have no counterpart and are refused. -/
def routerFibInfo2gnmaAttr : FibInfo → Option RouteAttrs
  | .blackhole => some .blackhole
  | .connected vid => some (.connected vid)
  | .nh vid gw => some (.nexthop vid gw)
  | .unreachable => none
  | .broadcast _ => none

/-- `gnma_route_create`: only the default VRF is supported. -/
def gnmaRouteCreate (dv : Dev δ) (vrId : ℕ) (pref : IpPrefix) (attr : RouteAttrs) : ApplyM δ Unit :=
  if vrId ≠ 0 then Prog.fail (-1) else gnmiRequest dv (.routeCreate pref attr)

/-- `gnma_route_remove`. -/
def gnmaRouteRemove (dv : Dev δ) (vrId : ℕ) (pref : IpPrefix) : ApplyM δ Unit :=
  if vrId ≠ 0 then Prog.fail (-1) else gnmiRequest dv (.routeRemove pref)

/-- Create the route of a node, or fail if its kind is not supported. -/
def createNode (dv : Dev δ) (n : FibNode) : ApplyM δ Unit :=
  match routerFibInfo2gnmaAttr n.info with
  | none => Prog.fail (-1)
  | some attr => Prog.orFail (-1) (gnmaRouteCreate dv 0 (routerFibKey2gnmaPrefix n.key) attr)

/-- The body of the walk. -/
def applyEdit (dv : Dev δ) : Edit FibNode → ApplyM δ Unit
  | .upd n o =>
    if fibInfoCmp n.info o.info = 0 then return ()
    else do
      Prog.ignore (gnmaRouteRemove dv 0 (routerFibKey2gnmaPrefix n.key))
      createNode dv n
  | .del o => Prog.ignore (gnmaRouteRemove dv 0 (routerFibKey2gnmaPrefix o.key))
  | .add n => createNode dv n

/-- The cached table after its array was sorted through a copy of the descriptor: the flag of the
    cached descriptor is not touched. -/
def sortShared (qs : Qsort) (r : Table) : Table :=
  { r with
    arr := (ensureSorted qs r).arr
    len_le_max := (ensureSorted_perm qs r).length_eq ▸ r.len_le_max
    sorted_spec := fun _ => ensureSorted_sorted qs r }

/-- `config_router_apply`. -/
def configRouterApply (qs : Qsort) (dv : Dev δ) (cfg : PlatCfg) : ApplyM δ Unit := do
  let oldr := ensureSorted qs (← getCache).router
  let newr := ensureSorted qs (fibDbCopy cfg.router)
  modifyCache fun c => { c with router := sortShared qs c.router }
  forM (routerDbDiff newr oldr) (applyEdit dv)
  modifyCache fun c => { c with router := newr }

/-! ### Which failures are reported -/

section Reports

variable {ok : Op × Bool → Prop}

theorem reports_createNode (dv : Dev δ) (n : FibNode)
    (hc : ∀ p a, ok (.routeCreate p a, true)) : Reports ok (createNode dv n) := by
  unfold createNode
  cases routerFibInfo2gnmaAttr n.info with
  | none => exact reports_fail_neg_one
  | some attr =>
    refine reports_orFail_neg_one ?_
    rw [gnmaRouteCreate, if_neg (by simp)]
    exact reports_gnmiRequest dv _ (hc _ _)

theorem reports_ignore_remove (dv : Dev δ) (p : IpPrefix) (hr : ∀ p b, ok (.routeRemove p, b)) :
    Reports ok (Prog.ignore (gnmaRouteRemove dv 0 p)) := by
  refine reports_ignore ?_
  rw [gnmaRouteRemove, if_neg (by simp)]
  exact quiet_gnmiRequest dv _ (hr p)

theorem reports_applyEdit (dv : Dev δ) (e : Edit FibNode) (hc : ∀ p a, ok (.routeCreate p a, true))
    (hr : ∀ p b, ok (.routeRemove p, b)) : Reports ok (applyEdit dv e) := by
  cases e with
  | upd n o =>
    refine reports_ite (fun _ => reports_pure ()) (fun _ => ?_)
    exact reports_bind (reports_ignore_remove dv _ hr) (fun _ => reports_createNode dv n hc)
  | del o => exact reports_ignore_remove dv _ hr
  | add n => exact reports_createNode dv n hc

/-- Every failed create is reported; failed removes are not. -/
theorem reports_configRouterApply (qs : Qsort) (dv : Dev δ) (cfg : PlatCfg)
    (hc : ∀ p a, ok (.routeCreate p a, true)) (hr : ∀ p b, ok (.routeRemove p, b)) :
    Reports ok (configRouterApply qs dv cfg) := by
  refine reports_bind (reports_bind reports_getState fun _ => reports_pure _) (fun _ => ?_)
  refine reports_bind (reports_modifyState _) (fun _ => ?_)
  refine reports_bind (reports_forM _ fun e _ => reports_applyEdit dv e hc hr) (fun _ => ?_)
  exact reports_modifyState _

end Reports

end Ucentral.Router
