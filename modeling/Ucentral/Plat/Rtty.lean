import Mathlib.Data.Int.Notation
import Mathlib.Data.List.Nodup
import Ucentral.Lib.Run

/-! The sessions of the remote console.

    `plat_rtty` keeps the pids of its children in an array. A call first takes out the children that
    have died, closing each gap by a shift that blanks the last slot; then it looks for a free slot,
    kills the oldest session if there is none, and puts the result of `fork` there:

        before     p  q  r  0  -1        q has died
        scan       p  r  0 -1  -1
        fork       p  r  s -1  -1

    The kernel is modelled by what it knows of every session that was ever started. Children may die
    at any time; only `waitpid` makes the kernel forget one. -/

namespace Ucentral.Plat.Rtty

/-! ### The kernel -/

/-- A child as the kernel sees it. -/
structure Session where
  pid : ℤ
  running : Bool
  reaped : Bool
  deriving DecidableEq

/-- Is this the child that the pid stands for? A pid is free again once the child is reaped. -/
def Session.isChild (pid : ℤ) (x : Session) : Bool := !x.reaped && x.pid == pid

/-- The children that have not been reaped. -/
def unreaped (xs : List Session) : List Session := xs.filter (!·.reaped)

/-- These children die. -/
def die (dead : List ℤ) (xs : List Session) : List Session :=
  xs.map fun x => if dead.contains x.pid then { x with running := false } else x

/-- The kernel forgets a child. -/
def forget (pid : ℤ) (xs : List Session) : List Session :=
  xs.map fun x => if x.isChild pid then { x with running := false, reaped := true } else x

/-- `waitpid` with `WNOHANG`, which is not interrupted. -/
def waitpidNoHang (pid : ℤ) (xs : List Session) : ℤ × List Session :=
  match xs.find? (·.isChild pid) with
  | none => (-1, xs)
  | some x => if x.running then (0, xs) else (pid, forget pid xs)

/-- `waitpid`, called again when it is interrupted: it comes back when the child has died. -/
def waitpid (pid : ℤ) (xs : List Session) : ℤ × List Session :=
  match xs.find? (·.isChild pid) with
  | none => (-1, xs)
  | some _ => (pid, forget pid xs)

/-- `kill` with `SIGKILL`; a child that has died but is not reaped can still be sent a signal. -/
def kill (pid : ℤ) (xs : List Session) : ℤ × List Session :=
  match xs.find? (·.isChild pid) with
  | none => (-1, xs)
  | some _ => (0, xs.map fun x => if x.isChild pid then { x with running := false } else x)

/-! ### `plat_rtty` -/

/-- `RTTY_SESS_MAX`. -/
def sessMax : ℕ := 10

/-- The array, and every session started so far in the order of creation. -/
structure Sys where
  child : List ℤ
  sessions : List Session

/-- The pids of the children that have not been reaped. -/
def Sys.pids (s : Sys) : List ℤ := (unreaped s.sessions).map Session.pid

/-- These children die while nothing else happens. -/
def Sys.die (s : Sys) (dead : List ℤ) : Sys := { s with sessions := Rtty.die dead s.sessions }

/-- The `memmove` that closes the gap at `i`; the last slot keeps its value. -/
def shift (child : List ℤ) (i : ℕ) : List ℤ := child.eraseIdx i ++ child.getLast?.toList

/-- A turn of the loop that takes out the dead, after the deaths of these children: the slot it goes on
    with, and the new state. -/
def reapTurn (dead : List ℤ) (i : ℕ) (s : Sys) : ℕ × Sys :=
  let pid := s.child.getD i 0
  let xs := die dead s.sessions
  let w := if 0 < pid then waitpidNoHang pid xs else (0, xs)
  if w.1 ≤ 0 then (i + 1, { s with sessions := w.2 })
  else (i, { child := (shift s.child i).set (sessMax - 1) (-1), sessions := w.2 })

/-- The loop; `deaths n` are the children that die before its `n`th turn. -/
def reapLoop (deaths : ℕ → List ℤ) : ℕ → ℕ → Sys → Option Sys
  | 0, _, _ => none
  | fuel + 1, i, s =>
    if i < sessMax then
      let t := reapTurn (deaths 0) i s
      reapLoop (fun n => deaths (n + 1)) fuel t.1 t.2
    else some s

/-- Enough turns for the loop: a turn goes on to the next slot or takes out a child. -/
def reapFuel : ℕ := 2 * sessMax + 1

/-- Where the new session goes, and the pid of the session that was killed for it. -/
structure Place where
  sys : Sys
  i : ℕ
  killed : Option ℤ

/-- The search for a place, and what is done if there is none. -/
def findPlace (s : Sys) : Place :=
  let i := (s.child.takeWhile fun pid => decide (0 < pid)).length
  if i = sessMax then
    let oldest := s.child.getD 0 0
    if oldest ≤ 0 then ⟨s, sessMax - 1, none⟩
    else
      let k := kill oldest s.sessions
      let xs := if k.1 ≠ 0 then k.2 else (waitpid oldest k.2).2
      ⟨{ child := shift s.child 0, sessions := xs }, sessMax - 1, some oldest⟩
  else ⟨s, i, none⟩

/-- What happens around a call: who dies before each turn of the loop and after it, and what `fork`
    returns in the parent. -/
structure Call where
  deaths : ℕ → List ℤ
  late : List ℤ
  fork : Option ℤ

/-- `plat_rtty` up to the `fork`. -/
def beforeFork (c : Call) (s : Sys) : Option Place :=
  (reapLoop c.deaths reapFuel 0 s).map fun s => findPlace (s.die c.late)

/-- The `fork`: the new state, and what `plat_rtty` returns in the parent. -/
def forkAt (i : ℕ) (fork : Option ℤ) (s : Sys) : Sys × ℤ :=
  match fork with
  | none => ({ s with child := s.child.set i (-1) }, -1)
  | some pid =>
    ({ child := s.child.set i pid, sessions := s.sessions ++ [⟨pid, true, false⟩] }, 0)

/-- `plat_rtty`. -/
def platRtty (c : Call) (s : Sys) : Option (Sys × ℤ) :=
  (beforeFork c s).map fun p => forkAt p.i c.fork p.sys

/-- The array is zero at first. -/
def init : Sys := ⟨List.replicate sessMax 0, []⟩

/-! ### The array follows the kernel -/

/-- No session that is running has been reaped. -/
def Live (xs : List Session) : Prop := ∀ x ∈ xs, x.running = true → x.reaped = false

/-- The array holds the pids of the children that have not been reaped, oldest first, and blanks after
    them. -/
structure Tracks (s : Sys) : Prop where
  size : s.child.length = sessMax
  slots : ∃ rest, s.child = s.pids ++ rest ∧ ∀ y ∈ rest, y ≤ 0
  pos : ∀ pid ∈ s.pids, 0 < pid
  nodup : s.pids.Nodup
  live : Live s.sessions

theorem tracks_init : Tracks init := by
  refine ⟨rfl, ⟨List.replicate sessMax 0, rfl, fun y hy => ?_⟩, nofun, List.nodup_nil, nofun⟩
  exact Int.le_of_eq (List.eq_of_mem_replicate hy)

/-! ### What the kernel calls leave -/

section Kernel

variable {xs : List Session}

/-- A change that reaps nobody leaves the pids as they are. -/
theorem pids_map {f : Session → Session} (hr : ∀ x, (f x).reaped = x.reaped)
    (hp : ∀ x, (f x).pid = x.pid) (xs : List Session) :
    (unreaped (xs.map f)).map Session.pid = (unreaped xs).map Session.pid := by
  induction xs with
  | nil => rfl
  | cons x xs ih =>
    simp only [unreaped, List.map_cons, List.filter_cons, hr] at ih ⊢
    split
    · rw [List.map_cons, List.map_cons, ih, hp]
    · exact ih

theorem pids_die (dead : List ℤ) (xs : List Session) :
    (unreaped (die dead xs)).map Session.pid = (unreaped xs).map Session.pid := by
  refine pids_map (fun x => ?_) (fun x => ?_) xs <;> split <;> rfl

/-- A change that stops those it changes keeps the others as they are. -/
theorem live_map {f : Session → Session} (hf : ∀ x, (f x).running = true → f x = x) (h : Live xs) :
    Live (xs.map f) := by
  intro x hx hrun
  obtain ⟨y, hy, rfl⟩ := List.mem_map.mp hx
  have hsame := hf y hrun
  rw [hsame] at hrun ⊢
  exact h y hy hrun

theorem live_die (dead : List ℤ) (h : Live xs) : Live (die dead xs) := by
  refine live_map (fun x hx => ?_) h
  split at hx
  · cases hx
  · next hd => rw [if_neg hd]

theorem live_forget (pid : ℤ) (h : Live xs) : Live (forget pid xs) := by
  refine live_map (fun x hx => ?_) h
  split at hx
  · cases hx
  · next hd => rw [if_neg hd]

theorem pids_forget (pid : ℤ) (xs : List Session) :
    (unreaped (forget pid xs)).map Session.pid =
      ((unreaped xs).map Session.pid).filter (· != pid) := by
  induction xs with
  | nil => rfl
  | cons x xs ih =>
    simp only [forget, unreaped, List.map_cons, List.filter_cons] at ih ⊢
    cases hr : x.reaped with
    | true => simpa [Session.isChild, hr] using ih
    | false =>
      by_cases hp : x.pid = pid
      · simpa [Session.isChild, hr, hp] using ih
      · simpa [Session.isChild, hr, hp] using ih

/-- Either nobody is reaped, or the child of that pid. -/
theorem waitpidNoHang_cases {pid : ℤ} (hpid : 0 < pid) (xs : List Session) :
    ((waitpidNoHang pid xs).1 ≤ 0 ∧ (waitpidNoHang pid xs).2 = xs) ∨
      (0 < (waitpidNoHang pid xs).1 ∧ (waitpidNoHang pid xs).2 = forget pid xs) := by
  unfold waitpidNoHang
  split
  · exact Or.inl ⟨show (-1 : ℤ) ≤ 0 by decide, rfl⟩
  · split
    · exact Or.inl ⟨Int.le_refl 0, rfl⟩
    · exact Or.inr ⟨hpid, rfl⟩

/-- A pid in the table is that of a child. -/
theorem find?_isChild {pid : ℤ} (h : pid ∈ (unreaped xs).map Session.pid) :
    ∃ x, xs.find? (·.isChild pid) = some x := by
  obtain ⟨x, hx, rfl⟩ := List.mem_map.mp h
  obtain ⟨hmem, hr⟩ := List.mem_filter.mp hx
  exact Option.isSome_iff_exists.mp (List.find?_isSome.mpr ⟨x, hmem, by simp_all [Session.isChild]⟩)

/-- A child that is killed and waited for is reaped. -/
theorem waitpid_kill {pid : ℤ} (h : pid ∈ (unreaped xs).map Session.pid) :
    (kill pid xs).1 = 0 ∧ (unreaped (waitpid pid (kill pid xs).2).2).map Session.pid =
      ((unreaped xs).map Session.pid).filter (· != pid) := by
  obtain ⟨x, hx⟩ := find?_isChild h
  have hkill : kill pid xs =
      (0, xs.map fun x => if x.isChild pid then { x with running := false } else x) := by
    rw [kill, hx]
  have hpids : (unreaped (kill pid xs).2).map Session.pid = (unreaped xs).map Session.pid := by
    rw [hkill]
    refine pids_map (fun x => ?_) (fun x => ?_) xs <;> split <;> rfl
  obtain ⟨y, hy⟩ := find?_isChild (hpids.symm ▸ h)
  refine ⟨by rw [hkill], ?_⟩
  rw [waitpid, hy, ← hpids]
  exact pids_forget pid _

theorem live_waitpid_kill (pid : ℤ) (h : Live xs) : Live (waitpid pid (kill pid xs).2).2 := by
  have hkill : Live (kill pid xs).2 := by
    unfold kill
    split
    · exact h
    · refine live_map (fun x hx => ?_) h
      split at hx
      · cases hx
      · next hd => rw [if_neg hd]
  unfold waitpid
  split
  · exact hkill
  · exact live_forget pid hkill

end Kernel

/-! ### The array -/

section Slots

variable {child : List ℤ} {i : ℕ}

/-- A shift takes out the slot `i`; the last value stands at the end once more. -/
theorem shift_eq (hsize : child.length = sessMax) (hi : i < child.length) :
    (child.eraseIdx i).length = sessMax - 1 ∧ ∃ y, shift child i = child.eraseIdx i ++ [y] := by
  refine ⟨by rw [List.length_eraseIdx_of_lt hi, hsize], ?_⟩
  cases h : child.getLast? with
  | none =>
    rw [List.getLast?_eq_none_iff.mp h] at hsize
    cases hsize
  | some y => exact ⟨y, by rw [shift, h]; rfl⟩

theorem set_shift (hsize : child.length = sessMax) (hi : i < child.length) (y : ℤ) :
    (shift child i).set (sessMax - 1) y = child.eraseIdx i ++ [y] := by
  obtain ⟨hlen, a, ha⟩ := shift_eq hsize hi
  rw [ha, ← hlen, List.set_append_right _ _ (Nat.le_refl _), Nat.sub_self]
  rfl

/-- A positive slot holds the pid of a child, and taking it out takes out that pid alone. -/
theorem eraseIdx_slots {pids rest : List ℤ} (hchild : child = pids ++ rest)
    (hrest : ∀ y ∈ rest, y ≤ 0) (hnodup : pids.Nodup) (hi : 0 < child.getD i 0) :
    child.getD i 0 ∈ pids ∧
      child.eraseIdx i = pids.filter (· != child.getD i 0) ++ rest := by
  rw [hchild, List.getD_eq_getElem?_getD] at hi ⊢
  rcases Nat.lt_or_ge i pids.length with hlt | hge
  · have hget : (pids ++ rest)[i]?.getD 0 = pids[i] := by
      rw [List.getElem?_append_left hlt, List.getElem?_eq_getElem hlt]
      rfl
    rw [hget, List.eraseIdx_append_of_lt_length hlt]
    refine ⟨List.getElem_mem hlt, ?_⟩
    rw [← hnodup.erase_eq_filter, hnodup.erase_getElem]
  · rw [List.getElem?_append_right hge] at hi
    cases hy : rest[i - pids.length]? with
    | none => simp [hy] at hi
    | some y =>
      have hle := hrest y (List.mem_of_getElem? hy)
      rw [hy, Option.getD_some] at hi
      omega

/-- The search stops behind the children. -/
theorem takeWhile_slots {pids rest : List ℤ} (hpos : ∀ pid ∈ pids, 0 < pid)
    (hrest : ∀ y ∈ rest, y ≤ 0) :
    (pids ++ rest).takeWhile (fun pid => decide (0 < pid)) = pids := by
  rw [List.takeWhile_append_of_pos (fun pid hp => decide_eq_true (hpos pid hp))]
  cases rest with
  | nil => exact List.append_nil pids
  | cons y rest =>
    have hy : ¬ 0 < y := Int.not_lt.mpr (hrest y List.mem_cons_self)
    rw [List.takeWhile_cons_of_neg (by simpa using hy), List.append_nil]

end Slots

/-! ### One call -/

variable {s : Sys}

theorem Tracks.die (h : Tracks s) (dead : List ℤ) : Tracks (s.die dead) := by
  have hpids : (s.die dead).pids = s.pids := pids_die dead s.sessions
  exact ⟨h.size, hpids ▸ h.slots, hpids ▸ h.pos, hpids ▸ h.nodup, live_die dead h.live⟩

theorem lt_of_getD_pos {child : List ℤ} {i : ℕ} (hi : 0 < child.getD i 0) : i < child.length := by
  by_contra hge
  rw [List.getD_eq_getElem?_getD, List.getElem?_eq_none (Nat.le_of_not_lt hge)] at hi
  exact absurd hi (Int.lt_irrefl 0)

/-- The slot of a child that is reaped is closed, and something else comes to stand at the end. -/
theorem slots_forget (h : Tracks s) {i : ℕ} (hi : 0 < s.child.getD i 0) (y : ℤ) :
    s.child.getD i 0 ∈ s.pids ∧ ∃ rest, (∀ z ∈ rest, z ≤ 0) ∧
      s.pids.length + rest.length = sessMax ∧
      (shift s.child i).set (sessMax - 1) y =
        s.pids.filter (· != s.child.getD i 0) ++ (rest ++ [y]) := by
  obtain ⟨rest, hchild, hrest⟩ := h.slots
  obtain ⟨hmem, herase⟩ := eraseIdx_slots hchild hrest h.nodup hi
  refine ⟨hmem, rest, hrest, ?_, ?_⟩
  · rw [← List.length_append, ← hchild, h.size]
  · rw [set_shift h.size (lt_of_getD_pos hi), herase, List.append_assoc]

theorem length_filter_ne {pid : ℤ} {pids : List ℤ} (hnodup : pids.Nodup) (hmem : pid ∈ pids) :
    (pids.filter (· != pid)).length + 1 = pids.length := by
  rw [← hnodup.erase_eq_filter, List.length_erase_of_mem hmem]
  have := List.length_pos_of_mem hmem
  omega

/-- A child that is taken out of the array when it is reaped leaves no trace there. -/
theorem Tracks.reap (h : Tracks s) {i : ℕ} (hi : 0 < s.child.getD i 0) (t : Sys)
    (ht : t = { child := (shift s.child i).set (sessMax - 1) (-1),
                sessions := forget (s.child.getD i 0) s.sessions }) :
    Tracks t ∧ t.pids.length < s.pids.length := by
  obtain ⟨hmem, rest, hrest, hsize, hchild⟩ := slots_forget h hi (-1)
  have hpids : t.pids = s.pids.filter (· != s.child.getD i 0) := by
    rw [ht]
    exact pids_forget _ _
  have hlen := length_filter_ne h.nodup hmem
  subst ht
  refine ⟨⟨?_, ⟨rest ++ [-1], ?_, ?_⟩, ?_, ?_, live_forget _ h.live⟩, ?_⟩
  · rw [hchild, List.length_append, List.length_append, List.length_singleton]
    omega
  · rw [hpids]
    exact hchild
  · intro y hy
    rcases List.mem_append.mp hy with hy | hy
    · exact hrest y hy
    · rw [List.mem_singleton.mp hy]
      decide
  · rw [hpids]
    exact fun pid hp => h.pos pid (List.mem_of_mem_filter hp)
  · rw [hpids]
    exact h.nodup.filter _
  · rw [hpids]
    omega

/-- A turn goes on to the next slot or has one child less to look after. -/
theorem reapTurn_spec (h : Tracks s) (dead : List ℤ) {i : ℕ} (hi : i < sessMax) :
    Tracks (reapTurn dead i s).2 ∧
      sessMax - (reapTurn dead i s).1 + (reapTurn dead i s).2.pids.length <
        sessMax - i + s.pids.length := by
  have hdie := h.die dead
  have hlen : (s.die dead).pids.length = s.pids.length :=
    congrArg List.length (pids_die dead s.sessions)
  have hnext : sessMax - (i + 1) + s.pids.length < sessMax - i + s.pids.length := by omega
  rw [← hlen] at hnext ⊢
  unfold reapTurn
  dsimp only
  by_cases hpid : 0 < s.child.getD i 0
  · rw [if_pos hpid]
    rcases waitpidNoHang_cases hpid (die dead s.sessions) with ⟨hle, hsame⟩ | ⟨hgt, hforget⟩
    · rw [if_pos hle, hsame]
      exact ⟨hdie, hnext⟩
    · rw [if_neg (Int.not_le.mpr hgt), hforget]
      obtain ⟨htracks, hless⟩ := hdie.reap hpid _ rfl
      exact ⟨htracks, Nat.add_lt_add_left hless _⟩
  · rw [if_neg hpid, if_pos (Int.le_refl 0)]
    exact ⟨hdie, hnext⟩

/-- The scan comes to its end. -/
theorem reapLoop_spec (fuel : ℕ) : ∀ (deaths : ℕ → List ℤ) (i : ℕ) (s : Sys), Tracks s →
    sessMax - i + s.pids.length < fuel →
    ∃ s', reapLoop deaths fuel i s = some s' ∧ Tracks s' := by
  induction fuel with
  | zero => exact fun _ _ _ _ hf => absurd hf (Nat.not_lt_zero _)
  | succ fuel ih =>
    intro deaths i s h hf
    rw [reapLoop]
    split
    · next hi =>
      obtain ⟨htracks, hless⟩ := reapTurn_spec h (deaths 0) hi
      exact ih _ _ _ htracks (by omega)
    · exact ⟨s, rfl, h⟩

theorem Tracks.length_le (h : Tracks s) : s.pids.length ≤ sessMax := by
  obtain ⟨rest, hchild, -⟩ := h.slots
  rw [← h.size, hchild, List.length_append]
  exact Nat.le_add_right ..

/-- Turns that are left over change nothing. -/
theorem reapLoop_mono : ∀ (fuel more : ℕ) (deaths : ℕ → List ℤ) (i : ℕ) (s s' : Sys),
    reapLoop deaths fuel i s = some s' → reapLoop deaths (fuel + more) i s = some s'
  | 0, _, _, _, _, _, h => nomatch h
  | fuel + 1, more, deaths, i, s, s', h => by
      rw [Nat.add_right_comm, reapLoop]
      rw [reapLoop] at h
      split at h
      · next hi =>
        rw [if_pos hi]
        exact reapLoop_mono fuel more _ _ _ _ h
      · next hi =>
        rw [if_neg hi]
        exact h

theorem reapLoop_enough (h : Tracks s) (deaths : ℕ → List ℤ) :
    ∃ s', Tracks s' ∧ ∀ fuel, reapFuel ≤ fuel → reapLoop deaths fuel 0 s = some s' := by
  obtain ⟨s', hs', htracks⟩ := reapLoop_spec reapFuel deaths 0 s h (by
    have := h.length_le
    rw [reapFuel]
    omega)
  refine ⟨s', htracks, fun fuel hf => ?_⟩
  obtain ⟨more, rfl⟩ := Nat.exists_eq_add_of_le hf
  exact reapLoop_mono reapFuel more deaths 0 s s' hs'

/-- Room for a session: the children's pids, the slot `i` behind them, and blanks. -/
structure Ready (p : Place) : Prop where
  size : p.sys.child.length = sessMax
  slots : ∃ y rest, p.sys.child = p.sys.pids ++ y :: rest ∧ ∀ z ∈ rest, z ≤ 0
  here : p.i = p.sys.pids.length
  pos : ∀ pid ∈ p.sys.pids, 0 < pid
  nodup : p.sys.pids.Nodup
  live : Live p.sys.sessions

section Full

variable {oldest : ℤ} {younger : List ℤ}

theorem oldest_slot (h : Tracks s) (hpids : s.pids = oldest :: younger) :
    s.child.getD 0 0 = oldest ∧ 0 < oldest := by
  obtain ⟨rest, hchild, -⟩ := h.slots
  refine ⟨?_, h.pos oldest (hpids ▸ List.mem_cons_self)⟩
  rw [hchild, hpids]
  rfl

/-- Killing the oldest session of a full array leaves the last slot for the new one. -/
theorem ready_kill (h : Tracks s) (hpids : s.pids = oldest :: younger)
    (hfull : s.pids.length = sessMax) :
    Ready ⟨⟨shift s.child 0, (waitpid oldest (kill oldest s.sessions).2).2⟩, sessMax - 1,
      some oldest⟩ := by
  obtain ⟨rest, hchild, hrest⟩ := h.slots
  obtain ⟨hslot, hpos⟩ := oldest_slot h hpids
  have hmem : oldest ∈ s.pids := hpids ▸ List.mem_cons_self
  have hlt : 0 < s.child.length := lt_of_getD_pos (by rwa [hslot])
  obtain ⟨-, herase⟩ := eraseIdx_slots hchild hrest h.nodup (i := 0) (by rwa [hslot])
  obtain ⟨-, y, hshift⟩ := shift_eq h.size hlt
  have hnil : rest = [] := by
    have hsize := h.size
    rw [hchild, List.length_append, hfull] at hsize
    exact List.eq_nil_of_length_eq_zero (by omega)
  rw [hslot, hnil, List.append_nil] at herase
  have hleft : Sys.pids ⟨shift s.child 0, (waitpid oldest (kill oldest s.sessions).2).2⟩ =
      s.pids.filter (· != oldest) := (waitpid_kill hmem).2
  refine ⟨?_, ⟨y, [], ?_, nofun⟩, ?_, ?_, ?_, live_waitpid_kill oldest h.live⟩
  · rw [hshift, List.length_append, List.length_eraseIdx_of_lt hlt, h.size]
    rfl
  · rw [hleft, hshift, herase]
  · rw [hleft]
    have hlen := length_filter_ne h.nodup hmem
    dsimp only
    omega
  · rw [hleft]
    exact fun pid hp => h.pos pid (List.mem_of_mem_filter hp)
  · rw [hleft]
    exact h.nodup.filter _

end Full

/-- A session is killed if there is no free slot, and it is the oldest one. -/
theorem ready_findPlace (h : Tracks s) : Ready (findPlace s) ∧
    (findPlace s).killed = if s.pids.length = sessMax then s.pids.head? else none := by
  obtain ⟨rest, hchild, hrest⟩ := h.slots
  have hi : (s.child.takeWhile fun pid => decide (0 < pid)) = s.pids := by
    rw [hchild]
    exact takeWhile_slots h.pos hrest
  unfold findPlace
  rw [hi]
  dsimp only
  split
  · next hfull =>
    cases hpids : s.pids with
    | nil =>
      rw [hpids] at hfull
      cases hfull
    | cons oldest younger =>
      obtain ⟨hslot, hpos⟩ := oldest_slot h hpids
      have hmem : oldest ∈ s.pids := hpids ▸ List.mem_cons_self
      have hkill : (kill oldest s.sessions).1 = 0 := (waitpid_kill hmem).1
      rw [hslot, if_neg (Int.not_le.mpr hpos), if_neg (not_not_intro hkill)]
      exact ⟨ready_kill h hpids hfull, rfl⟩
  · next hfree =>
    refine ⟨⟨h.size, ?_, rfl, h.pos, h.nodup, h.live⟩, rfl⟩
    cases hr : rest with
    | nil =>
      rw [hr, List.append_nil] at hchild
      exact absurd (hchild ▸ h.size) hfree
    | cons y rest' =>
      rw [hr] at hchild hrest
      exact ⟨y, rest', hchild, fun z hz => hrest z (List.mem_cons_of_mem _ hz)⟩

/-- `fork` fills the place. -/
theorem tracks_forkAt {p : Place} (h : Ready p) {fork : Option ℤ}
    (hfork : ∀ pid, fork = some pid → 0 < pid ∧ pid ∉ p.sys.pids) :
    Tracks (forkAt p.i fork p.sys).1 := by
  obtain ⟨y, rest, hchild, hrest⟩ := h.slots
  have hset : ∀ z, p.sys.child.set p.i z = p.sys.pids ++ z :: rest := fun z => by
    rw [hchild, h.here, List.set_append_right _ _ (Nat.le_refl _), Nat.sub_self]
    rfl
  have hsize : ∀ z, (p.sys.child.set p.i z).length = sessMax := fun z => by
    rw [List.length_set, h.size]
  cases fork with
  | none =>
    refine ⟨hsize (-1), ⟨-1 :: rest, hset (-1), ?_⟩, h.pos, h.nodup, h.live⟩
    intro z hz
    rcases List.mem_cons.mp hz with rfl | hz
    · decide
    · exact hrest z hz
  | some pid =>
    obtain ⟨hpos, hnew⟩ := hfork pid rfl
    have hpids : (forkAt p.i (some pid) p.sys).1.pids = p.sys.pids ++ [pid] := by
      simp [forkAt, Sys.pids, unreaped]
    refine ⟨hsize pid, ⟨rest, ?_, hrest⟩, ?_, ?_, ?_⟩
    · rw [hpids, List.append_assoc]
      exact hset pid
    · rw [hpids]
      intro q hq
      rcases List.mem_append.mp hq with hq | hq
      · exact h.pos q hq
      · rw [List.mem_singleton.mp hq]
        exact hpos
    · rw [hpids]
      exact List.concat_eq_append ▸ h.nodup.concat hnew
    · intro x hx hrun
      rcases List.mem_append.mp hx with hx | hx
      · exact h.live x hx hrun
      · rw [List.mem_singleton.mp hx]

/-! ### Runs of calls -/

/-- The array as a table of sessions: pids of sessions in the order in which they were started, none
    twice, then blanks; and every session that is running is there. -/
def Table (s : Sys) : Prop :=
  ∃ (kept : List Session) (rest : List ℤ), s.child = kept.map Session.pid ++ rest ∧ kept.Sublist s.sessions ∧
    kept.length ≤ sessMax ∧ (∀ x ∈ kept, 0 < x.pid) ∧ (kept.map Session.pid).Nodup ∧
    (∀ y ∈ rest, y ≤ 0) ∧ ∀ x ∈ s.sessions, x.running = true → x ∈ kept

theorem Tracks.table (h : Tracks s) : Table s := by
  obtain ⟨rest, hchild, hrest⟩ := h.slots
  refine ⟨unreaped s.sessions, rest, hchild, List.filter_sublist, ?_, fun x hx => ?_, h.nodup, hrest,
    fun x hx hrun => ?_⟩
  · have := h.length_le
    rwa [Sys.pids, List.length_map] at this
  · exact h.pos x.pid (List.mem_map_of_mem hx)
  · exact List.mem_filter.mpr ⟨hx, by simp [h.live x hx hrun]⟩

/-- The state after a call. -/
def step (s : Sys) (c : Call) : Sys := ((platRtty c s).map Prod.fst).getD s

/-- `fork` returns no pid that a child already has. -/
def Fresh (s : Sys) (c : Call) : Prop :=
  ∀ pid, c.fork = some pid → 0 < pid ∧ ∀ p, beforeFork c s = some p → pid ∉ p.sys.pids

/-- The scan comes to its end, however many turns it is given; a session is killed exactly if the
    table is full after it, and then it is the oldest one; and the call leaves a table. -/
def Good (s : Sys) (c : Call) : Prop :=
  ∃ scanned, (∀ fuel, reapFuel ≤ fuel → reapLoop c.deaths fuel 0 s = some scanned) ∧
    (findPlace (scanned.die c.late)).killed =
      (if (unreaped (scanned.die c.late).sessions).length = sessMax then
        (unreaped (scanned.die c.late).sessions).head?.map Session.pid
      else none) ∧
    ∃ r, platRtty c s = some (step s c, r) ∧ Table (step s c)

theorem tracks_call (h : Tracks s) {c : Call} (hc : Fresh s c) : Tracks (step s c) ∧ Good s c := by
  obtain ⟨scanned, htracks, hloop⟩ := reapLoop_enough h c.deaths
  obtain ⟨hready, hkilled⟩ := ready_findPlace (htracks.die c.late)
  have hbefore : beforeFork c s = some (findPlace (scanned.die c.late)) := by
    rw [beforeFork, hloop reapFuel (Nat.le_refl _)]
    rfl
  generalize hp : findPlace (scanned.die c.late) = p at hready hkilled hbefore
  have hcall : platRtty c s = some (forkAt p.i c.fork p.sys) := by
    rw [platRtty, hbefore]
    rfl
  have hstep : step s c = (forkAt p.i c.fork p.sys).1 := by
    rw [step, hcall]
    rfl
  have hafter : Tracks (step s c) := by
    rw [hstep]
    exact tracks_forkAt hready fun pid hp => ⟨(hc pid hp).1, (hc pid hp).2 p hbefore⟩
  refine ⟨hafter, scanned, hloop, ?_, (forkAt p.i c.fork p.sys).2, ?_, hafter.table⟩
  · rw [hp, ← List.head?_map, ← List.length_map Session.pid]
    exact hkilled
  · rw [hcall, hstep]

/-- Whoever dies at whatever time and whatever `fork` returns, the array stays a table of the sessions
    that run. -/
theorem platRtty_table (cs : List Call) (h : Run.EveryStep step Fresh init cs) :
    Run.EveryStep step Good init cs :=
  Run.everyStep_of_invariant (I := Tracks) (fun _ _ h hc => tracks_call h hc) cs tracks_init h

theorem fresh_of_empty {c : Call} {pid : ℤ} (hfork : c.fork = some pid) (hpos : 0 < pid)
    (h : (beforeFork c s).map (fun p => p.sys.pids) = some []) : Fresh s c := by
  intro q hq
  rw [hfork] at hq
  cases hq
  refine ⟨hpos, fun p hp => ?_⟩
  rw [hp] at h
  have hnil : p.sys.pids = [] := Option.some.inj h
  rw [hnil]
  exact List.not_mem_nil

/-- A session is started, dies, and the next one gets its pid. -/
theorem platRtty_table_twice :
    Run.EveryStep step Good init [⟨fun _ => [], [], some 7⟩, ⟨fun _ => [7], [], some 7⟩] := by
  refine platRtty_table _ ?_
  rw [Run.everyStep_cons, Run.everyStep_cons]
  exact ⟨fresh_of_empty rfl (by decide) (by decide), fresh_of_empty rfl (by decide) (by decide),
    Run.everyStep_nil _⟩

end Ucentral.Plat.Rtty
