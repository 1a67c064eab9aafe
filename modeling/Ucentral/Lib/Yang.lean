import Ucentral.Lib.Json
import Mathlib.Data.List.TakeWhile
import Mathlib.Logic.Function.Basic

/-! A server of configuration data.

    The data are leaves, which paths lead to. A set gives the value of one leaf, or of several leaves of
    a container or of an entry of a list; a get is answered in the same form, a JSON object with one
    member that has the qualified name of what has been asked for. What is configured is applied, so
    that the state of a leaf can be read beside its configuration. -/

namespace Yang
open CJson

abbrev Path := List Char

/-- The child `name` of a node. -/
def child (p : Path) (name : String) : Path := p ++ '/' :: name.toList

theorem child_inj {p : Path} {name name' : String} (h : child p name = child p name') : name = name' := by
  have htail := List.append_cancel_left h
  injection htail with _ hname
  exact String.toList_inj.mp hname

/-- The leaves that a set gives. -/
def given (p : Path) : Json → List (Path × Json)
  | .obj [(_, .obj ms)] => ms.map fun m => (child p m.1, m.2)
  | .obj [(_, .arr [.obj ms])] => ms.map fun m => (child p m.1, m.2)
  | .obj [(_, v)] => [(p, v)]
  | _ => []

abbrev Leaves := Path → Option Json

def store (l : Leaves) (ls : List (Path × Json)) : Leaves :=
  ls.foldl (fun l g => Function.update l g.1 (some g.2)) l

@[simp] theorem store_nil (l : Leaves) : store l [] = l := rfl

theorem store_cons (l : Leaves) (g : Path × Json) (ls : List (Path × Json)) :
    store l (g :: ls) = store (Function.update l g.1 (some g.2)) ls := rfl

/-- The leaves that are not given stay. -/
theorem store_ne {p : Path} {ls : List (Path × Json)} (h : ∀ g ∈ ls, g.1 ≠ p) : ∀ l : Leaves,
    store l ls p = l p := by
  induction ls with
  | nil => intro l; rfl
  | cons g ls ih =>
    intro l
    rw [store_cons, ih fun g' hg' => h g' (List.mem_cons_of_mem g hg')]
    exact Function.update_of_ne (h g List.mem_cons_self).symm (some g.2) l

/-! ### Names -/

/-- The last part of a path, without the key of an entry. -/
def lastName (p : Path) : List Char := ((p.reverse.takeWhile (· ≠ '/')).reverse).takeWhile (· ≠ '[')

/-- The module that the first part of a path names. -/
def moduleName (p : Path) : List Char := (p.drop 1).takeWhile (· ≠ ':')

/-- The name by which an answer calls what the path leads to. -/
def qualified (p : Path) : String := String.ofList (moduleName p ++ ':' :: lastName p)

/-- A condition on every character, which can be checked one by one. -/
theorem forall_of_all {P : Char → Prop} [DecidablePred P] {xs : List Char}
    (h : (xs.all fun c => decide (P c)) = true) : ∀ c ∈ xs, P c := by
  simpa using h

theorem takeWhile_append_cons {p : Char → Bool} {xs : List Char} {c : Char} (ys : List Char)
    (h : ∀ x ∈ xs, p x = true) (hc : p c = false) : (xs ++ c :: ys).takeWhile p = xs := by
  rw [List.takeWhile_append_of_pos h]
  simp [hc]

theorem lastName_append (p : Path) {name key : List Char} (hname : ∀ c ∈ name, c ≠ '/' ∧ c ≠ '[')
    (hkey : '/' ∉ key) : lastName (p ++ '/' :: (name ++ '[' :: key)) = name := by
  have hlast : (p ++ '/' :: (name ++ '[' :: key)).reverse.takeWhile (· ≠ '/') =
      (name ++ '[' :: key).reverse := by
    rw [List.reverse_append, List.reverse_cons, List.append_assoc]
    refine takeWhile_append_cons _ ?_ (by decide)
    intro c hc
    rw [List.mem_reverse, List.mem_append, List.mem_cons] at hc
    rcases hc with hc | rfl | hc
    · simpa using (hname c hc).1
    · decide
    · simpa using fun heq : c = '/' => hkey (heq ▸ hc)
  rw [lastName, hlast, List.reverse_reverse]
  exact takeWhile_append_cons _ (fun c hc => by simpa using (hname c hc).2) (by decide)

/-- The same for a leaf. -/
theorem lastName_leaf (p : Path) {name : List Char} (hname : ∀ c ∈ name, c ≠ '/' ∧ c ≠ '[') :
    lastName (p ++ '/' :: name) = name := by
  have hlast : (p ++ '/' :: name).reverse.takeWhile (· ≠ '/') = name.reverse := by
    rw [List.reverse_append, List.reverse_cons, List.append_assoc]
    refine takeWhile_append_cons _ ?_ (by decide)
    intro c hc
    simpa using (hname c (List.mem_reverse.mp hc)).1
  rw [lastName, hlast, List.reverse_reverse]
  exact List.takeWhile_eq_self_iff.mpr fun c hc => by simpa using (hname c hc).2

/-! ### Configuration and state -/

/-- The parts of a path, the last one and what is before it, both reversed. -/
def split (p : Path) : List Char × List Char :=
  (p.reverse.takeWhile (· ≠ '/'), p.reverse.dropWhile (· ≠ '/'))

theorem split_child (p : Path) {name : String} (h : '/' ∉ name.toList) :
    split (child p name) = (name.toList.reverse, '/' :: p.reverse) := by
  have hall : ∀ c ∈ name.toList.reverse, decide (c ≠ '/') = true := by
    intro c hc
    simpa using fun heq : c = '/' => h (heq ▸ List.mem_reverse.mp hc)
  have hrev : (child p name).reverse = name.toList.reverse ++ '/' :: p.reverse := by simp [child]
  unfold split
  rw [hrev, takeWhile_append_cons _ hall (by decide), List.dropWhile_append_of_pos hall]
  rfl

/-- The configuration that a path leads to: of a state, the leaf of the same name beside it. -/
def configured (p : Path) : Path :=
  let (name, rest) := split p
  if "/etats/".toList <+: rest then child (child (rest.drop 7).reverse "config") (String.ofList name.reverse)
  else p

theorem configured_state (p : Path) {name : String} (h : '/' ∉ name.toList) :
    configured (child (child p "state") name) = child (child p "config") name := by
  have hsplit := split_child (child p "state") h
  have hrev : '/' :: (child p "state").reverse = "/etats/".toList ++ p.reverse := by simp [child]
  rw [hrev] at hsplit
  simp [configured, hsplit]

theorem configured_of_not {p : Path} {name : String} (h : '/' ∉ name.toList)
    (hp : ¬ "etats/".toList <+: p.reverse) : configured (child p name) = child p name := by
  have hnot : ¬ "/etats/".toList <+: '/' :: p.reverse := by
    intro hpre
    exact hp (List.cons_prefix_cons.mp hpre).2
  simp only [configured, split_child p h, if_neg hnot]

/-! ### Servers -/

/-- A server with state `δ`: whether a set is granted is up to it. -/
structure Server (δ : Type) where
  set : Path → Json → δ → Bool × δ
  get : Path → δ → Option Json × δ
  leaf : δ → Leaves
  granted : ∀ p v d, (set p v d).1 = true → leaf (set p v d).2 = store (leaf d) (given p v)
  refused : ∀ p v d, (set p v d).1 = false → leaf (set p v d).2 = leaf d
  get_leaf : ∀ p d v, leaf d (configured p) = some v → (get p d).1 = some (.obj [(qualified p, v)])
  get_entry : ∀ p d, leaf d (configured p) = none → (∃ name, (leaf d (child p name)).isSome = true) →
    ∃ ms, (get p d).1 = some (.obj [(qualified p, .arr [.obj ms])]) ∧
      ∀ name, getItem (some (.obj ms)) name = leaf d (child p name)
  get_none : ∀ p d, leaf d (configured p) = none → (∀ name, leaf d (child p name) = none) → (get p d).1 = none
  get_keeps : ∀ p d, leaf (get p d).2 = leaf d

/-! ### A server with a list of leaves -/

/-- The leaf at a path; what has been set last comes first. -/
def leafOf (ls : List (Path × Json)) : Leaves := fun p => (ls.find? fun g => g.1 = p).map (·.2)

theorem leafOf_cons (g : Path × Json) (ls : List (Path × Json)) :
    leafOf (g :: ls) = Function.update (leafOf ls) g.1 (some g.2) := by
  funext p
  by_cases h : p = g.1
  · subst h
    simp [leafOf]
  · rw [Function.update_of_ne h]
    simp [leafOf, List.find?_cons_of_neg, Ne.symm h]

theorem leafOf_reverse_append (gs ls : List (Path × Json)) :
    leafOf (gs.reverse ++ ls) = store (leafOf ls) gs := by
  induction gs generalizing ls with
  | nil => rfl
  | cons g gs ih =>
    rw [List.reverse_cons, List.append_assoc, store_cons, ← leafOf_cons]
    exact ih (g :: ls)

/-- The name of a child, if the path is one. -/
def below (p q : Path) : Option String :=
  if p ++ ['/'] <+: q then some (String.ofList (q.drop (p.length + 1))) else none

theorem below_child (p : Path) (name : String) : below p (child p name) = some name := by
  have hchild : child p name = p ++ ['/'] ++ name.toList := by simp [child]
  have hdrop : (child p name).drop (p.length + 1) = name.toList := by
    rw [hchild]
    exact List.drop_left' (by simp)
  rw [below, if_pos ⟨name.toList, hchild.symm⟩, hdrop, String.ofList_toList]

theorem eq_child_of_below {p q : Path} {name : String} (h : below p q = some name) : q = child p name := by
  unfold below at h
  split at h
  · next hpre =>
    obtain ⟨rest, rfl⟩ := hpre
    rw [List.drop_left' (by simp)] at h
    injection h with h
    rw [← h]
    simp [child]
  · cases h

/-- The children that are leaves. -/
def children (ls : List (Path × Json)) (p : Path) : List (String × Json) :=
  ls.filterMap fun g => (below p g.1).map fun name => (name, g.2)

theorem getItem_children (ls : List (Path × Json)) (p : Path) (name : String) :
    getItem (some (.obj (children ls p))) name = leafOf ls (child p name) := by
  induction ls with
  | nil => rfl
  | cons g ls ih =>
    rw [leafOf_cons, children, List.filterMap_cons]
    rcases hbelow : below p g.1 with _ | name'
    · have hne : child p name ≠ g.1 := by
        intro heq
        rw [← heq, below_child] at hbelow
        cases hbelow
      rw [Function.update_of_ne hne]
      exact ih
    · rw [eq_child_of_below hbelow]
      by_cases hname : name' = name
      · subst hname
        simp [getItem_obj_cons]
      · have hne : child p name ≠ child p name' := fun heq => hname (child_inj heq).symm
        rw [Function.update_of_ne hne]
        simp only [Option.map_some, getItem_obj_cons, if_neg hname]
        exact ih

theorem children_ne_nil {ls : List (Path × Json)} {p : Path}
    (h : ∃ name, (leafOf ls (child p name)).isSome = true) : children ls p ≠ [] := by
  obtain ⟨name, hname⟩ := h
  intro hnil
  rw [← getItem_children, hnil] at hname
  cases hname

theorem children_eq_nil {ls : List (Path × Json)} {p : Path} (h : ∀ name, leafOf ls (child p name) = none) :
    children ls p = [] := by
  rcases hms : children ls p with _ | ⟨m, ms⟩
  · rfl
  · have hfirst := h m.1
    rw [← getItem_children, hms, getItem_obj_cons, if_pos rfl] at hfirst
    cases hfirst

/-- A server with the answers that it is going to give; when they are used up, it grants what it is asked. -/
def listServer : Server (List (Path × Json) × List Bool) where
  set p v d :=
    match d.2 with
    | [] => (true, ((given p v).reverse ++ d.1, []))
    | b :: bs => (b, (if b then (given p v).reverse ++ d.1 else d.1, bs))
  get p d :=
    match leafOf d.1 (configured p) with
    | some v => (some (.obj [(qualified p, v)]), d)
    | none =>
      match children d.1 p with
      | [] => (none, d)
      | m :: ms => (some (.obj [(qualified p, .arr [.obj (m :: ms)])]), d)
  leaf d := leafOf d.1
  granted p v d h := by
    rcases d with ⟨ls, _ | ⟨b, bs⟩⟩
    · exact leafOf_reverse_append _ _
    · cases h
      exact leafOf_reverse_append _ _
  refused p v d h := by
    rcases d with ⟨ls, _ | ⟨b, bs⟩⟩
    · cases h
    · cases h
      rfl
  get_leaf p d v h := by
    simp only [h]
  get_entry p d h hany := by
    simp only [h]
    rcases hms : children d.1 p with _ | ⟨m, ms⟩
    · exact absurd hms (children_ne_nil hany)
    · refine ⟨m :: ms, rfl, fun name => ?_⟩
      rw [← hms]
      exact getItem_children d.1 p name
  get_none p d h hnone := by
    simp only [h, children_eq_nil hnone]
  get_keeps p d := by
    rcases leafOf d.1 (configured p) with _ | v
    · rcases children d.1 p with _ | ⟨m, ms⟩ <;> dsimp only
    · dsimp only

end Yang
