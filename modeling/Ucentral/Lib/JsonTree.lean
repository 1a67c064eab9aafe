import Ucentral.Lib.Json
import Mathlib.Data.List.TakeWhile
import Mathlib.Logic.Function.Basic

/-! JSON values as trees of nodes in memory.

    A node has a kind and the list of its children, each under its name; the children of an array have
    no name. `Tree h P a v` says that the node at `a` is the root of the tree of `v`, and that all the
    nodes of the tree are at addresses in `P`: what is done to the memory elsewhere leaves the tree as
    it is. -/

namespace CJson

/-! ### Depth, and characters that end a C string -/

mutual

/-- How deeply arrays and objects are nested. -/
def Json.depth : Json → ℕ
  | .arr l => depthAll l + 1
  | .obj l => depthMembers l + 1
  | _ => 0

def depthAll : List Json → ℕ
  | [] => 0
  | v :: l => max v.depth (depthAll l)

def depthMembers : List (String × Json) → ℕ
  | [] => 0
  | (_, v) :: l => max v.depth (depthMembers l)

end

/-- The string holds no NUL. -/
def NoNul (s : String) : Prop := '\x00' ∉ s.toList

instance (s : String) : Decidable (NoNul s) := inferInstanceAs (Decidable ('\x00' ∉ s.toList))

mutual

/-- No string and no member name of the value holds a NUL. -/
def Json.NoNul : Json → Prop
  | .str s => CJson.NoNul s
  | .arr l => NoNulAll l
  | .obj l => NoNulMembers l
  | _ => True

def NoNulAll : List Json → Prop
  | [] => True
  | v :: l => v.NoNul ∧ NoNulAll l

def NoNulMembers : List (String × Json) → Prop
  | [] => True
  | (k, v) :: l => CJson.NoNul k ∧ v.NoNul ∧ NoNulMembers l

end

/-- A C string ends at its first NUL. -/
def cstr (s : String) : String := String.ofList (s.toList.takeWhile (· ≠ '\x00'))

mutual

/-- The value with its strings and member names as C strings. -/
def Json.cstrs : Json → Json
  | .str s => .str (cstr s)
  | .arr l => .arr (cstrsAll l)
  | .obj l => .obj (cstrsMembers l)
  | v => v

def cstrsAll : List Json → List Json
  | [] => []
  | v :: l => v.cstrs :: cstrsAll l

def cstrsMembers : List (String × Json) → List (String × Json)
  | [] => []
  | (k, v) :: l => (cstr k, v.cstrs) :: cstrsMembers l

end

theorem cstr_eq {s : String} (h : NoNul s) : cstr s = s := by
  have hall : s.toList.takeWhile (· ≠ '\x00') = s.toList := by
    rw [List.takeWhile_eq_self_iff]
    intro c hc
    simp only [ne_eq, decide_eq_true_eq]
    rintro rfl
    exact h hc
  rw [cstr, hall, String.ofList_toList]

mutual

theorem Json.cstrs_eq : ∀ {v : Json}, v.NoNul → v.cstrs = v
  | .null, _ | .bool _, _ | .num _, _ => rfl
  | .str _, h => congrArg Json.str (cstr_eq h)
  | .arr _, h => congrArg Json.arr (cstrsAll_eq h)
  | .obj _, h => congrArg Json.obj (cstrsMembers_eq h)

theorem cstrsAll_eq : ∀ {l : List Json}, NoNulAll l → cstrsAll l = l
  | [], _ => rfl
  | _ :: _, h => by rw [cstrsAll, Json.cstrs_eq h.1, cstrsAll_eq h.2]

theorem cstrsMembers_eq : ∀ {l : List (String × Json)}, NoNulMembers l → cstrsMembers l = l
  | [], _ => rfl
  | (_, _) :: _, h => by
      rw [cstrsMembers, cstr_eq h.1, Json.cstrs_eq h.2.1, cstrsMembers_eq h.2.2]

end

/-- The values of an array, as children without a name. -/
def unnamed (l : List Json) : List (String × Json) := l.map fun v => ("", v)

theorem depthMembers_unnamed (l : List Json) : depthMembers (unnamed l) = depthAll l := by
  induction l with
  | nil => rfl
  | cons v l ih =>
    rw [unnamed, List.map_cons, depthMembers, depthAll]
    exact congrArg (max v.depth) ih

theorem cstrsMembers_unnamed (l : List Json) : cstrsMembers (unnamed l) = unnamed (cstrsAll l) := by
  induction l with
  | nil => rfl
  | cons v l ih =>
    have hname : cstr "" = "" := cstr_eq List.not_mem_nil
    rw [cstrsAll, unnamed, List.map_cons, cstrsMembers, hname]
    exact congrArg (("", v.cstrs) :: ·) ih

/-! ### Trees -/

inductive Kind
  | null
  | bool (b : Bool)
  | num (d : Double)
  | str (s : String)
  | array
  | object

structure Item where
  kind : Kind
  kids : List (String × ℕ)

/-- The nodes in memory, by address. -/
abbrev Items := ℕ → Option Item

mutual

inductive Tree (h : Items) (P : ℕ → Prop) : ℕ → Json → Prop
  | null {a : ℕ} : P a → h a = some ⟨.null, []⟩ → Tree h P a .null
  | bool {a : ℕ} {b : Bool} : P a → h a = some ⟨.bool b, []⟩ → Tree h P a (.bool b)
  | num {a : ℕ} {d : Double} : P a → h a = some ⟨.num d, []⟩ → Tree h P a (.num d)
  | str {a : ℕ} {s : String} : P a → h a = some ⟨.str s, []⟩ → Tree h P a (.str s)
  | arr {a : ℕ} {kids : List (String × ℕ)} {l : List Json} : P a → h a = some ⟨.array, kids⟩ →
      Kids h P kids (unnamed l) → Tree h P a (.arr l)
  | obj {a : ℕ} {kids : List (String × ℕ)} {l : List (String × Json)} : P a →
      h a = some ⟨.object, kids⟩ → Kids h P kids l → Tree h P a (.obj l)

/-- The children are the trees of these values, in this order and under these names. -/
inductive Kids (h : Items) (P : ℕ → Prop) : List (String × ℕ) → List (String × Json) → Prop
  | nil : Kids h P [] []
  | cons {k : String} {a : ℕ} {v : Json} {kids : List (String × ℕ)} {l : List (String × Json)} :
      Tree h P a v → Kids h P kids l → Kids h P ((k, a) :: kids) ((k, v) :: l)

end

mutual

/-- A tree stays where the memory stays as it is. -/
theorem Tree.frame {h h' : Items} {P Q : ℕ → Prop} (hsame : ∀ b, P b → Q b ∧ h' b = h b) {a : ℕ}
    {v : Json} : Tree h P a v → Tree h' Q a v
  | .null ha hn => .null (hsame a ha).1 ((hsame a ha).2.trans hn)
  | .bool ha hn => .bool (hsame a ha).1 ((hsame a ha).2.trans hn)
  | .num ha hn => .num (hsame a ha).1 ((hsame a ha).2.trans hn)
  | .str ha hn => .str (hsame a ha).1 ((hsame a ha).2.trans hn)
  | .arr ha hn hk => .arr (hsame a ha).1 ((hsame a ha).2.trans hn) (Kids.frame hsame hk)
  | .obj ha hn hk => .obj (hsame a ha).1 ((hsame a ha).2.trans hn) (Kids.frame hsame hk)

theorem Kids.frame {h h' : Items} {P Q : ℕ → Prop} (hsame : ∀ b, P b → Q b ∧ h' b = h b)
    {kids : List (String × ℕ)} {l : List (String × Json)} : Kids h P kids l → Kids h' Q kids l
  | .nil => .nil
  | .cons ht hk => .cons (Tree.frame hsame ht) (Kids.frame hsame hk)

end

theorem unnamed_inj {l l' : List Json} (h : unnamed l = unnamed l') : l = l' :=
  (List.map_inj_right fun _ _ hv => (Prod.mk.inj hv).2).mp h

mutual

/-- A node is the root of the tree of one value only. -/
theorem Tree.unique {h : Items} {P Q : ℕ → Prop} {a : ℕ} {v w : Json} :
    Tree h P a v → Tree h Q a w → v = w
  | .null _ hn, hw => by cases hw <;> simp_all
  | .bool _ hn, hw => by cases hw <;> simp_all
  | .num _ hn, hw => by cases hw <;> simp_all
  | .str _ hn, hw => by cases hw <;> simp_all
  | .arr _ hn hk, hw => by
      cases hw with
      | arr _ hn' hk' =>
        have hkids := hn.symm.trans hn'
        simp only [Option.some.injEq, Item.mk.injEq, true_and] at hkids
        subst hkids
        exact congrArg Json.arr (unnamed_inj (Kids.unique hk hk'))
      | _ => simp_all
  | .obj _ hn hk, hw => by
      cases hw with
      | obj _ hn' hk' =>
        have hkids := hn.symm.trans hn'
        simp only [Option.some.injEq, Item.mk.injEq, true_and] at hkids
        subst hkids
        exact congrArg Json.obj (Kids.unique hk hk')
      | _ => simp_all

theorem Kids.unique {h : Items} {P Q : ℕ → Prop} {kids : List (String × ℕ)}
    {l l' : List (String × Json)} : Kids h P kids l → Kids h Q kids l' → l = l'
  | .nil, .nil => rfl
  | .cons ht hk, .cons ht' hk' => by rw [Tree.unique ht ht', Kids.unique hk hk']

end

end CJson
