import Ucentral.Lib.JsonTree
import Ucentral.Lib.Run

/-! The parser's callback, which builds a tree from the events of lejp.

    The stack holds the arrays and objects that are open, the innermost at `sp`; below them at 0 is a
    null pointer. A value is linked to its parent as soon as it begins, under the member name that came
    last. The text of a string is gathered in a buffer that all levels share. -/

namespace Ucentral.Client.Parser
open CJson

/-! ### The model -/

/-- The reasons for which lejp calls, with what it has put in `path` and `buf` then; of a number, what
    `sscanf` reads in it. -/
inductive Event
  | constructed
  | destructed
  | start
  | complete
  | failed
  | pairName (path : String)
  | valTrue
  | valFalse
  | valNull
  | valNumInt (d : Option Double)
  | valNumFloat (d : Option Double)
  | valStrStart
  | valStrChunk (buf : List Char)
  | valStrEnd (buf : List Char)
  | arrayStart
  | arrayEnd
  | objectStart
  | objectEnd
  | other

/-- Whether memory is found: for a new node, for the text, and for the name of a member. -/
structure Memory where
  node : Bool
  text : Bool
  name : Bool

/-- Memory is always found. -/
def Memory.enough : Memory := ⟨true, true, true⟩

/-- What the user's callbacks are called with: the nodes in memory and the root of the tree. -/
inductive Called
  | value (nodes : Items) (root : Option ℕ)
  | error

/-- `struct uc_json_parser`, the nodes in memory, the next address that is free, and the calls of the
    user's callbacks so far. Addresses are not given out twice. -/
structure Uctx where
  root : Option ℕ
  str : Option (List Char)
  strsz : ℕ
  sp : ℤ
  stack : ℕ → Option ℕ
  name : String
  nodes : Items
  next : ℕ
  calls : List Called

/-- After `uc_json_parser_init`. -/
def Uctx.init : Uctx := ⟨none, none, 0, 0, fun _ => none, "", fun _ => none, 0, []⟩

/-- `cleanup`: the tree and the text are freed. -/
def cleanup (u : Uctx) : Uctx := { u with sp := 0, str := none, strsz := 0, root := none }

/-- `err`. -/
def err (u : Uctx) : Uctx × ℤ := (cleanup u, -1)

/-- `uctx->stack[uctx->sp]`. -/
def Uctx.parent (u : Uctx) : Option ℕ := u.stack u.sp.toNat

/-- A new node, at the next address. -/
def Uctx.create (u : Uctx) (kind : Kind) : Uctx :=
  { u with nodes := Function.update u.nodes u.next (some ⟨kind, []⟩), next := u.next + 1 }

/-- `cJSON_AddItemToObject` and `cJSON_AddItemToArray` on the node at `a`. -/
def addItem (nodes : Items) (a : ℕ) (n : Item) (name : String) (cur : ℕ) : Items :=
  Function.update nodes a (some { n with kids := n.kids ++ [(name, cur)] })

/-- The first node of a value is its root. -/
def setRoot (cur : ℕ) (u : Uctx) : Uctx := if u.root.isNone then { u with root := some cur } else u

/-- What follows the `switch`, with the node `cur`. -/
def attach (m : Memory) (parent : Option ℕ) (cur : ℕ) (u : Uctx) : Uctx × ℤ :=
  match parent with
  | none => (setRoot cur u, 0)
  | some p =>
    match u.nodes p with
    | some ⟨.object, kids⟩ =>
      let nodes := if m.name then addItem u.nodes p ⟨.object, kids⟩ u.name cur else u.nodes
      (setRoot cur { u with nodes := nodes }, 0)
    | some ⟨.array, kids⟩ =>
      (setRoot cur { u with nodes := addItem u.nodes p ⟨.array, kids⟩ "" cur }, 0)
    | _ => err u

/-- The cases that create a node without children. -/
def leaf (m : Memory) (kind : Kind) (u : Uctx) : Uctx × ℤ :=
  if !m.node then err u else attach m u.parent u.next (u.create kind)

/-- `LEJPCB_ARRAY_START` and `LEJPCB_OBJECT_START`; `depth` is `LEJP_MAX_DEPTH`. -/
def openKids (depth : ℕ) (m : Memory) (kind : Kind) (u : Uctx) : Uctx × ℤ :=
  if !m.node then err u
  else if u.sp + 1 ≥ depth then err (u.create kind)
  else
    let u' := u.create kind
    attach m u.parent u.next
      { u' with sp := u.sp + 1, stack := Function.update u.stack (u.sp + 1).toNat (some u.next) }

/-- `LEJPCB_ARRAY_END` and `LEJPCB_OBJECT_END`. -/
def closeKids (u : Uctx) : Uctx × ℤ :=
  if u.sp - 1 < 0 then err u else ({ u with sp := u.sp - 1 }, 0)

/-- The text is made longer by `buf`; a text that was not started is taken to be empty. -/
def addText (buf : List Char) (u : Uctx) : Uctx :=
  { u with
    str := some ((u.str.getD []).take (u.strsz - 1) ++ buf)
    strsz := u.strsz + buf.length }

/-- `LEJPCB_VAL_STR_END`: the string ends where the text has a NUL. -/
def endText (m : Memory) (buf : List Char) (u : Uctx) : Uctx × ℤ :=
  if !m.text then err u
  else if !m.node then err (addText buf u)
  else
    let text := cstr (String.ofList (((addText buf u).str).getD []))
    attach m u.parent u.next ({ addText buf u with str := none, strsz := 0 }.create (.str text))

/-- `uc_lejp_parse`. -/
def ucLejpParse (depth : ℕ) (m : Memory) (u : Uctx) : Event → Uctx × ℤ
  | .constructed => (u, 0)
  | .destructed => (cleanup u, 0)
  | .start => (u, 0)
  | .complete => (cleanup { u with calls := u.calls ++ [.value u.nodes u.root] }, 0)
  | .failed => err { u with calls := u.calls ++ [.error] }
  | .pairName path => ({ u with name := cstr path }, 0)
  | .valTrue => leaf m (.bool true) u
  | .valFalse => leaf m (.bool false) u
  | .valNull => leaf m .null u
  | .valNumInt d | .valNumFloat d =>
    match d with
    | none => err u
    | some d => leaf m (.num d) u
  | .valStrStart => ({ u with strsz := 1 }, 0)
  | .valStrChunk buf => if !m.text then err u else (addText buf u, 0)
  | .valStrEnd buf => endText m buf u
  | .arrayStart => openKids depth m .array u
  | .objectStart => openKids depth m .object u
  | .arrayEnd | .objectEnd => closeKids u
  | .other => err u

/-- The events in a row, with what is found of memory for each; lejp does not call on after an error,
    but it may. -/
def runWith (depth : ℕ) (u : Uctx) (es : List (Memory × Event)) : Uctx :=
  es.foldl (fun u e => (ucLejpParse depth e.1 u e.2).1) u

/-- The events in a row while memory is always found. -/
def run (depth : ℕ) (u : Uctx) (es : List Event) : Uctx :=
  es.foldl (fun u e => (ucLejpParse depth .enough u e).1) u

/-! ### The events of a value -/

mutual

/-- These are the events by which lejp delivers the value; a string may come in any number of chunks. -/
inductive Delivers : Json → List Event → Prop
  | null : Delivers .null [.valNull]
  | true : Delivers (.bool true) [.valTrue]
  | false : Delivers (.bool false) [.valFalse]
  | int {d : Double} : Delivers (.num d) [.valNumInt (some d)]
  | float {d : Double} : Delivers (.num d) [.valNumFloat (some d)]
  | str {s : String} {chunks : List (List Char)} {last : List Char} :
      s.toList = chunks.flatten ++ last →
      Delivers (.str s) (.valStrStart :: (chunks.map Event.valStrChunk ++ [.valStrEnd last]))
  | arr {l : List Json} {es : List Event} : DeliversKids false (unnamed l) es →
      Delivers (.arr l) (.arrayStart :: (es ++ [.arrayEnd]))
  | obj {l : List (String × Json)} {es : List Event} : DeliversKids true l es →
      Delivers (.obj l) (.objectStart :: (es ++ [.objectEnd]))

/-- The events of the values of an array, or of the members of an object. -/
inductive DeliversKids : Bool → List (String × Json) → List Event → Prop
  | nil {named : Bool} : DeliversKids named [] []
  | elem {v : Json} {l : List (String × Json)} {es fs : List Event} : Delivers v es →
      DeliversKids false l fs → DeliversKids false (("", v) :: l) (es ++ fs)
  | member {k : String} {v : Json} {l : List (String × Json)} {es fs : List Event} :
      Delivers v es → DeliversKids true l fs →
      DeliversKids true ((k, v) :: l) (.pairName k :: (es ++ fs))

end

/-! ### A node and its parent -/

/-- The nodes once `cur` is a child of the node at `p`. -/
def linked (nodes : Items) (name : String) (cur : ℕ) : Option ℕ → Items
  | none => nodes
  | some p =>
    match nodes p with
    | some ⟨.object, kids⟩ => addItem nodes p ⟨.object, kids⟩ name cur
    | some ⟨.array, kids⟩ => addItem nodes p ⟨.array, kids⟩ "" cur
    | _ => nodes

/-- What may be on the stack: nothing, or an array or an object. -/
def Holds (nodes : Items) (next : ℕ) (parent : Option ℕ) : Prop :=
  ∀ p, parent = some p →
    p < next ∧ ∃ kids, nodes p = some ⟨.array, kids⟩ ∨ nodes p = some ⟨.object, kids⟩

theorem Holds.update {nodes : Items} {next : ℕ} {parent : Option ℕ} (h : Holds nodes next parent)
    (x : Option Item) : Holds (Function.update nodes next x) next parent := by
  intro p hp
  obtain ⟨hlt, hkids⟩ := h p hp
  rw [Function.update_of_ne (Nat.ne_of_lt hlt)]
  exact ⟨hlt, hkids⟩

variable {depth n : ℕ} {u u' : Uctx}

theorem setRoot_eq (cur : ℕ) (u : Uctx) :
    setRoot cur u = { u with root := some (u.root.getD cur) } := by
  cases u with
  | mk root => cases root <;> rfl

theorem attach_holds {parent : Option ℕ} {next : ℕ} (h : Holds u.nodes next parent) (cur : ℕ) :
    attach .enough parent cur u =
      ({ u with
          nodes := linked u.nodes u.name cur parent
          root := some (u.root.getD cur) }, 0) := by
  cases parent with
  | none => rw [attach, setRoot_eq, linked]
  | some p =>
    obtain ⟨-, kids, hp | hp⟩ := h p rfl
    · simp only [attach, linked, hp, setRoot_eq]
    · simp only [attach, linked, hp, setRoot_eq, Memory.enough, if_true]

/-- An open array or object gets one child more. -/
theorem linked_holds {next p : ℕ} {nodes : Items} (h : Holds nodes next (some p)) (name : String)
    (cur : ℕ) : ∃ n name', ∀ nodes' : Items, nodes' p = nodes p →
      linked nodes' name cur (some p) = addItem nodes' p n name' cur := by
  obtain ⟨-, kids, hp | hp⟩ := h p rfl
  · exact ⟨⟨.array, kids⟩, "", fun nodes' hsame => by simp only [linked, hsame, hp]⟩
  · exact ⟨⟨.object, kids⟩, name, fun nodes' hsame => by simp only [linked, hsame, hp]⟩

/-- A new node, which nothing points to, does not matter to the parent's children. -/
theorem linked_update {nodes : Items} {next : ℕ} {parent : Option ℕ} (h : Holds nodes next parent)
    (name : String) (x : Option Item) :
    linked (Function.update nodes next x) name next parent next = x ∧
    ∀ a, a < next →
      linked (Function.update nodes next x) name next parent a = linked nodes name next parent a := by
  cases parent with
  | none => exact ⟨Function.update_self .., fun a ha => Function.update_of_ne (Nat.ne_of_lt ha) ..⟩
  | some p =>
    have hne : p ≠ next := Nat.ne_of_lt (h p rfl).1
    obtain ⟨n, name', hlinked⟩ := linked_holds h name next
    rw [hlinked nodes rfl, hlinked _ (Function.update_of_ne hne ..), addItem, addItem]
    refine ⟨?_, fun a ha => ?_⟩
    · rw [Function.update_of_ne hne.symm, Function.update_self]
    · rw [Function.update_comm hne.symm, Function.update_of_ne (Nat.ne_of_lt ha)]

/-- The state in which a value begins: below it on the stack are `n` arrays and objects. -/
structure Opens (u : Uctx) (n : ℕ) : Prop where
  sp : u.sp = n
  str : u.str = none
  holds : Holds u.nodes u.next (u.stack n)

/-- What the events of a value do: its tree is built of new nodes and linked to the parent, and the
    rest is as it was. -/
structure Built (u u' : Uctx) (n : ℕ) (v : Json) : Prop where
  sp : u'.sp = n
  str : u'.str = none
  stack : ∀ k ≤ n, u'.stack k = u.stack k
  calls : u'.calls = u.calls
  next : u.next < u'.next
  root : u'.root = some (u.root.getD u.next)
  tree : Tree u'.nodes (fun a => u.next ≤ a ∧ a < u'.next) u.next v
  nodes : ∀ a < u.next, u'.nodes a = linked u.nodes u.name u.next (u.stack n) a

/-- A node without children is created and linked. -/
theorem leaf_eq (h : Opens u n) (kind : Kind) :
    leaf .enough kind u =
      ({ u with
          nodes := linked (Function.update u.nodes u.next (some ⟨kind, []⟩)) u.name u.next (u.stack n)
          next := u.next + 1
          root := some (u.root.getD u.next) }, 0) := by
  have hparent : u.parent = u.stack n := by rw [Uctx.parent, h.sp, Int.toNat_natCast]
  have hattach := attach_holds (u := u.create kind) (h.holds.update (some ⟨kind, []⟩)) u.next
  rw [leaf, hparent]
  exact hattach

theorem built_leaf (h : Opens u n) {kind : Kind} {v : Json}
    (hv : ∀ nodes (P : ℕ → Prop) a, P a → nodes a = some ⟨kind, []⟩ → Tree nodes P a v) :
    Built u (leaf .enough kind u).1 n v := by
  obtain ⟨hnew, hold⟩ := linked_update h.holds u.name (some ⟨kind, []⟩)
  rw [leaf_eq h]
  exact {
    sp := h.sp
    str := h.str
    stack := fun _ _ => rfl
    calls := rfl
    next := Nat.lt_succ_self _
    root := rfl
    tree := hv _ _ _ ⟨Nat.le_refl _, Nat.lt_succ_self _⟩ hnew
    nodes := hold }

/-! ### The children of an open array or object -/

/-- An array or an object. -/
def kindOf (named : Bool) : Kind := if named then .object else .array

/-- The array or object at `p` is open, with the children `old` so far. -/
structure OpensKids (u : Uctx) (n p : ℕ) (named : Bool) (old : List (String × ℕ)) : Prop where
  sp : u.sp = n
  str : u.str = none
  top : u.stack n = some p
  lt : p < u.next
  node : u.nodes p = some ⟨kindOf named, old⟩
  root : u.root.isSome

/-- What the events of further children do: their trees are built and linked to the node at `p`. -/
structure BuiltKids (u u' : Uctx) (n p : ℕ) (named : Bool) (old : List (String × ℕ))
    (l : List (String × Json)) : Prop where
  sp : u'.sp = n
  str : u'.str = none
  stack : ∀ k ≤ n, u'.stack k = u.stack k
  calls : u'.calls = u.calls
  next : u.next ≤ u'.next
  root : u'.root = u.root
  kids : ∃ kids, Kids u'.nodes (fun a => u.next ≤ a ∧ a < u'.next) kids l ∧
    u'.nodes p = some ⟨kindOf named, old ++ kids⟩
  nodes : ∀ a < u.next, a ≠ p → u'.nodes a = u.nodes a

variable {p : ℕ} {named : Bool} {old : List (String × ℕ)}

theorem OpensKids.opens (h : OpensKids u n p named old) : Opens u n := by
  refine ⟨h.sp, h.str, fun q hq => ?_⟩
  have hqp : q = p := Option.some.inj (hq.symm.trans h.top)
  rw [hqp]
  refine ⟨h.lt, old, ?_⟩
  cases named with
  | false => exact Or.inl h.node
  | true => exact Or.inr h.node

theorem linked_node {nodes : Items} (h : nodes p = some ⟨kindOf named, old⟩) (name : String) (cur : ℕ) :
    linked nodes name cur (some p) =
      addItem nodes p ⟨kindOf named, old⟩ (if named then name else "") cur := by
  cases named with
  | false => simp only [linked, h, kindOf, Bool.false_eq_true, if_false]
  | true => simp only [linked, h, kindOf, if_true]

/-- After one more child the array or object is open as before. -/
theorem Built.opensKids {v : Json} (h : OpensKids u n p named old) (hb : Built u u' n v) :
    OpensKids u' n p named (old ++ [(if named then u.name else "", u.next)]) := by
  have hnode := hb.nodes p h.lt
  rw [h.top, linked_node h.node, addItem, Function.update_self] at hnode
  exact {
    sp := hb.sp
    str := hb.str
    top := (hb.stack n (Nat.le_refl n)).trans h.top
    lt := Nat.lt_trans h.lt hb.next
    node := hnode
    root := by rw [hb.root]; rfl }

theorem builtKids_nil (h : OpensKids u n p named old) : BuiltKids u u n p named old [] where
  sp := h.sp
  str := h.str
  stack := fun _ _ => rfl
  calls := rfl
  next := Nat.le_refl _
  root := rfl
  kids := ⟨[], .nil, by rw [List.append_nil]; exact h.node⟩
  nodes := fun _ _ _ => rfl

/-- A child and the children after it. -/
theorem builtKids_cons {u'' : Uctx} {v : Json} {l : List (String × Json)} {name : String}
    (h : OpensKids u n p named old) (hb : Built u u' n v)
    (hbs : BuiltKids u' u'' n p named (old ++ [(name, u.next)]) l) :
    BuiltKids u u'' n p named old ((name, v) :: l) := by
  have hlt := h.lt
  have hnext := hb.next
  have hnext' := hbs.next
  have hroot : u'.root = u.root := by
    obtain ⟨r, hr⟩ := Option.isSome_iff_exists.mp h.root
    rw [hb.root, hr]
    rfl
  obtain ⟨kids, hkids, hnode⟩ := hbs.kids
  have htree : Tree u''.nodes (fun a => u.next ≤ a ∧ a < u''.next) u.next v := by
    refine hb.tree.frame fun a ha => ⟨⟨ha.1, by omega⟩, hbs.nodes a ha.2 (by omega)⟩
  have hrest : Kids u''.nodes (fun a => u.next ≤ a ∧ a < u''.next) kids l := by
    refine hkids.frame fun a ha => ⟨⟨by omega, ha.2⟩, rfl⟩
  exact {
    sp := hbs.sp
    str := hbs.str
    stack := fun k hk => (hbs.stack k hk).trans (hb.stack k hk)
    calls := hbs.calls.trans hb.calls
    next := by omega
    root := hbs.root.trans hroot
    kids := ⟨(name, u.next) :: kids, .cons htree hrest, by rw [hnode, List.append_assoc]; rfl⟩
    nodes := fun a ha hap => by
      rw [hbs.nodes a (by omega) hap, hb.nodes a ha, h.top, linked_node h.node, addItem,
        Function.update_of_ne hap] }

/-! ### From the first event of a value to its last -/

/-- An array or an object is created and linked as a leaf is; then it is pushed. -/
theorem openKids_eq (h : Opens u n) (hn : n + 1 < depth) (kind : Kind) :
    openKids depth .enough kind u =
      ({ (leaf .enough kind u).1 with
          sp := (n + 1 : ℕ)
          stack := Function.update u.stack (n + 1) (some u.next) }, 0) := by
  have hparent : u.parent = u.stack n := by rw [Uctx.parent, h.sp, Int.toNat_natCast]
  have hroom : ¬ u.sp + 1 ≥ depth := by
    have hsp := h.sp
    omega
  have hattach := attach_holds
    (u := { u.create kind with
      sp := u.sp + 1
      stack := Function.update u.stack (u.sp + 1).toNat (some u.next) })
    (h.holds.update (some ⟨kind, []⟩)) u.next
  rw [leaf_eq h, openKids, if_neg hroom, hparent]
  refine hattach.trans ?_
  rw [h.sp]
  rfl

theorem opensKids_openKids (named : Bool) (h : Opens u n) (hn : n + 1 < depth) :
    OpensKids (openKids depth .enough (kindOf named) u).1 (n + 1) u.next named [] := by
  obtain ⟨hnew, -⟩ := linked_update h.holds u.name (some ⟨kindOf named, []⟩)
  rw [openKids_eq h hn, leaf_eq h]
  exact {
    sp := rfl
    str := h.str
    top := Function.update_self ..
    lt := Nat.lt_succ_self _
    node := hnew
    root := rfl }

/-- Between the events that open and close it an array or object gets its children. -/
theorem built_closeKids (h : Opens u n) (hn : n + 1 < depth) {v : Json} {l : List (String × Json)}
    (hv : ∀ nodes (P : ℕ → Prop) a kids, P a → nodes a = some ⟨kindOf named, kids⟩ →
      Kids nodes P kids l → Tree nodes P a v)
    (hbs : BuiltKids (openKids depth .enough (kindOf named) u).1 u' (n + 1) u.next named [] l) :
    Built u (closeKids u').1 n v := by
  obtain ⟨-, hold⟩ := linked_update h.holds u.name (some ⟨kindOf named, []⟩)
  rw [openKids_eq h hn, leaf_eq h] at hbs
  have hsp := hbs.sp
  have hnext : u.next + 1 ≤ u'.next := hbs.next
  obtain ⟨kids, hkids, hnode⟩ := hbs.kids
  have hclose : (closeKids u').1 = { u' with sp := n } := by
    have hpop : u'.sp - 1 = n := by omega
    rw [closeKids, if_neg (by omega), hpop]
  rw [hclose]
  exact {
    sp := rfl
    str := hbs.str
    stack := fun k hk => (hbs.stack k (by omega)).trans (Function.update_of_ne (by omega) ..)
    calls := hbs.calls
    next := hnext
    root := hbs.root
    tree := hv _ _ _ kids ⟨Nat.le_refl _, hnext⟩ hnode
      (hkids.frame fun a ha => ⟨⟨Nat.le_of_succ_le ha.1, ha.2⟩, rfl⟩)
    nodes := fun a ha =>
      (hbs.nodes a (Nat.lt_succ_of_lt ha) (Nat.ne_of_lt ha)).trans (hold a ha) }

theorem run_append (u : Uctx) (es fs : List Event) :
    run depth u (es ++ fs) = run depth (run depth u es) fs :=
  List.foldl_append

/-- The text gathered so far. -/
structure Gathers (u : Uctx) (text : List Char) : Prop where
  strsz : u.strsz = text.length + 1
  str : u.str.getD [] = text

theorem gathers_addText {text : List Char} (h : Gathers u text) (buf : List Char) :
    Gathers (addText buf u) (text ++ buf) := by
  have hkeep : (u.str.getD []).take (u.strsz - 1) = text := by
    rw [h.str, h.strsz, Nat.add_sub_cancel, List.take_length]
  refine ⟨?_, ?_⟩
  · rw [addText, h.strsz, List.length_append]
    exact Nat.add_right_comm ..
  · rw [addText, hkeep]
    rfl

/-- The chunks of a string change nothing but the text. -/
theorem run_chunks (depth : ℕ) : ∀ (chunks : List (List Char)) (u : Uctx) (text : List Char),
    Gathers u text →
    ∃ u', run depth u (chunks.map .valStrChunk) = u' ∧ Gathers u' (text ++ chunks.flatten) ∧
      { u' with str := none, strsz := 0 } = { u with str := none, strsz := 0 }
  | [], u, text, h => ⟨u, rfl, by simpa using h, rfl⟩
  | buf :: chunks, u, text, h => by
      obtain ⟨u', hrun, hgathers, hrest⟩ := run_chunks depth chunks (addText buf u) (text ++ buf)
        (gathers_addText h buf)
      refine ⟨u', hrun, ?_, hrest⟩
      rwa [List.flatten_cons, ← List.append_assoc]

/-- A string is a leaf with the text of all its chunks. -/
theorem run_str (u : Uctx) (hstr : u.str = none) (chunks : List (List Char)) (last : List Char) :
    run depth u (.valStrStart :: (chunks.map .valStrChunk ++ [.valStrEnd last])) =
      (leaf .enough (.str (cstr (String.ofList (chunks.flatten ++ last))))
        { u with str := none, strsz := 0 }).1 := by
  have hstart : Gathers { u with strsz := 1 } [] := ⟨rfl, by rw [hstr]; rfl⟩
  obtain ⟨u', hrun, hgathers, hrest⟩ := run_chunks depth chunks _ [] hstart
  have htext := (gathers_addText hgathers last).str
  have hrun' : run depth u (.valStrStart :: (chunks.map .valStrChunk ++ [.valStrEnd last])) =
      (endText .enough last u').1 := by
    rw [← hrun, ← List.singleton_append, run_append, run_append]
    rfl
  have hend : endText .enough last u' =
      leaf .enough (.str (cstr (String.ofList (chunks.flatten ++ last))))
        { u' with str := none, strsz := 0 } := by
    rw [List.nil_append] at htext
    rw [endText, htext]
    rfl
  rw [hrun', hend, hrest]

mutual

/-- The events of a value build its tree and restore the state that its parent needs. -/
theorem built_of_delivers {v : Json} {es : List Event} :
    Delivers v es → ∀ {u : Uctx} {n : ℕ}, Opens u n → n + v.depth < depth →
      Built u (run depth u es) n v.cstrs
  | .null, _, _, h, _ => built_leaf h fun _ _ _ => .null
  | .true, _, _, h, _ => built_leaf h fun _ _ _ => .bool
  | .false, _, _, h, _ => built_leaf h fun _ _ _ => .bool
  | .int, _, _, h, _ => built_leaf h fun _ _ _ => .num
  | .float, _, _, h, _ => built_leaf h fun _ _ _ => .num
  | .str (s := s) htext, u, n, h, _ => by
      have hopens : Opens { u with str := none, strsz := 0 } n := ⟨h.sp, rfl, h.holds⟩
      have hbuilt : Built _ _ n (.str (cstr s)) := built_leaf hopens fun _ _ _ => .str
      rw [run_str u h.str, ← htext, String.ofList_toList]
      exact { hbuilt with }
  | @Delivers.arr l es hes, u, n, h, hd => by
      rw [Json.depth] at hd
      have hkids := builtKids_of_delivers hes
        (opensKids_openKids false h (show n + 1 < depth by omega))
        (by rw [depthMembers_unnamed]; omega)
      have hrun : run depth u (.arrayStart :: (es ++ [.arrayEnd])) =
          (closeKids (run depth (openKids depth .enough .array u).1 es)).1 := by
        rw [← List.singleton_append, run_append, run_append]
        rfl
      rw [cstrsMembers_unnamed] at hkids
      rw [hrun]
      exact built_closeKids h (by omega) (fun _ _ _ _ => .arr) hkids
  | @Delivers.obj l es hes, u, n, h, hd => by
      rw [Json.depth] at hd
      have hkids := builtKids_of_delivers hes
        (opensKids_openKids true h (show n + 1 < depth by omega)) (by omega)
      have hrun : run depth u (.objectStart :: (es ++ [.objectEnd])) =
          (closeKids (run depth (openKids depth .enough .object u).1 es)).1 := by
        rw [← List.singleton_append, run_append, run_append]
        rfl
      rw [hrun]
      exact built_closeKids h (by omega) (fun _ _ _ _ => .obj) hkids

theorem builtKids_of_delivers {named : Bool} {l : List (String × Json)} {es : List Event} :
    DeliversKids named l es → ∀ {u : Uctx} {n p : ℕ} {old : List (String × ℕ)},
      OpensKids u n p named old → n + depthMembers l < depth →
      BuiltKids u (run depth u es) n p named old (cstrsMembers l)
  | .nil, _, _, _, _, h, _ => builtKids_nil h
  | .elem hv hl, u, n, p, old, h, hd => by
      rw [depthMembers] at hd
      have hbuilt := built_of_delivers hv h.opens (by omega)
      have hrest := builtKids_of_delivers hl (hbuilt.opensKids h) (by omega)
      have hname : cstr "" = "" := cstr_eq List.not_mem_nil
      rw [run_append, cstrsMembers, hname]
      exact builtKids_cons h hbuilt hrest
  | .member (k := k) hv hl, u, n, p, old, h, hd => by
      rw [depthMembers] at hd
      -- the name waits in the state until the value begins
      have hnamed : OpensKids { u with name := cstr k } n p true old := { h with }
      have hbuilt := built_of_delivers hv hnamed.opens (by omega)
      have hrest := builtKids_of_delivers hl (hbuilt.opensKids hnamed) (by omega)
      have hbuiltKids := builtKids_cons hnamed hbuilt hrest
      rw [run, List.foldl_cons, ← run, run_append]
      exact { hbuiltKids with }

end

/-! ### The stack -/

/-- `sp` is an index of the stack. -/
def InStack (depth : ℕ) (u : Uctx) : Prop := 0 ≤ u.sp ∧ u.sp < depth

theorem inStack_err (hd : 0 < depth) (u : Uctx) : InStack depth (err u).1 :=
  ⟨Int.le_refl 0, Int.natCast_pos.mpr hd⟩

theorem inStack_setRoot (h : InStack depth u) (cur : ℕ) : InStack depth (setRoot cur u) := by
  rw [setRoot_eq]
  exact h

theorem inStack_attach (hd : 0 < depth) (h : InStack depth u) (m : Memory) (parent : Option ℕ)
    (cur : ℕ) : InStack depth (attach m parent cur u).1 := by
  unfold attach
  split
  · exact inStack_setRoot h cur
  · split
    · refine inStack_setRoot ?_ cur
      exact h
    · refine inStack_setRoot ?_ cur
      exact h
    · exact inStack_err hd u

theorem inStack_leaf (hd : 0 < depth) (h : InStack depth u) (m : Memory) (kind : Kind) :
    InStack depth (leaf m kind u).1 := by
  unfold leaf
  split
  · exact inStack_err hd u
  · exact inStack_attach (u := u.create kind) hd h ..

theorem inStack_openKids (hd : 0 < depth) (h : InStack depth u) (m : Memory) (kind : Kind) :
    InStack depth (openKids depth m kind u).1 := by
  unfold openKids
  split
  · exact inStack_err hd u
  · split
    · exact inStack_err hd _
    · next hroom =>
      obtain ⟨hpos, -⟩ := h
      refine inStack_attach hd ⟨?_, ?_⟩ ..
      · exact Int.add_nonneg hpos (by decide)
      · exact Int.not_le.mp hroom

theorem inStack_closeKids (hd : 0 < depth) (h : InStack depth u) : InStack depth (closeKids u).1 := by
  unfold closeKids
  split
  · exact inStack_err hd u
  · next hpop => exact ⟨Int.not_lt.mp hpop, Int.lt_of_le_of_lt (Int.sub_le_self _ (by decide)) h.2⟩

theorem inStack_ucLejpParse (hd : 0 < depth) (h : InStack depth u) (m : Memory) (e : Event) :
    InStack depth (ucLejpParse depth m u e).1 := by
  have hzero : (0 : ℤ) ≤ 0 ∧ (0 : ℤ) < depth := inStack_err hd u
  cases e with
  | constructed | start | pairName | valStrStart => exact h
  | destructed | complete => exact hzero
  | failed | other => exact inStack_err hd _
  | valTrue | valFalse | valNull => exact inStack_leaf hd h ..
  | valNumInt d | valNumFloat d =>
    cases d with
    | none => exact inStack_err hd u
    | some d => exact inStack_leaf hd h ..
  | valStrChunk buf =>
    rw [ucLejpParse]
    split
    · exact inStack_err hd u
    · exact h
  | valStrEnd buf =>
    rw [ucLejpParse, endText]
    split
    · exact inStack_err hd u
    · split
      · exact inStack_err hd _
      · exact inStack_attach hd (by exact h) ..
  | arrayStart | objectStart => exact inStack_openKids hd h ..
  | arrayEnd | objectEnd => exact inStack_closeKids hd h

theorem inStack_runWith (hd : 0 < depth) : ∀ (es : List (Memory × Event)) (u : Uctx),
    InStack depth u → InStack depth (runWith depth u es)
  | [], _, h => h
  | (m, e) :: es, _, h => inStack_runWith hd es _ (inStack_ucLejpParse hd h m e)

/-! ### A value after the other -/

/-- The state in which the parser is before a value, and again after it. -/
structure Ready (u : Uctx) : Prop where
  sp : u.sp = 0
  str : u.str = none
  root : u.root = none
  bottom : u.stack 0 = none

theorem ready_init : Ready .init := ⟨rfl, rfl, rfl, rfl⟩

/-- The events from the start of a value to its completion. -/
def whole (es : List Event) : List Event := .start :: (es ++ [.complete])

theorem run_whole (depth : ℕ) (h : Ready u) {v : Json} {es : List Event} (hv : Delivers v es)
    (hd : v.depth < depth) :
    ∃ nodes root, (run depth u (whole es)).calls = u.calls ++ [.value nodes (some root)] ∧
      Tree nodes (fun _ => True) root v.cstrs ∧ Ready (run depth u (whole es)) := by
  have hopens : Opens u 0 := ⟨h.sp, h.str, fun p hp => by rw [h.bottom] at hp; cases hp⟩
  have hbuilt := built_of_delivers hv hopens (by rwa [Nat.zero_add])
  have hrun : run depth u (whole es) = (ucLejpParse depth .enough (run depth u es) .complete).1 := by
    rw [whole, ← List.singleton_append, run_append, run_append]
    rfl
  have hroot : (run depth u es).root = some u.next := by rw [hbuilt.root, h.root]; rfl
  rw [hrun]
  refine ⟨(run depth u es).nodes, u.next, ?_, hbuilt.tree.frame fun _ _ => ⟨trivial, rfl⟩, ?_⟩
  · rw [ucLejpParse, hroot, hbuilt.calls]
    rfl
  · exact ⟨rfl, rfl, rfl, (hbuilt.stack 0 (Nat.le_refl 0)).trans h.bottom⟩

/-- The user's callback is called once for a value, with its tree, and the parser is then as before;
    and no events at all drive `sp` out of the stack. -/
theorem ucLejpParse_builds (depth : ℕ) (hd : 0 < depth) :
    Ready .init ∧
    (∀ u v es, Ready u → Delivers v es → v.depth < depth →
      (∃ nodes root, (run depth u (whole es)).calls = u.calls ++ [.value nodes (some root)] ∧
        Tree nodes (fun _ => True) root v.cstrs ∧ (v.NoNul → v.cstrs = v)) ∧
      Ready (run depth u (whole es))) ∧
    ∀ es, InStack depth (runWith depth .init es) := by
  refine ⟨ready_init, fun u v es h hv hv' => ?_, fun es => ?_⟩
  · obtain ⟨nodes, root, hcalls, htree, hready⟩ := run_whole depth h hv hv'
    exact ⟨⟨nodes, root, hcalls, htree, Json.cstrs_eq⟩, hready⟩
  · exact inStack_runWith hd es _ (inStack_err hd .init)

/-- An object of the same key twice, one of its values in two chunks. -/
theorem ucLejpParse_builds_object :
    ∃ nodes root, (run 12 .init (whole [.objectStart, .pairName "k", .valNull, .pairName "k",
        .valStrStart, .valStrChunk ['a'], .valStrEnd ['b'], .objectEnd])).calls =
        [.value nodes (some root)] ∧
      Tree nodes (fun _ => True) root (.obj [("k", .null), ("k", .str "ab")]) := by
  have hdelivers : Delivers (.obj [("k", .null), ("k", .str "ab")]) [.objectStart, .pairName "k",
      .valNull, .pairName "k", .valStrStart, .valStrChunk ['a'], .valStrEnd ['b'], .objectEnd] :=
    .obj (.member .null (.member (@Delivers.str "ab" [['a']] ['b'] (by decide)) .nil))
  obtain ⟨hinit, hvalues, -⟩ := ucLejpParse_builds 12 (by decide)
  obtain ⟨⟨nodes, root, hcalls, htree, hcstrs⟩, -⟩ := hvalues _ _ _ hinit hdelivers (by decide)
  have hk : NoNul "k" := by decide
  have hab : NoNul "ab" := by decide
  rw [hcstrs ⟨hk, trivial, hk, hab, trivial⟩] at htree
  exact ⟨nodes, root, hcalls, htree⟩

/-- The tree of a string with a NUL in it is that of what stands before. -/
theorem string_ends_at_nul :
    Delivers (.str "a\x00b") [.valStrStart, .valStrEnd ['a', '\x00', 'b']] ∧
    ¬ ∃ nodes root, (run 12 .init (whole [.valStrStart, .valStrEnd ['a', '\x00', 'b']])).calls =
        [.value nodes (some root)] ∧
      Tree nodes (fun _ => True) root (.str "a\x00b") := by
  have hdelivers : Delivers (.str "a\x00b") [.valStrStart, .valStrEnd ['a', '\x00', 'b']] :=
    @Delivers.str "a\x00b" [] ['a', '\x00', 'b'] (by decide)
  refine ⟨hdelivers, ?_⟩
  rintro ⟨nodes, root, hcalls, htree⟩
  obtain ⟨nodes', root', hcalls', htree', -⟩ := run_whole 12 ready_init hdelivers (by decide)
  rw [hcalls'] at hcalls
  simp only [Uctx.init, List.nil_append, List.cons.injEq, Called.value.injEq, Option.some.injEq,
    and_true] at hcalls
  obtain ⟨rfl, rfl⟩ := hcalls
  have heq : Json.str "a\x00b" = .str (cstr "a\x00b") := htree.unique htree'
  exact absurd (Json.str.inj heq) (by decide)

end Ucentral.Client.Parser
