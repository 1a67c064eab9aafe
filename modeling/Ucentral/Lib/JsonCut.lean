import Ucentral.Lib.JsonText

/-! What can be read from the middle of a JSON text.

    A scan over a text knows at each point whether it is outside of a string, inside of one, or
    behind a backslash in one. Outside stand only brackets, separators, white space, numbers and
    literals. So an object that is read from the middle of a text is one of two things: if the point
    is outside of a string, it is a part of the value of the text; if it is inside, its own keys are
    what stands outside in the text, and hold nothing but such characters. -/

namespace CJson

/-! ### Scanning -/

inductive Phase
  | out
  | str
  | esc
  deriving DecidableEq

namespace Phase

def step : Phase → Char → Phase
  | .out, c => if c = '"' then .str else .out
  | .str, c => if c = '"' then .out else if c = '\\' then .esc else .str
  | .esc, _ => .str

def scan (p : Phase) (w : List Char) : Phase := w.foldl step p

@[simp] theorem scan_nil (p : Phase) : p.scan [] = p := rfl

@[simp] theorem scan_cons (p : Phase) (c : Char) (w : List Char) :
    p.scan (c :: w) = (p.step c).scan w := rfl

@[simp] theorem scan_append (p : Phase) (v w : List Char) :
    p.scan (v ++ w) = (p.scan v).scan w := by
  simp [scan]

end Phase

open Phase

/-- The characters that stand outside of strings, the quotes at their ends among them. -/
def loose (c : Char) : Bool :=
  decide (c.toNat ≤ 32) || scalarChar c || ['{', '}', '[', ']', ',', ':', '"'].contains c

/-- Scanned from a phase, only such characters stand outside. -/
def LooseFrom : Phase → List Char → Prop
  | _, [] => True
  | p, c :: w => (p = .out → loose c = true) ∧ LooseFrom (p.step c) w

theorem looseFrom_append (p : Phase) (v w : List Char) :
    LooseFrom p (v ++ w) ↔ LooseFrom p v ∧ LooseFrom (p.scan v) w := by
  induction v generalizing p with
  | nil => simp [LooseFrom]
  | cons c v ih => simp [LooseFrom, ih, and_assoc]

theorem step_out_of_ne {c : Char} (h : c ≠ '"') : Phase.out.step c = .out := by
  simp [Phase.step, h]

/-- A stretch without quotes, outside. -/
theorem scan_out_of_notMem {w : List Char} (h : '"' ∉ w) : Phase.out.scan w = .out := by
  induction w with
  | nil => rfl
  | cons c w ih =>
    simp only [List.mem_cons, not_or] at h
    rw [scan_cons, step_out_of_ne (Ne.symm h.1)]
    exact ih h.2

theorem looseFrom_out {w : List Char} (hq : '"' ∉ w) (h : ∀ c ∈ w, loose c = true) :
    LooseFrom .out w := by
  induction w with
  | nil => trivial
  | cons c w ih =>
    simp only [List.mem_cons, not_or] at hq
    refine ⟨fun _ => h c (List.mem_cons_self ..), ?_⟩
    rw [step_out_of_ne (Ne.symm hq.1)]
    exact ih hq.2 fun x hx => h x (List.mem_cons_of_mem _ hx)

/-- Inside of a string nothing is asked for, and no point is outside. -/
theorem scan_raw {raw : List Char} (h : Raw raw) : Phase.str.scan raw = .str := by
  induction h with
  | nil => rfl
  | char hq he _ ih => simpa [Phase.step, hq, he] using ih
  | escape _ ih => simpa [Phase.step] using ih

theorem looseFrom_raw {raw : List Char} (h : Raw raw) : LooseFrom .str raw := by
  induction h with
  | nil => trivial
  | char hq he _ ih => exact ⟨by simp, by simpa [Phase.step, hq, he] using ih⟩
  | escape _ ih => exact ⟨by simp, by simp [Phase.step], by simpa [Phase.step] using ih⟩

theorem scan_raw_ne_out {x y : List Char} (h : Raw (x ++ y)) : Phase.str.scan x ≠ .out := by
  generalize hr : x ++ y = raw at h
  induction h generalizing x with
  | nil =>
    obtain ⟨rfl, _⟩ := List.append_eq_nil_iff.mp hr
    simp
  | char hq he _ ih =>
    cases x with
    | nil => simp
    | cons d x =>
      obtain ⟨rfl, hx⟩ := List.cons.inj hr
      simpa [Phase.step, hq, he] using ih hx
  | escape _ ih =>
    cases x with
    | nil => simp
    | cons d x =>
      obtain ⟨rfl, hx⟩ := List.cons.inj hr
      cases x with
      | nil => simp [Phase.step]
      | cons e x =>
        have hx : x ++ y = _ := (List.cons.inj hx).2
        simpa [Phase.step] using ih hx

/-! ### Texts are closed -/

section
variable {L : Lexis}

theorem loose_of_space {c : Char} (h : L.space c = true) : loose c = true := by
  simp [loose, L.space_le h]

/-- Nothing but white space is that small. -/
theorem not_space {c : Char} (h : 32 < c.toNat) : L.space c = false := by
  cases hs : L.space c with
  | false => rfl
  | true => exact absurd (L.space_le hs) (by omega)

theorem notMem_blank {c : Char} {w : List Char} (hw : L.Blank w) (h : 32 < c.toNat) : c ∉ w := by
  intro hc
  have := not_space (L := L) h
  rw [hw c hc] at this
  cases this

/-- A stretch whose scan starts and ends outside, with loose characters there. -/
def Closed (w : List Char) : Prop := Phase.out.scan w = .out ∧ LooseFrom .out w

theorem closed_append {v w : List Char} (hv : Closed v) (hw : Closed w) : Closed (v ++ w) := by
  refine ⟨by rw [scan_append, hv.1, hw.1], ?_⟩
  rw [looseFrom_append, hv.1]
  exact ⟨hv.2, hw.2⟩

theorem closed_of_loose {w : List Char} (hq : '"' ∉ w) (h : ∀ c ∈ w, loose c = true) : Closed w :=
  ⟨scan_out_of_notMem hq, looseFrom_out hq h⟩

theorem closed_blank {w : List Char} (h : L.Blank w) : Closed w :=
  closed_of_loose (notMem_blank h (by decide)) fun c hc => loose_of_space (h c hc)

theorem closed_cons {c : Char} {w : List Char} (hq : c ≠ '"') (hc : loose c = true)
    (hw : Closed w) : Closed (c :: w) :=
  closed_append (closed_of_loose (w := [c]) (by simpa using Ne.symm hq) (by simpa using hc)) hw

theorem closed_quoted {raw : List Char} (h : Raw raw) : Closed ('"' :: (raw ++ ['"'])) := by
  constructor
  · simp [Phase.step, scan_raw h]
  · refine ⟨fun _ => by decide, ?_⟩
    change LooseFrom .str (raw ++ ['"'])
    rw [looseFrom_append, scan_raw h]
    exact ⟨looseFrom_raw h, by simp [LooseFrom]⟩

theorem closed_front {keyed : Bool} {front : List Char} {key : String}
    (h : L.Front keyed front key) : Closed front := by
  cases h with
  | item hsp => exact closed_blank hsp
  | key hsp hraw _ h₁ h₂ =>
    refine closed_append (closed_blank hsp) ?_
    have htail := closed_cons (c := ':') (by decide) (by decide) (closed_blank h₂)
    have hrest := closed_append (closed_quoted hraw) (closed_append (closed_blank h₁) htail)
    simpa using hrest

theorem scalarChar_ne_quote {c : Char} (h : scalarChar c = true) : c ≠ '"' := by
  rintro rfl
  revert h
  decide

theorem closed_closer (keyed : Bool) : Closed [closer keyed] := by
  cases keyed <;> exact closed_of_loose (by decide) (List.all_eq_true.mp (by decide))

theorem closed_text {w : List Char} {node : Node} (h : L.Text w node) : Closed w := by
  induction h with
  | scalar h =>
    have hchars := (L.scalar_chars h).2
    refine closed_of_loose (fun hq => scalarChar_ne_quote (hchars _ hq) rfl) fun c hc => ?_
    simp [loose, hchars c hc]
  | str hraw _ => exact closed_quoted hraw
  | arr _ ih => exact closed_cons (by decide) (by decide) ih
  | obj _ ih => exact closed_cons (by decide) (by decide) ih
  | close hsp => exact closed_append (closed_blank hsp) (closed_closer _)
  | last hf _ hsp ih =>
    refine closed_append (closed_front hf) (closed_append ih ?_)
    exact closed_append (closed_blank hsp) (closed_closer _)
  | more hf _ hsp _ _ ih ih' =>
    refine closed_append (closed_front hf) (closed_append ih ?_)
    exact closed_append (closed_blank hsp) (closed_cons (by decide) (by decide) ih')

/-! ### Brackets inside -/

def Node.vals : Node → List Json
  | .val v => [v]
  | .items _ l => l.map (·.2)

/-- A bracket in a concatenation stands in one of the two parts. -/
theorem bracket_append {a b x y : List Char} (h : a ++ '{' :: b = x ++ y) :
    (∃ z, x = a ++ '{' :: z ∧ b = z ++ y) ∨ ∃ z, a = x ++ z ∧ y = z ++ '{' :: b := by
  rcases List.append_eq_append_iff.mp h with ⟨z, rfl, hz⟩ | ⟨z, rfl, rfl⟩
  · cases z with
    | nil => exact Or.inr ⟨[], by simp, by simpa using hz.symm⟩
    | cons c z =>
      obtain ⟨rfl, rfl⟩ := List.cons.inj hz
      exact Or.inl ⟨z, rfl, rfl⟩
  · exact Or.inr ⟨z, rfl, rfl⟩

theorem bracket_notMem_blank {w a b : List Char} (h : L.Blank w) : w ≠ a ++ '{' :: b := by
  rintro rfl
  exact notMem_blank h (by decide) (List.mem_append_right a (List.mem_cons_self ..))

/-- Before the value of an item, a bracket only stands in the key. -/
theorem bracket_front {keyed : Bool} {front a b : List Char} {key : String}
    (h : L.Front keyed front key) (heq : front = a ++ '{' :: b) : Phase.out.scan a ≠ .out := by
  cases h with
  | item hsp => exact absurd heq (bracket_notMem_blank hsp)
  | @key sp raw _ sp₁ sp₂ hsp hraw _ h₁ h₂ =>
    rcases bracket_append heq.symm with ⟨z, hz, _⟩ | ⟨z, rfl, hz⟩
    · exact absurd hz (bracket_notMem_blank hsp)
    · rw [scan_append, (closed_blank hsp).1]
      cases z with
      | nil => simp at hz
      | cons c z =>
        obtain ⟨rfl, htl⟩ := List.cons.inj hz
        rcases bracket_append htl.symm with ⟨y, rfl, _⟩ | ⟨y, _, hy⟩
        · exact scan_raw_ne_out hraw
        · have hmem : '{' ∈ '"' :: (sp₁ ++ ':' :: sp₂) := by simp [hy]
          have hn₁ := notMem_blank (c := '{') h₁ (by decide)
          have hn₂ := notMem_blank (c := '{') h₂ (by decide)
          simp [hn₁, hn₂] at hmem

/-- A bracket with this behind it opens an object that is a part of the node. -/
def OpensPart (L : Lexis) (b : List Char) (node : Node) : Prop :=
  ∃ w c l, '{' :: b = w ++ c ∧ L.Text w (.val (.obj l)) ∧ ∃ v ∈ node.vals, Within (.obj l) v

theorem OpensPart.append {b : List Char} {node : Node} (h : OpensPart L b node)
    (tail : List Char) : OpensPart L (b ++ tail) node := by
  obtain ⟨w, c, l, hw, ht, hin⟩ := h
  exact ⟨w, c ++ tail, l, by rw [← List.cons_append, hw, List.append_assoc], ht, hin⟩

theorem OpensPart.mono {b : List Char} {node node' : Node} (h : OpensPart L b node)
    (hsub : ∀ {x v}, v ∈ node.vals → Within x v → ∃ v' ∈ node'.vals, Within x v') :
    OpensPart L b node' := by
  obtain ⟨w, c, l, hw, ht, v, hv, hin⟩ := h
  exact ⟨w, c, l, hw, ht, hsub hv hin⟩

/-- A bracket in an item and what comes behind it stands in the value of the item or behind. -/
theorem bracket_item {keyed : Bool} {front w tail a b : List Char} {key : String} {v : Json}
    (hf : L.Front keyed front key) (h : L.Text w (.val v))
    (ih : ∀ {a b}, w = a ++ '{' :: b → Phase.out.scan a = .out → OpensPart L b (.val v))
    (heq : front ++ (w ++ tail) = a ++ '{' :: b) (hscan : Phase.out.scan a = .out) :
    OpensPart L b (.val v) ∨ ∃ a', tail = a' ++ '{' :: b ∧ Phase.out.scan a' = .out := by
  rcases bracket_append heq.symm with ⟨y, hy, _⟩ | ⟨y, rfl, hy⟩
  · exact absurd hscan (bracket_front hf hy)
  · rw [scan_append, (closed_front hf).1] at hscan
    rcases bracket_append hy.symm with ⟨z, rfl, rfl⟩ | ⟨z, rfl, hz⟩
    · exact Or.inl ((ih rfl hscan).append tail)
    · rw [scan_append, (closed_text h).1] at hscan
      exact Or.inr ⟨z, hz, hscan⟩

/-- A bracket outside of the strings of a text opens an object that is a part of the value. -/
theorem bracket_text {w : List Char} {node : Node} (h : L.Text w node) :
    ∀ {a b}, w = a ++ '{' :: b → Phase.out.scan a = .out → OpensPart L b node := by
  induction h with
  | scalar h =>
    rintro a b rfl _
    have hchar := (L.scalar_chars h).2 '{' (by simp)
    exact absurd hchar (by decide)
  | @str raw s hraw _ =>
    intro a b heq hscan
    cases a with
    | nil => simp at heq
    | cons c a =>
      obtain ⟨rfl, htl⟩ := List.cons.inj heq
      rcases bracket_append htl.symm with ⟨y, rfl, _⟩ | ⟨y, _, hy⟩
      · exact absurd hscan (scan_raw_ne_out hraw)
      · cases y with
        | nil => simp at hy
        | cons d y => simp at hy
  | @arr w l _ ih =>
    intro a b heq hscan
    cases a with
    | nil => simp at heq
    | cons c a =>
      obtain ⟨rfl, htl⟩ := List.cons.inj heq
      exact (ih htl hscan).mono fun hv hin => ⟨_, by simp [Node.vals], Within.arr hv hin⟩
  | @obj w l h ih =>
    intro a b heq hscan
    cases a with
    | nil => exact ⟨'{' :: w, [], l, by simpa using heq.symm, .obj h, _, by simp [Node.vals], .refl⟩
    | cons c a =>
      obtain ⟨rfl, htl⟩ := List.cons.inj heq
      refine (ih htl hscan).mono fun hv hin => ?_
      obtain ⟨m, hm, rfl⟩ := List.mem_map.mp hv
      exact ⟨_, by simp [Node.vals], Within.obj hm hin⟩
  | @close keyed sp hsp =>
    intro a b heq _
    rcases bracket_append heq.symm with ⟨y, hy, _⟩ | ⟨y, _, hy⟩
    · exact absurd hy (bracket_notMem_blank hsp)
    · have hmem : '{' ∈ [closer keyed] := by simp [hy]
      cases keyed <;> simp [closer] at hmem
  | @last keyed front key w v sp hf h hsp ih =>
    intro a b heq hscan
    rcases bracket_item hf h ih heq hscan with hpart | ⟨z, hz, _⟩
    · exact hpart.mono fun hv hin => ⟨_, by simpa [Node.vals] using hv, hin⟩
    · have hmem : '{' ∈ sp ++ [closer keyed] := by simp [hz]
      have hn := notMem_blank (c := '{') hsp (by decide)
      cases keyed <;> simp [hn, closer] at hmem
  | @more keyed front key w v sp w₂ l hf h hsp h' hne ih ih' =>
    intro a b heq hscan
    rcases bracket_item hf h ih heq hscan with hpart | ⟨z, hz, hscan'⟩
    · refine hpart.mono fun hv hin => ?_
      obtain rfl := List.mem_singleton.mp hv
      exact ⟨_, List.mem_cons_self .., hin⟩
    · rcases bracket_append hz.symm with ⟨x, hx, _⟩ | ⟨x, rfl, hx⟩
      · exact absurd hx (bracket_notMem_blank hsp)
      · rw [scan_append, (closed_blank hsp).1] at hscan'
        cases x with
        | nil => simp at hx
        | cons c x =>
          obtain ⟨rfl, htl⟩ := List.cons.inj hx
          exact (ih' htl hscan').mono fun hv hin => ⟨_, List.mem_cons_of_mem _ hv, hin⟩

/-! ### Strings turned inside out -/

/-- One scan is outside of a string where the other is inside. -/
def Opposite (p q : Phase) : Prop := p = .out ∧ q = .str ∨ p = .str ∧ q = .out

theorem opposite_step {p q : Phase} {c : Char} (h : Opposite p q) (hc : loose c = true) :
    Opposite (p.step c) (q.step c) := by
  have he : c ≠ '\\' := by
    rintro rfl
    exact absurd hc (by decide)
  by_cases hq : c = '"'
  · rcases h with ⟨rfl, rfl⟩ | ⟨rfl, rfl⟩ <;> simp [Opposite, Phase.step, hq]
  · rcases h with ⟨rfl, rfl⟩ | ⟨rfl, rfl⟩ <;> simp [Opposite, Phase.step, hq, he]

/-- Two scans that start so stay so, as long as each finds loose characters outside. -/
theorem opposite_scan {p q : Phase} {w : List Char} (h : Opposite p q) (hp : LooseFrom p w)
    (hq : LooseFrom q w) : Opposite (p.scan w) (q.scan w) := by
  induction w generalizing p q with
  | nil => exact h
  | cons c w ih =>
    have hc : loose c = true := by
      rcases h with ⟨rfl, _⟩ | ⟨_, rfl⟩
      · exact hp.1 rfl
      · exact hq.1 rfl
    exact ih (opposite_step h hc) hp.2 hq.2

/-- What is inside of a string for one and outside for the other has no escapes. -/
theorem loose_raw {raw : List Char} (h : Raw raw) (hl : LooseFrom .out raw) :
    '\\' ∉ raw ∧ ∀ c ∈ raw, loose c = true := by
  induction h with
  | nil => simp
  | @char c raw hq he _ ih =>
    have hl' := hl.2
    rw [step_out_of_ne hq] at hl'
    obtain ⟨hn, hall⟩ := ih hl'
    refine ⟨by simp [hn, Ne.symm he], ?_⟩
    intro x hx
    rcases List.mem_cons.mp hx with rfl | hx
    · exact hl.1 rfl
    · exact hall x hx
  | escape _ _ => exact absurd (hl.1 rfl) (by decide)

theorem key_front {front : List Char} {key : String} (hf : L.Front true front key) :
    ∃ y raw z, front = y ++ (raw ++ z) ∧ Phase.out.scan y = .str ∧ Raw raw ∧
      L.unescape raw = some key := by
  cases hf with
  | @key sp raw _ sp₁ sp₂ hsp hraw hkey _ _ =>
    refine ⟨sp ++ ['"'], raw, '"' :: (sp₁ ++ ':' :: sp₂), by simp, ?_, hraw, hkey⟩
    rw [scan_append, (closed_blank hsp).1]
    rfl

/-- Where the keys of an object stand. -/
theorem key_text {w : List Char} {l : List (String × Json)} (h : L.Text w (.items true l)) :
    ∀ m ∈ l, ∃ y raw z, w = y ++ (raw ++ z) ∧ Phase.out.scan y = .str ∧ Raw raw ∧
      L.unescape raw = some m.1 := by
  generalize hn : Node.items true l = node at h
  induction h generalizing l with
  | scalar _ => cases hn
  | str _ _ => cases hn
  | arr _ _ => cases hn
  | obj _ _ => cases hn
  | close _ =>
    cases hn
    simp
  | last hf _ _ _ =>
    cases hn
    intro m hm
    obtain rfl := List.mem_singleton.mp hm
    obtain ⟨y, raw, z, rfl, hy, hraw, hkey⟩ := key_front hf
    exact ⟨y, raw, _, by rw [List.append_assoc, List.append_assoc], hy, hraw, hkey⟩
  | @more _ front _ w₁ _ sp w₂ _ hf h₁ hsp _ _ _ ih' =>
    cases hn
    intro m hm
    rcases List.mem_cons.mp hm with rfl | hm
    · obtain ⟨y, raw, z, rfl, hy, hraw, hkey⟩ := key_front hf
      exact ⟨y, raw, _, by rw [List.append_assoc, List.append_assoc], hy, hraw, hkey⟩
    · obtain ⟨y, raw, z, rfl, hy, hraw, hkey⟩ := ih' rfl m hm
      refine ⟨front ++ (w₁ ++ (sp ++ ',' :: y)), raw, z, by simp, ?_, hraw, hkey⟩
      rw [scan_append, (closed_front hf).1, scan_append, (closed_text h₁).1, scan_append,
        (closed_blank hsp).1, scan_cons, step_out_of_ne (by decide), hy]

/-- An object that is read from inside of a string has only loose characters in its keys. -/
theorem keys_inside {w a b w' rest : List Char} {l : List (String × Json)} (hw : Closed w)
    (heq : w = a ++ '{' :: b) (hscan : Phase.out.scan a ≠ .out)
    (h : L.Text w' (.val (.obj l))) (hpart : '{' :: b = w' ++ rest) :
    ∀ m ∈ l, ∃ raw, L.unescape raw = some m.1 ∧ '\\' ∉ raw ∧ ∀ c ∈ raw, loose c = true := by
  obtain ⟨w₁, rfl, h₁⟩ := Lexis.text_obj h
  have hb : b = w₁ ++ rest := (List.cons.inj hpart).2
  have hloose := hw.2
  rw [heq, hb, looseFrom_append] at hloose
  -- behind the bracket the scan of the whole is inside of the string
  have hstep : (Phase.out.scan a).step '{' = .str := by
    cases hp : Phase.out.scan a with
    | out => exact absurd hp hscan
    | str => rfl
    | esc => rfl
  have hstr : LooseFrom .str w₁ := by
    have := hloose.2.2
    rw [hstep, looseFrom_append] at this
    exact this.1
  intro m hm
  obtain ⟨y, raw, z, rfl, hy, hraw, hkey⟩ := key_text h₁ m hm
  have hout := (closed_text h₁).2
  rw [looseFrom_append] at hout hstr
  have hopp := opposite_scan (p := .out) (q := .str) (Or.inl ⟨rfl, rfl⟩) hout.1 hstr.1
  have hyr : Phase.str.scan y = .out := by
    rcases hopp with ⟨hout, _⟩ | ⟨_, hstr⟩
    · rw [hy] at hout
      cases hout
    · exact hstr
  have hraw' := hstr.2
  rw [hyr, looseFrom_append] at hraw'
  exact ⟨raw, hkey, loose_raw hraw hraw'.1⟩

/-! ### Reading from a cut text -/

/-- The text of an object ends with its bracket. -/
theorem text_last {w : List Char} {node : Node} (h : L.Text w node) :
    ∀ {keyed l}, node = .items keyed l → ∃ u, w = u ++ [closer keyed] := by
  induction h with
  | scalar _ => intro keyed l hn; cases hn
  | str _ _ => intro keyed l hn; cases hn
  | arr _ _ => intro keyed l hn; cases hn
  | obj _ _ => intro keyed l hn; cases hn
  | @close _ sp _ =>
    intro keyed l hn
    cases hn
    exact ⟨sp, rfl⟩
  | @last _ front _ w _ sp _ _ _ _ =>
    intro keyed l hn
    cases hn
    exact ⟨front ++ (w ++ sp), by simp⟩
  | @more _ front _ w _ sp _ _ _ _ _ _ _ _ ih' =>
    intro keyed l hn
    cases hn
    obtain ⟨u, rfl⟩ := ih' rfl
    exact ⟨front ++ (w ++ (sp ++ ',' :: u)), by simp⟩

end

section Reader
variable {r : Reader}

/-- A text that is an object with white space around it. -/
structure ObjectText (r : Reader) (t : List Char) (l : List (String × Json)) where
  lead : List Char
  w : List Char
  trail : List Char
  eq : t = lead ++ (w ++ trail)
  blank_lead : r.Blank lead
  blank_trail : r.Blank trail
  text : r.Text w (.val (.obj l))
  accepts : r.accepts (.obj l)

/-- A piece of it that has all but white space reads the same. -/
theorem parse_whole {t a f g : List Char} {l : List (String × Json)} (h : ObjectText r t l)
    (heq : t = a ++ (f ++ g)) (ha : r.Blank a) (hg : r.Blank g) :
    ∃ rest, r.parse f = some (.obj l, rest) := by
  obtain ⟨lead, w, trail, ht, hlead, htrail, htext, haccepts⟩ := h
  obtain ⟨w₁, rfl, hitems⟩ := Lexis.text_obj htext
  have hsplit : lead ++ '{' :: (w₁ ++ trail) = a ++ (f ++ g) := by
    rw [← heq, ht, List.cons_append]
  rcases bracket_append hsplit with ⟨z, hz, _⟩ | ⟨z, hz, hfg⟩
  · exact absurd hz (bracket_notMem_blank ha)
  · have hblank : r.Blank z := fun c hc => hlead c (by simp [hz, hc])
    have hfg' : f ++ g = (z ++ '{' :: w₁) ++ trail := by simpa using hfg
    rcases List.append_eq_append_iff.mp hfg' with ⟨x, hx, rfl⟩ | ⟨x, rfl, _⟩
    · -- the object ends with a bracket, so nothing of it is in the blank rest
      obtain ⟨u, rfl⟩ := text_last hitems rfl
      have hx0 : x = [] := by
        rcases List.eq_nil_or_concat x with rfl | ⟨x', c, rfl⟩
        · rfl
        · have hend : (z ++ '{' :: u) ++ ['}'] = (f ++ x') ++ [c] := by simpa [closer] using hx
          obtain rfl : '}' = c := by simpa using (List.append_inj' hend rfl).2
          exact absurd (hg '}' (by simp)) (by simp [not_space])
      subst hx0
      refine ⟨[], r.parse_obj.mpr ⟨z, _, ?_, r.skipped_blank hblank, htext, haccepts⟩⟩
      simpa using hx.symm
    · exact ⟨x, r.parse_obj.mpr ⟨z, _, by simp, r.skipped_blank hblank, htext, haccepts⟩⟩

/-- An object that is read behind the first bracket, outside of the strings, is a smaller one. -/
theorem sizeOf_lt_of_parse {w z y tail rest : List Char} {d : Char} {l k : List (String × Json)}
    (htext : r.Text w (.val (.obj l))) (haccepts : r.accepts (.obj l))
    (hw : w = d :: z ++ '{' :: y) (hscan : Phase.out.scan (d :: z) = .out)
    (hread : r.parse ('{' :: (y ++ tail)) = some (.obj k, rest)) :
    sizeOf (Json.obj k) < sizeOf (Json.obj l) := by
  obtain ⟨w₂, rfl, hitems⟩ := Lexis.text_obj htext
  obtain ⟨rfl, hin⟩ := List.cons.inj hw
  obtain ⟨w₃, c, l₃, hw₃, htext₃, v, hv, hwithin⟩ := bracket_text hitems hin hscan
  obtain ⟨m, hm, rfl⟩ := List.mem_map.mp hv
  have hacc : r.accepts (.obj l₃) := r.accepts_within (.obj hm hwithin) haccepts
  have hread₃ : r.parse ('{' :: (y ++ tail)) = some (.obj l₃, c ++ tail) := by
    refine r.parse_obj.mpr ⟨[], w₃, ?_, r.skipped_nil, htext₃, hacc⟩
    rw [← List.cons_append, hw₃]
    simp
  rw [hread₃] at hread
  simp only [Option.some.injEq, Prod.mk.injEq] at hread
  rw [← hread.1]
  exact lt_of_le_of_lt (sizeOf_le_of_within hwithin) (sizeOf_lt_obj hm)

/-- An object that is read from a piece of the text is the whole object, or a smaller one, or one
    with only loose characters in its keys. -/
theorem parse_piece {t a f g : List Char} {l k : List (String × Json)} {rest : List Char}
    (h : ObjectText r t l) (heq : t = a ++ (f ++ g)) (hf : r.parse f = some (.obj k, rest)) :
    (r.Blank a ∧ r.Blank g) ∨ sizeOf (Json.obj k) < sizeOf (Json.obj l) ∨
      ∀ m ∈ k, ∃ raw, r.unescape raw = some m.1 ∧ '\\' ∉ raw ∧ ∀ c ∈ raw, loose c = true := by
  obtain ⟨lead, w, trail, ht, hlead, htrail, htext, haccepts⟩ := h
  obtain ⟨lead', w', rfl, _, htext', haccepts'⟩ := r.parse_obj.mp hf
  obtain ⟨w₁, rfl, hitems'⟩ := Lexis.text_obj htext'
  have hsplit : (a ++ lead') ++ '{' :: (w₁ ++ (rest ++ g)) = lead ++ (w ++ trail) := by
    rw [← ht, heq]
    simp
  rcases bracket_append hsplit with ⟨z, hz, _⟩ | ⟨z, hz, hw⟩
  · exact absurd hz (bracket_notMem_blank hlead)
  · cases z with
    | nil =>
      -- it begins where the object begins
      refine Or.inl ?_
      have hread : r.parse (w ++ trail) = some (.obj l, trail) :=
        r.parse_obj.mpr ⟨[], w, by simp, r.skipped_nil, htext, haccepts⟩
      have hread' : r.parse (w ++ trail) = some (.obj k, rest ++ g) :=
        r.parse_obj.mpr ⟨[], '{' :: w₁, by simp [hw], r.skipped_nil, htext', haccepts'⟩
      have htg : trail = rest ++ g := by
        rw [hread] at hread'
        simp only [Option.some.injEq, Prod.mk.injEq] at hread'
        exact hread'.2
      refine ⟨fun c hc => hlead c ?_, fun c hc => htrail c ?_⟩
      · rw [List.append_nil] at hz
        simp [← hz, hc]
      · simp [htg, hc]
    | cons d z =>
      rcases bracket_append hw.symm with ⟨y, hy, hy'⟩ | ⟨y, _, hy⟩
      · by_cases hscan : Phase.out.scan (d :: z) = .out
        · -- outside of the strings: a part of the object
          have hread : r.parse ('{' :: (y ++ trail)) = some (.obj k, rest ++ g) :=
            r.parse_obj.mpr ⟨[], '{' :: w₁, by simp [← hy'], r.skipped_nil, htext', haccepts'⟩
          exact Or.inr (Or.inl (sizeOf_lt_of_parse htext haccepts hy hscan hread))
        · -- inside of a string
          refine Or.inr (Or.inr ?_)
          have hclosed := closed_append (closed_text htext) (closed_blank htrail)
          have hpart : '{' :: (w₁ ++ (rest ++ g)) = ('{' :: w₁) ++ (rest ++ g) := rfl
          exact keys_inside hclosed hw hscan htext' hpart
      · exact absurd hy (bracket_notMem_blank htrail)

end Reader

end CJson
