import Ucentral.Router.Restore

/-! YANG paths as elements of a protobuf path.

    `convertYangPath2ProtoPath` cuts a path at every slash, also at those inside of a predicate:

        /STATIC_ROUTE/STATIC_ROUTE_LIST[prefix=10.0.0.0/24][vrf-name=default]

        STATIC_ROUTE   STATIC_ROUTE_LIST[prefix=10.0.0.0   24][vrf-name=default] -/

namespace Ucentral.Plat.YangPath
open Inet Router Decimal

/-! ### The conversion -/

/-- `if (strlen(pathStart)) path->add_element(pathStart);` -/
def addElement (piece : List Char) : List (List Char) := if piece = [] then [] else [piece]

/-- The loop over what is left of the path; `piece` is what lies between `pathStart` and there. -/
def convLoop : List Char → List Char → List (List Char)
  | [], piece => addElement piece
  | c :: cs, piece =>
    if c = '/' then addElement piece ++ convLoop cs [] else convLoop cs (piece ++ [c])

/-- `convertYangPath2ProtoPath`: the elements that are added. -/
def convertYangPath2ProtoPath (yangPath : List Char) : List (List Char) := convLoop yangPath []

/-! ### Paths made of elements -/

/-- `[key=value]`; only the value may hold a slash. -/
structure Predicate where
  key : List Char
  value : List Char
  key_plain : '/' ∉ key

def Predicate.text (p : Predicate) : List Char := '[' :: p.key ++ '=' :: p.value ++ [']']

/-- A name and its predicates. -/
structure Element where
  name : List Char
  preds : List Predicate
  name_ne_nil : name ≠ []
  name_plain : '/' ∉ name

def Element.text (e : Element) : List Char := e.name ++ e.preds.flatMap Predicate.text

def yangPath (es : List Element) : List Char := es.flatMap fun e => '/' :: e.text

/-- No value of a predicate holds a slash. -/
def Plain (es : List Element) : Prop := ∀ e ∈ es, ∀ p ∈ e.preds, '/' ∉ p.value

/-! ### Cutting at slashes -/

theorem convLoop_append (ys : List Char) : ∀ (xs piece : List Char),
    convLoop (xs ++ '/' :: ys) piece = convLoop xs piece ++ convLoop ys []
  | [], piece => by rw [List.nil_append, convLoop, convLoop, if_pos rfl]
  | c :: xs, piece => by
      rw [List.cons_append, convLoop, convLoop]
      split
      · rw [convLoop_append ys xs [], List.append_assoc]
      · exact convLoop_append ys xs _

theorem convLoop_plain : ∀ {xs : List Char} (piece : List Char), '/' ∉ xs →
    convLoop xs piece = addElement (piece ++ xs)
  | [], piece, _ => by rw [List.append_nil, convLoop]
  | c :: xs, piece, h => by
      rw [List.mem_cons, not_or] at h
      rw [convLoop, if_neg (Ne.symm h.1), convLoop_plain _ h.2, List.append_assoc]
      rfl

theorem addElement_of_ne_nil {piece : List Char} (h : piece ≠ []) : addElement piece = [piece] :=
  if_neg h

/-- A character that is no slash gives an element. -/
theorem convLoop_ne_nil : ∀ {xs : List Char} (piece : List Char),
    (piece ≠ [] ∨ ∃ c ∈ xs, c ≠ '/') → convLoop xs piece ≠ []
  | [], piece, h => by
      rcases h with h | ⟨c, hc, -⟩
      · rw [convLoop, addElement_of_ne_nil h]
        exact List.cons_ne_nil _ _
      · cases hc
  | c :: xs, piece, h => by
      rw [convLoop]
      by_cases hslash : c = '/'
      · rw [if_pos hslash]
        rcases h with h | ⟨d, hd, hne⟩
        · rw [addElement_of_ne_nil h]
          exact List.cons_ne_nil _ _
        · rcases List.mem_cons.mp hd with rfl | hd
          · exact absurd hslash hne
          · exact fun hnil =>
              convLoop_ne_nil [] (Or.inr ⟨d, hd, hne⟩) (List.append_eq_nil_iff.mp hnil).2
      · rw [if_neg hslash]
        exact convLoop_ne_nil _ (Or.inl (by simp))

/-! ### The elements -/

theorem Element.text_ne_nil (e : Element) : e.text ≠ [] := fun h =>
  e.name_ne_nil (List.append_eq_nil_iff.mp h).1

theorem Element.slash_mem_text (e : Element) : '/' ∈ e.text ↔ ∃ p ∈ e.preds, '/' ∈ p.value := by
  have hbracket : ('/' : Char) ≠ '[' ∧ ('/' : Char) ≠ '=' ∧ ('/' : Char) ≠ ']' := by decide
  rw [Element.text, List.mem_append, or_iff_right e.name_plain, List.mem_flatMap]
  refine exists_congr fun p => and_congr_right fun _ => ?_
  simp [Predicate.text, hbracket, p.key_plain]

/-- An element ends with its name or with a bracket. -/
theorem Element.getLast_ne_slash (e : Element) : e.text.getLast e.text_ne_nil ≠ '/' := by
  obtain ⟨name, preds, hne, hplain⟩ := e
  rcases List.eq_nil_or_concat preds with rfl | ⟨preds, p, rfl⟩
  · intro h
    refine hplain ?_
    rw [← h]
    simp [Element.text]
  · have htext : Element.text ⟨name, preds.concat p, hne, hplain⟩ =
        (name ++ preds.flatMap Predicate.text ++ '[' :: p.key ++ '=' :: p.value) ++ [']'] := by
      simp [Element.text, Predicate.text]
    rw [List.getLast_congr _ (by simp) htext, List.getLast_append_singleton]
    decide

theorem convertYangPath_cons (e : Element) (es : List Element) :
    convertYangPath2ProtoPath (yangPath (e :: es)) =
      convLoop e.text [] ++ convertYangPath2ProtoPath (yangPath es) := by
  have hslash : yangPath (e :: es) = '/' :: (e.text ++ yangPath es) := rfl
  rw [convertYangPath2ProtoPath, hslash, convLoop, if_pos rfl]
  change convLoop (e.text ++ yangPath es) [] = _
  cases es with
  | nil =>
    change convLoop (e.text ++ []) [] = convLoop e.text [] ++ []
    rw [List.append_nil, List.append_nil]
  | cons e' es =>
    have hnext : yangPath (e' :: es) = '/' :: (e'.text ++ yangPath es) := rfl
    rw [hnext, convLoop_append, convertYangPath2ProtoPath, convLoop, if_pos rfl]
    rfl

/-- An element becomes one of the path if it holds no slash, and more than one otherwise. -/
theorem Element.pieces (e : Element) :
    '/' ∉ e.text ∧ convLoop e.text [] = [e.text] ∨ '/' ∈ e.text ∧ 2 ≤ (convLoop e.text []).length := by
  by_cases h : '/' ∈ e.text
  · refine Or.inr ⟨h, ?_⟩
    obtain ⟨xs, ys, htext, hxs⟩ := List.eq_append_cons_of_mem h
    have hfirst : xs ≠ [] := by
      rintro rfl
      have hhead : e.text.head? = some '/' := by rw [htext]; rfl
      obtain ⟨c, name, hname⟩ := List.exists_cons_of_ne_nil e.name_ne_nil
      rw [Element.text, hname] at hhead
      exact e.name_plain (by rw [hname, Option.some.inj hhead]; exact List.mem_cons_self)
    have hlast : ∃ c ∈ ys, c ≠ '/' := by
      have hend := e.getLast_ne_slash
      cases hys : ys with
      | nil =>
        rw [hys] at htext
        rw [List.getLast_congr _ (by simp) htext, List.getLast_append_singleton] at hend
        exact absurd rfl hend
      | cons c cs =>
        rw [hys] at htext
        refine ⟨_, List.getLast_mem (List.cons_ne_nil c cs), ?_⟩
        rw [List.getLast_congr _ (by simp) htext] at hend
        rwa [List.getLast_append_of_ne_nil _ (List.cons_ne_nil _ _),
          List.getLast_cons (List.cons_ne_nil c cs)] at hend
    obtain ⟨c, hc, hne⟩ := hlast
    have hleft : 0 < (convLoop xs []).length := by
      rw [convLoop_plain [] hxs, List.nil_append, addElement_of_ne_nil hfirst]
      exact Nat.zero_lt_one
    have hright : 0 < (convLoop ys []).length :=
      List.length_pos_of_ne_nil (convLoop_ne_nil [] (Or.inr ⟨c, hc, hne⟩))
    rw [htext, convLoop_append, List.length_append]
    omega
  · refine Or.inl ⟨h, ?_⟩
    rw [convLoop_plain [] h, List.nil_append, addElement_of_ne_nil e.text_ne_nil]

theorem plain_cons (e : Element) (es : List Element) : Plain (e :: es) ↔ '/' ∉ e.text ∧ Plain es := by
  unfold Plain
  rw [List.forall_mem_cons, e.slash_mem_text]
  simp only [not_exists, not_and]

theorem length_le_convert : ∀ es : List Element,
    es.length ≤ (convertYangPath2ProtoPath (yangPath es)).length
  | [] => Nat.zero_le _
  | e :: es => by
      have ih := length_le_convert es
      rw [convertYangPath_cons, List.length_append, List.length_cons]
      rcases e.pieces with ⟨-, h⟩ | ⟨-, h⟩
      · rw [h, List.length_singleton]
        omega
      · omega

theorem length_convert_iff : ∀ es : List Element,
    (convertYangPath2ProtoPath (yangPath es)).length = es.length ↔ Plain es
  | [] => iff_of_true rfl (List.forall_mem_nil _)
  | e :: es => by
      have hle := length_le_convert es
      rw [convertYangPath_cons, List.length_append, List.length_cons, plain_cons,
        ← length_convert_iff es]
      rcases e.pieces with ⟨hplain, h⟩ | ⟨hslash, h⟩
      · rw [h, List.length_singleton, and_iff_right hplain]
        omega
      · exact iff_of_false (by omega) fun hp => hp.1 hslash

theorem convert_of_plain : ∀ {es : List Element}, Plain es →
    convertYangPath2ProtoPath (yangPath es) = es.map Element.text
  | [], _ => rfl
  | e :: es, h => by
      rw [plain_cons] at h
      rcases e.pieces with ⟨-, heq⟩ | ⟨hslash, -⟩
      · rw [convertYangPath_cons, heq, convert_of_plain h.2]
        rfl
      · exact absurd hslash h.1

/-- A path becomes its elements, and gains none, exactly if no value of a predicate holds a slash; of
    such paths those with different elements become different paths. -/
theorem convertYangPath_eq_iff (es : List Element) :
    (convertYangPath2ProtoPath (yangPath es) = es.map Element.text ↔ Plain es) ∧
    ((convertYangPath2ProtoPath (yangPath es)).length = es.length ↔ Plain es) ∧
    (Plain es → ∀ es', Plain es' →
      convertYangPath2ProtoPath (yangPath es) = convertYangPath2ProtoPath (yangPath es') →
      es.map Element.text = es'.map Element.text) := by
  have hlen := length_convert_iff es
  refine ⟨⟨fun h => hlen.mp ?_, convert_of_plain⟩, hlen, fun h es' h' heq => ?_⟩
  · rw [h, List.length_map]
  · rwa [convert_of_plain h, convert_of_plain h'] at heq

/-! ### The path of a static route -/

/-- `gpath` of `gnma_route_remove`. -/
def gnmaRouteRemovePath (p : IpPrefix) : List Char :=
  "/sonic-static-route:sonic-static-route/STATIC_ROUTE/STATIC_ROUTE_LIST[prefix=".toList ++
    (routePrefixText p).toList ++ "][vrf-name=default]".toList

def staticRouteElements (p : IpPrefix) : List Element :=
  [⟨"sonic-static-route:sonic-static-route".toList, [], by simp, by simp⟩,
    ⟨"STATIC_ROUTE".toList, [], by simp, by simp⟩,
    ⟨"STATIC_ROUTE_LIST".toList, [⟨"prefix".toList, (routePrefixText p).toList, by simp⟩,
      ⟨"vrf-name".toList, "default".toList, by simp⟩], by simp, by simp⟩]

theorem gnmaRouteRemovePath_eq (p : IpPrefix) :
    gnmaRouteRemovePath p = yangPath (staticRouteElements p) := by
  have hstart : "/sonic-static-route:sonic-static-route/STATIC_ROUTE/STATIC_ROUTE_LIST[prefix=".toList =
      '/' :: "sonic-static-route:sonic-static-route".toList ++ '/' :: "STATIC_ROUTE".toList ++
        '/' :: "STATIC_ROUTE_LIST".toList ++ '[' :: "prefix".toList ++ ['='] := by simp
  have hend : "][vrf-name=default]".toList =
      ']' :: '[' :: "vrf-name".toList ++ '=' :: "default".toList ++ [']'] := by simp
  have hpath : yangPath (staticRouteElements p) =
      '/' :: ("sonic-static-route:sonic-static-route".toList ++ []) ++
        ('/' :: ("STATIC_ROUTE".toList ++ []) ++ ('/' :: ("STATIC_ROUTE_LIST".toList ++
          (('[' :: "prefix".toList ++ '=' :: (routePrefixText p).toList ++ [']']) ++
            (('[' :: "vrf-name".toList ++ '=' :: "default".toList ++ [']']) ++ []))) ++ [])) := rfl
  unfold gnmaRouteRemovePath
  rw [hstart, hend, hpath]
  simp only [List.append_nil, List.append_assoc, List.cons_append, List.nil_append]

theorem slash_mem_routePrefixText (p : IpPrefix) : '/' ∈ (routePrefixText p).toList := by
  simp [routePrefixText]

theorem not_plain_staticRouteElements (p : IpPrefix) : ¬ Plain (staticRouteElements p) := by
  intro h
  refine h _ (List.mem_cons_of_mem _ (List.mem_cons_of_mem _ (List.mem_singleton_self _))) _
    List.mem_cons_self (slash_mem_routePrefixText p)

/-- The path of a static route always gains elements. -/
theorem gnmaRouteRemovePath_gains (p : IpPrefix) : (staticRouteElements p).length <
    (convertYangPath2ProtoPath (gnmaRouteRemovePath p)).length := by
  rw [gnmaRouteRemovePath_eq]
  refine Nat.lt_of_le_of_ne (length_le_convert _) fun heq => ?_
  exact not_plain_staticRouteElements p ((length_convert_iff _).mp heq.symm)

/-- The prefix of a route is cut in two. -/
theorem slash_in_predicate_splits : ¬ ∀ es : List Element,
    convertYangPath2ProtoPath (yangPath es) = es.map Element.text := by
  intro h
  have hgains := gnmaRouteRemovePath_gains ⟨⟨10, 0, 0, 0⟩, 24⟩
  rw [gnmaRouteRemovePath_eq, h, List.length_map] at hgains
  exact Nat.lt_irrefl _ hgains

end Ucentral.Plat.YangPath
