import Mathlib.Data.List.Induction
import Ucentral.Proto.Handle
import Ucentral.Lib.JsonCut

/-! `callback_broker` on what it receives.

    The library delivers a text of the gateway in one piece or in several. The parser that would put
    the pieces together again is not used: each piece is handed to `proto_handle` as if it was a
    text. So a text that is cut inside of its JSON is lost, and what is dispatched from its pieces is
    something else: a part of the request, if anything. -/

namespace Ucentral.Proto
open CJson Plat Parse

/-- `LWS_CALLBACK_CLIENT_RECEIVE`: the requests that one piece has dispatched. -/
def dispatched (cJsonParse : List Char → Option (Json × List Char)) (ports : Ports)
    (piece : List Char) : List Json :=
  (protoHandle cJsonParse ports piece []).2

/-- The requests that are handed to a handler. -/
def isRequest (obj : Json) : Bool :=
  hasShape obj && getStringValue (getItem (some obj) "jsonrpc") == some "2.0" &&
    isString (getItem (some obj) "method")

theorem protoHandleBlob_calls (ports : Ports) (obj : Json) :
    (protoHandleBlob ports obj []).2 = if isRequest obj then [obj] else [] := by
  unfold protoHandleBlob isRequest
  rw [need_bind]
  cases hshape : hasShape obj with
  | false => rfl
  | true =>
    rw [if_pos rfl, text_bind]
    cases hver : getStringValue (getItem (some obj) "jsonrpc") with
    | none => rfl
    | some ver =>
      rw [Option.isSome_some, if_pos rfl, need_bind, strOf, hver, Option.getD_some]
      by_cases h2 : ver = "2.0"
      · subst h2
        simp only [beq_self_eq_true, if_true, Bool.true_and]
        rcases getItem (some obj) "method" with _ | method
        · rfl
        · rw [Parser.when, Option.isSome_some, if_pos rfl, text_bind, isString]
          cases getStringValue (some method) with
          | none => rfl
          | some name =>
            rw [Option.isSome_some, if_pos rfl, fill_bind, scratch_bind_pure]
            rfl
      · simp [h2]

theorem dispatched_eq (cJsonParse : List Char → Option (Json × List Char)) (ports : Ports)
    (piece : List Char) :
    dispatched cJsonParse ports piece =
      match cJsonParse piece with
      | none => []
      | some (obj, _) => if isRequest obj then [obj] else [] := by
  unfold dispatched protoHandle
  rcases cJsonParse piece with _ | ⟨obj, rest⟩
  · rfl
  · exact protoHandleBlob_calls ports obj

/-- A request is an object with a version. -/
theorem obj_of_isRequest {obj : Json} (h : isRequest obj = true) :
    ∃ l, obj = .obj l ∧ ∃ m ∈ l, m.1 = "jsonrpc" := by
  simp only [isRequest, Bool.and_eq_true, beq_iff_eq] at h
  have hver := h.1.2
  cases obj with
  | obj l =>
    refine ⟨l, rfl, ?_⟩
    simp only [getItem] at hver
    rcases hfind : l.find? (·.1 == "jsonrpc") with _ | m
    · simp [hfind, getStringValue] at hver
    · exact ⟨m, List.mem_of_find?_eq_some hfind, by simpa using List.find?_some hfind⟩
  | _ => simp [getItem, getStringValue] at hver

/-! ### One text -/

/-- At most one piece has anything but white space. -/
def OnePiece (r : Reader) (pieces : List (List Char)) : Prop :=
  ∃ pre f post, pieces = pre ++ f :: post ∧ ∀ g ∈ pre ++ post, r.Blank g

variable {r : Reader} {ports : Ports}

theorem blank_flatten {l : List (List Char)} : r.Blank l.flatten ↔ ∀ g ∈ l, r.Blank g := by
  simp only [Lexis.Blank, List.mem_flatten]
  constructor
  · intro h g hg c hc
    exact h c ⟨g, hg, hc⟩
  · rintro h c ⟨g, hg, hc⟩
    exact h g hg c hc

/-- White space dispatches nothing. -/
theorem dispatched_blank {g : List Char} (h : r.Blank g) : dispatched r.parse ports g = [] := by
  rw [dispatched_eq]
  rcases hparse : r.parse g with _ | ⟨obj, rest⟩
  · rfl
  · cases hreq : isRequest obj with
    | false => simp [hreq]
    | true =>
      obtain ⟨l, rfl, _⟩ := obj_of_isRequest hreq
      obtain ⟨lead, w, rfl, _, htext, _⟩ := r.parse_obj.mp hparse
      obtain ⟨w', rfl, _⟩ := Lexis.text_obj htext
      exact absurd rfl (bracket_notMem_blank h)

theorem flatMap_dispatched_blank {l : List (List Char)} (h : ∀ g ∈ l, r.Blank g) :
    l.flatMap (dispatched r.parse ports) = [] :=
  List.flatMap_eq_nil_iff.mpr fun g hg => dispatched_blank (h g hg)

/-- What a text dispatches that is delivered in one piece. -/
theorem dispatched_text {t : List Char} {l : List (String × Json)} (ht : ObjectText r t l) :
    dispatched r.parse ports t = if isRequest (.obj l) then [.obj l] else [] := by
  have hself : t = [] ++ (t ++ []) := by rw [List.nil_append, List.append_nil]
  obtain ⟨rest, hparse⟩ := parse_whole ht hself (by simp [Lexis.Blank]) (by simp [Lexis.Blank])
  rw [dispatched_eq, hparse]

/-- If a text is delivered in one piece, but for white space, its request is dispatched. -/
theorem dispatched_onePiece {pieces : List (List Char)} {l : List (String × Json)}
    (ht : ObjectText r pieces.flatten l) (h : OnePiece r pieces) :
    pieces.flatMap (dispatched r.parse ports) = dispatched r.parse ports pieces.flatten := by
  obtain ⟨pre, f, post, rfl, hblank⟩ := h
  have hpre : ∀ g ∈ pre, r.Blank g := fun g hg => hblank g (List.mem_append_left _ hg)
  have hpost : ∀ g ∈ post, r.Blank g := fun g hg => hblank g (List.mem_append_right _ hg)
  have hflat : (pre ++ f :: post).flatten = pre.flatten ++ (f ++ post.flatten) := by simp
  obtain ⟨rest, hf⟩ := parse_whole ht hflat (blank_flatten.mpr hpre) (blank_flatten.mpr hpost)
  have hsame : dispatched r.parse ports f = if isRequest (.obj l) then [.obj l] else [] := by
    rw [dispatched_eq, hf]
  rw [List.flatMap_append, List.flatMap_cons, flatMap_dispatched_blank hpre,
    flatMap_dispatched_blank hpost, hsame, dispatched_text ht]
  simp

/-- If the request is dispatched from one of the pieces, that is the only one. -/
theorem onePiece_of_dispatched {pieces : List (List Char)} {l : List (String × Json)}
    (ht : ObjectText r pieces.flatten l)
    (h : Json.obj l ∈ pieces.flatMap (dispatched r.parse ports)) : OnePiece r pieces := by
  obtain ⟨f, hf, hmem⟩ := List.mem_flatMap.mp h
  obtain ⟨pre, post, rfl⟩ := List.append_of_mem hf
  rw [dispatched_eq] at hmem
  rcases hparse : r.parse f with _ | ⟨obj, rest⟩
  · simp [hparse] at hmem
  · cases hreq : isRequest obj with
    | false => simp [hparse, hreq] at hmem
    | true =>
      obtain rfl : Json.obj l = obj := by simpa [hparse, hreq] using hmem
      have hflat : (pre ++ f :: post).flatten = pre.flatten ++ (f ++ post.flatten) := by simp
      rcases parse_piece ht hflat hparse with ⟨hpre, hpost⟩ | hlt | hkeys
      · refine ⟨pre, f, post, rfl, fun g hg => ?_⟩
        rcases List.mem_append.mp hg with hg | hg
        · exact blank_flatten.mp hpre g hg
        · exact blank_flatten.mp hpost g hg
      · exact absurd hlt (lt_irrefl _)
      · -- the version is a key that cannot stand outside of a string
        obtain ⟨l', heq, m, hm, hkey⟩ := obj_of_isRequest hreq
        cases heq
        obtain ⟨raw, hun, hesc, hloose⟩ := hkeys m hm
        rw [hkey] at hun
        have hascii : "jsonrpc".toList.all (fun c => decide (c.toNat < 128)) = true := by decide
        have hraw := r.unescape_plain hesc hun fun c hc =>
          of_decide_eq_true (List.all_eq_true.mp hascii c hc)
        have hj : 'j' ∈ raw := by
          rw [← hraw]
          decide
        exact absurd (hloose 'j' hj) (by decide)

/-! ### All texts -/

/-- If all that is dispatched is the requests, each text has dispatched its own. -/
theorem own_of_flatMap_eq {α β : Type} {f : α → List β} {g : α → β} {l : List α} {extra : List β}
    (hown : ∀ x ∈ l, g x ∈ f x → f x = [g x]) (h : l.map g ++ extra = l.flatMap f) :
    extra = [] ∧ ∀ x ∈ l, f x = [g x] := by
  -- from the right, since what comes last must be of the last text
  induction l using List.reverseRecOn generalizing extra with
  | nil => simpa using h
  | append_singleton l x ih =>
    have hl : ∀ y ∈ l, g y ∈ f y → f y = [g y] := fun y hy => hown y (by simp [hy])
    have hx : g x ∈ f x → f x = [g x] := hown x (by simp)
    have hsplit : l.map g ++ (g x :: extra) = l.flatMap f ++ f x := by simpa using h
    obtain ⟨hfx, hprev⟩ : f x = g x :: extra ∧ ∀ y ∈ l, f y = [g y] := by
      rcases List.append_eq_append_iff.mp hsplit with ⟨a, ha, hax⟩ | ⟨c, hc, hcx⟩
      · obtain ⟨rfl, hprev⟩ := ih hl ha.symm
        exact ⟨hax.symm, hprev⟩
      · have hone : f x = [g x] := hx (by simp [hcx])
        obtain ⟨rfl, rfl⟩ : c = [] ∧ extra = [] := by
          have hlen := congrArg List.length (hone.symm.trans hcx)
          simp only [List.length_append, List.length_cons, List.length_nil] at hlen
          exact ⟨List.length_eq_zero_iff.mp (by omega), List.length_eq_zero_iff.mp (by omega)⟩
        have hprev : l.map g ++ [] = l.flatMap f := by simpa using hc
        exact ⟨hone, (ih hl hprev).2⟩
    have hone := hx (by simp [hfx])
    refine ⟨by simpa [hone, eq_comm] using hfx, fun y hy => ?_⟩
    rcases List.mem_append.mp hy with hy | hy
    · exact hprev y hy
    · obtain rfl := List.mem_singleton.mp hy
      exact hone

/-- A text that has an object. -/
def HasObject (r : Reader) (t : List Char) : Prop :=
  ∃ l, Nonempty (ObjectText r t l)

/-- The reader reads an object, and nothing is behind it. -/
def parsesObject (r : Reader) (t : List Char) : Bool :=
  match r.parse t with
  | some (.obj _, rest) => rest.all r.space
  | _ => false

theorem hasObject_of_parsesObject {t : List Char} (hskip : ∀ w, r.Skipped w → r.Blank w)
    (h : parsesObject r t = true) : HasObject r t := by
  unfold parsesObject at h
  split at h
  case h_2 => cases h
  case h_1 l rest hparse =>
    obtain ⟨lead, w, ht, hlead, htext, haccepts⟩ := r.parse_obj.mp hparse
    exact ⟨l, ⟨⟨lead, w, rest, ht, hskip lead hlead, List.all_eq_true.mp h, htext, haccepts⟩⟩⟩

/-- The request that a text dispatches in one piece. -/
def requestOf (r : Reader) (ports : Ports) (t : List Char) : Json :=
  (dispatched r.parse ports t).headD .null

theorem dispatched_requestOf {t : List Char} (hobj : HasObject r t)
    (hreq : dispatched r.parse ports t ≠ []) :
    dispatched r.parse ports t = [requestOf r ports t] := by
  obtain ⟨l, ⟨ht⟩⟩ := hobj
  rw [requestOf, dispatched_text ht]
  rw [dispatched_text ht] at hreq
  cases hl : isRequest (.obj l) with
  | false => simp [hl] at hreq
  | true => rfl

/-- The request is among what the pieces dispatch only if they are not cut inside. -/
theorem onePiece_of_requestOf_mem {pieces : List (List Char)} (hobj : HasObject r pieces.flatten)
    (hreq : dispatched r.parse ports pieces.flatten ≠ [])
    (hmem : requestOf r ports pieces.flatten ∈ pieces.flatMap (dispatched r.parse ports)) :
    OnePiece r pieces := by
  have hown := dispatched_requestOf hobj hreq
  obtain ⟨l, ⟨ht⟩⟩ := hobj
  rw [dispatched_text ht] at hown
  cases hl : isRequest (.obj l) with
  | false => simp [hl] at hown
  | true =>
    obtain ⟨heq, _⟩ := List.cons.inj ((if_pos hl).symm.trans hown)
    rw [← heq] at hmem
    exact onePiece_of_dispatched ht hmem

/-- What the pieces dispatch, text by text. -/
theorem flatMap_dispatched_flatten (texts : List (List (List Char))) :
    texts.flatten.flatMap (dispatched r.parse ports) =
      texts.flatMap fun pieces => pieces.flatMap (dispatched r.parse ports) := by
  rw [← List.flatMap_id, List.flatMap_assoc]
  rfl

theorem flatMap_dispatched_uncut {texts : List (List (List Char))}
    (hobj : ∀ pieces ∈ texts, HasObject r pieces.flatten)
    (hone : ∀ pieces ∈ texts, OnePiece r pieces) :
    texts.flatten.flatMap (dispatched r.parse ports) =
      texts.flatMap fun pieces => dispatched r.parse ports pieces.flatten := by
  rw [flatMap_dispatched_flatten]
  refine List.flatMap_congr fun pieces hp => ?_
  obtain ⟨l, ⟨ht⟩⟩ := hobj pieces hp
  exact dispatched_onePiece ht (hone pieces hp)

theorem uncut_of_flatMap_dispatched {texts : List (List (List Char))}
    (hobj : ∀ pieces ∈ texts, HasObject r pieces.flatten)
    (hreq : ∀ pieces ∈ texts, dispatched r.parse ports pieces.flatten ≠ [])
    (heq : texts.flatten.flatMap (dispatched r.parse ports) =
      texts.flatMap fun pieces => dispatched r.parse ports pieces.flatten) :
    ∀ pieces ∈ texts, OnePiece r pieces := by
  have hown : ∀ pieces ∈ texts,
      requestOf r ports pieces.flatten ∈ pieces.flatMap (dispatched r.parse ports) →
        pieces.flatMap (dispatched r.parse ports) = [requestOf r ports pieces.flatten] := by
    intro pieces hp hmem
    have hone := onePiece_of_requestOf_mem (hobj pieces hp) (hreq pieces hp) hmem
    obtain ⟨l, ⟨ht⟩⟩ := hobj pieces hp
    rw [dispatched_onePiece ht hone, dispatched_requestOf (hobj pieces hp) (hreq pieces hp)]
  have hmap : texts.map (fun pieces => requestOf r ports pieces.flatten) ++ [] =
      texts.flatMap fun pieces => pieces.flatMap (dispatched r.parse ports) := by
    rw [← flatMap_dispatched_flatten, heq, List.append_nil, List.map_eq_flatMap]
    exact List.flatMap_congr fun pieces hp =>
      (dispatched_requestOf (hobj pieces hp) (hreq pieces hp)).symm
  obtain ⟨-, hall⟩ := own_of_flatMap_eq hown hmap
  intro pieces hp
  exact onePiece_of_requestOf_mem (hobj pieces hp) (hreq pieces hp) (by simp [hall pieces hp])

/-- Texts that are not cut inside of their JSON dispatch what they dispatch in one piece each. For
    requests that are dispatched, no other way to cut them does. -/
theorem requests_dispatched_iff_uncut (r : Reader) (ports : Ports)
    (texts : List (List (List Char))) (hobj : ∀ pieces ∈ texts, HasObject r pieces.flatten) :
    ((∀ pieces ∈ texts, OnePiece r pieces) →
      texts.flatten.flatMap (dispatched r.parse ports) =
        texts.flatMap fun pieces => dispatched r.parse ports pieces.flatten) ∧
    ((∀ pieces ∈ texts, dispatched r.parse ports pieces.flatten ≠ []) →
      (texts.flatten.flatMap (dispatched r.parse ports) =
          texts.flatMap (fun pieces => dispatched r.parse ports pieces.flatten) ↔
        ∀ pieces ∈ texts, OnePiece r pieces)) := by
  refine ⟨flatMap_dispatched_uncut hobj, fun hreq => ⟨?_, flatMap_dispatched_uncut hobj⟩⟩
  intro heq
  exact uncut_of_flatMap_dispatched hobj hreq heq

/-- A ping. -/
def pingText : List Char :=
  "\x7b\"jsonrpc\":\"2.0\",\"method\":\"ping\",\"params\":null\x7d".toList

def noPorts : Ports := ⟨none, 0, Inet.InAddr.zero⟩

/-- A ping that is delivered with a blank behind it, and one that is delivered alone. -/
theorem pings_dispatched_uncut :
    (∀ pieces ∈ [[pingText, [' ']], [pingText]], HasObject Lexis.plain.reader pieces.flatten) ∧
    [[pingText, [' ']], [pingText]].flatten.flatMap (dispatched Lexis.plain.read noPorts) =
      [[pingText, [' ']], [pingText]].flatMap
        (fun pieces => dispatched Lexis.plain.read noPorts pieces.flatten) ∧
    ([[pingText, [' ']], [pingText]].flatMap
        (fun pieces => dispatched Lexis.plain.read noPorts pieces.flatten)).length = 2 := by
  have hobj : ∀ pieces ∈ [[pingText, [' ']], [pingText]],
      HasObject Lexis.plain.reader pieces.flatten := by
    intro pieces hp
    apply hasObject_of_parsesObject fun w hw => hw
    revert pieces
    decide +kernel
  have hone : ∀ pieces ∈ [[pingText, [' ']], [pingText]], OnePiece Lexis.plain.reader pieces := by
    intro pieces hp
    rcases List.mem_cons.mp hp with rfl | hp
    · exact ⟨[], pingText, [[' ']], rfl, by simp [Lexis.Blank, Lexis.reader, Lexis.plain]⟩
    · obtain rfl := List.mem_singleton.mp hp
      exact ⟨[], pingText, [], rfl, by simp⟩
  exact ⟨hobj, (requests_dispatched_iff_uncut Lexis.plain.reader noPorts _ hobj).1 hone,
    by decide +kernel⟩

/-- A ping that is cut after its version is lost. -/
theorem cut_ping_not_dispatched :
    [[pingText.take 16, pingText.drop 16]].flatten.flatMap (dispatched Lexis.plain.read noPorts) ≠
      [[pingText.take 16, pingText.drop 16]].flatMap
        (fun pieces => dispatched Lexis.plain.read noPorts pieces.flatten) := by
  intro h
  exact absurd (congrArg List.length h) (by decide +kernel)

end Ucentral.Proto
