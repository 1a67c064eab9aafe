import Ucentral.Plat.IpList

/-! What becomes of the addresses of an answer, by how the kernel has packed them.

    A datagram is received cut to the shortest length so far, and the loop ends at the first one behind
    whose messages an end mark is read; its own addresses only count if there are more of them than in
    the datagram before. -/

namespace Ucentral.Plat.IpList
open Netlink Slots

/-! ### What is kept -/

/-- The addresses of the batches that the loop keeps; `store` tells whether there is a list to store
    them in, `prev` is how many there are in the batch before. None: it waits for ever. -/
def kept (store : Bool) : ℕ → List Batch → Option (List VidAddr)
  | _, [] => none
  | prev, b :: bs =>
    if b.fin = true ∧ b.seen.length ≤ prev then some []
    else if store = true ∧ b.fin = true then some b.seen
    else (kept store b.seen.length bs).map (b.seen ++ ·)

theorem finish_fits {listSize n : ℕ} (h : n ≤ listSize) (list : ℕ → VidAddr) :
    (finish listSize n list).ret = 0 := if_neg (Nat.not_lt.mpr h)

theorem finish_overflows {listSize n : ℕ} (h : listSize < n) (list : ℕ → VidAddr) :
    (finish listSize n list).ret = eOverflow := if_pos h

section
variable {ifname : ℕ → Option String}

/-- Without a list the addresses are counted. -/
theorem getLoop_count {isNull : Bool} {listSize : ℕ} (hcount : isNull = true ∨ listSize = 0) :
    ∀ (ds : List Datagram) (s : Get), Usable s.bufLen → (∀ d ∈ ds, Named ifname d.frames) →
    getLoop ifname isNull listSize (ds.map Datagram.bytes) s =
      (kept false s.batchSize (batches ifname s.buf s.bufLen ds)).map fun l =>
        finish listSize (s.numAddrs + l.length) s.list
  | [], _, _, _ => rfl
  | d :: ds, s, h, hnamed => by
      obtain ⟨hd, hds⟩ := List.forall_mem_cons.mp hnamed
      rw [List.map_cons, getLoop_cons h hd, batches, kept]
      by_cases hstop : (d.batch ifname s.buf s.bufLen).fin = true ∧
          (d.batch ifname s.buf s.bufLen).seen.length ≤ s.batchSize
      · rw [if_pos hstop, if_pos hstop]
        rfl
      · rw [if_neg hstop, if_neg hstop, if_pos hcount, if_neg (fun hb => Bool.false_ne_true hb.1),
          getLoop_count hcount ds _ (h.receive d s.buf) hds, Option.map_map]
        congr 1
        funext l
        dsimp only [Function.comp_apply]
        rw [List.length_append, Nat.add_assoc]

/-- With room for all of them they are stored. -/
theorem getLoop_store {listSize : ℕ} (hsize : listSize ≠ 0) :
    ∀ (ds : List Datagram) (s : Get), Usable s.bufLen → (∀ d ∈ ds, Named ifname d.frames) →
    s.numAddrs + ((batches ifname s.buf s.bufLen ds).flatMap Batch.seen).length ≤ listSize →
    getLoop ifname false listSize (ds.map Datagram.bytes) s =
      (kept true s.batchSize (batches ifname s.buf s.bufLen ds)).map fun l =>
        finish listSize (s.numAddrs + l.length) (fillFrom s.list s.numAddrs l)
  | [], _, _, _, _ => rfl
  | d :: ds, s, h, hnamed, hroom => by
      obtain ⟨hd, hds⟩ := List.forall_mem_cons.mp hnamed
      rw [batches, List.flatMap_cons, List.length_append] at hroom
      rw [List.map_cons, getLoop_cons h hd, batches, kept]
      by_cases hstop : (d.batch ifname s.buf s.bufLen).fin = true ∧
          (d.batch ifname s.buf s.bufLen).seen.length ≤ s.batchSize
      · rw [if_pos hstop, if_pos hstop]
        rfl
      · have hstores : ¬ (false = true ∨ listSize = 0) := fun hb => hb.elim Bool.false_ne_true hsize
        rw [if_neg hstop, if_neg hstop, if_neg hstores, if_neg (by omega)]
        by_cases hfin : (d.batch ifname s.buf s.bufLen).fin = true
        · rw [if_pos hfin, if_pos ⟨rfl, hfin⟩]
          rfl
        · rw [if_neg hfin, if_neg (fun hb => hfin hb.2),
            getLoop_store hsize ds _ (h.receive d s.buf) hds (by dsimp only; omega), Option.map_map]
          congr 1
          funext l
          dsimp only [Function.comp_apply]
          rw [List.length_append, Nat.add_assoc, fillFrom_append]

end

/-! ### When all of them are kept -/

/-- No batch has more addresses received than it has. -/
def Cut (bs : List Batch) : Prop := ∀ b ∈ bs, b.seen <+: b.all

/-- Nothing is left out: the batches before the one the loop ends at are whole, and so is that one, and
    counted, unless it is empty; those behind it are empty. -/
def Reads (store : Bool) : ℕ → List Batch → Prop
  | _, [] => False
  | prev, b :: bs =>
    if b.fin = true ∧ (store = true ∨ b.seen.length ≤ prev) then
      (b.all = [] ∨ store = true ∧ prev < b.seen.length ∧ b.seen = b.all) ∧ ∀ c ∈ bs, c.all = []
    else b.seen = b.all ∧ Reads store b.seen.length bs

/-- More addresses are counted than `room`, before the loop ends. -/
def Overflows : ℕ → ℕ → List Batch → Prop
  | _, _, [] => False
  | room, prev, b :: bs =>
    ¬ (b.fin = true ∧ b.seen.length ≤ prev) ∧
      (room < b.seen.length ∨ b.fin = false ∧ Overflows (room - b.seen.length) b.seen.length bs)

instance decidableReads (store : Bool) : ∀ (prev : ℕ) (bs : List Batch), Decidable (Reads store prev bs)
  | _, [] => inferInstanceAs (Decidable False)
  | _, b :: bs =>
    have := decidableReads store b.seen.length bs
    by unfold Reads; infer_instance

instance decidableOverflows : ∀ (room prev : ℕ) (bs : List Batch), Decidable (Overflows room prev bs)
  | _, _, [] => inferInstanceAs (Decidable False)
  | room, _, b :: bs =>
    have := decidableOverflows (room - b.seen.length) b.seen.length bs
    inferInstanceAs (Decidable (¬ _ ∧ _))

theorem kept_sublist {store : Bool} : ∀ {bs : List Batch} {prev : ℕ} {l : List VidAddr}, Cut bs →
    kept store prev bs = some l → l.Sublist (bs.flatMap Batch.all)
  | b :: bs, prev, l, hcut, h => by
      obtain ⟨hb, hbs⟩ := List.forall_mem_cons.mp hcut
      rw [kept] at h
      rw [List.flatMap_cons]
      split_ifs at h
      · cases h
        exact List.nil_sublist _
      · cases h
        exact hb.sublist.trans (List.sublist_append_left _ _)
      · obtain ⟨l', hl', rfl⟩ := Option.map_eq_some_iff.mp h
        exact hb.sublist.append (kept_sublist hbs hl')

theorem append_eq_all {b : Batch} {bs : List Batch} {l : List VidAddr} (hb : b.seen <+: b.all)
    (hl : l.Sublist (bs.flatMap Batch.all)) :
    b.seen ++ l = b.all ++ bs.flatMap Batch.all ↔ b.seen = b.all ∧ l = bs.flatMap Batch.all := by
  refine ⟨fun h => ?_, fun ⟨h1, h2⟩ => by rw [h1, h2]⟩
  have hlen := congrArg List.length h
  have hseen := hb.length_le
  have hrest := hl.length_le
  rw [List.length_append, List.length_append] at hlen
  exact ⟨hb.eq_of_length (by omega), hl.eq_of_length (by omega)⟩

theorem flatMap_all_nil {bs : List Batch} : bs.flatMap Batch.all = [] ↔ ∀ c ∈ bs, c.all = [] :=
  List.flatMap_eq_nil_iff

theorem kept_map_iff {store : Bool} {b : Batch} {bs : List Batch} (hb : b.seen <+: b.all) (hbs : Cut bs) :
    (kept store b.seen.length bs).map (b.seen ++ ·) = some (b.all ++ bs.flatMap Batch.all) ↔
      b.seen = b.all ∧ kept store b.seen.length bs = some (bs.flatMap Batch.all) := by
  cases hk : kept store b.seen.length bs with
  | none => exact iff_of_false (fun h => by cases h) fun h => by cases h.2
  | some l =>
    rw [Option.map_some, Option.some.injEq, Option.some.injEq]
    exact append_eq_all hb (kept_sublist hbs hk)

/-- All addresses are kept exactly if nothing is left out. -/
theorem kept_iff {store : Bool} : ∀ {bs : List Batch} {prev : ℕ}, Cut bs →
    (kept store prev bs = some (bs.flatMap Batch.all) ↔ Reads store prev bs)
  | [], _, _ => iff_of_false (fun h => by cases h) id
  | b :: bs, prev, hcut => by
      obtain ⟨hb, hbs⟩ := List.forall_mem_cons.mp hcut
      rw [kept, Reads, List.flatMap_cons]
      by_cases hfin : b.fin = true
      · by_cases hle : b.seen.length ≤ prev
        · -- the loop ends without the addresses of the batch
          rw [if_pos ⟨hfin, hle⟩, if_pos ⟨hfin, Or.inr hle⟩, Option.some.injEq, eq_comm,
            List.append_eq_nil_iff, flatMap_all_nil]
          refine and_congr_left fun _ => (or_iff_left fun h => ?_).symm
          exact absurd h.2.1 (Nat.not_lt.mpr hle)
        · cases store with
          | true =>
            -- it ends with them
            have hno : ¬ (b.fin = true ∧ b.seen.length ≤ prev) := fun h => hle h.2
            rw [if_neg hno, if_pos ⟨rfl, hfin⟩, if_pos ⟨hfin, Or.inl rfl⟩, Option.some.injEq]
            have happ := append_eq_all hb (List.nil_sublist (bs.flatMap Batch.all))
            rw [List.append_nil] at happ
            rw [happ, eq_comm (a := []), flatMap_all_nil]
            refine and_congr_left fun _ => ⟨fun h => Or.inr ⟨rfl, by omega, h⟩, ?_⟩
            rintro (hnil | ⟨-, -, h⟩)
            · have hlen := hb.length_le
              rw [hnil, List.length_nil] at hlen
              omega
            · exact h
          | false =>
            have hno : ¬ (b.fin = true ∧ b.seen.length ≤ prev) := fun h => hle h.2
            have hno' : ¬ (b.fin = true ∧ (false = true ∨ b.seen.length ≤ prev)) :=
              fun h => h.2.elim Bool.false_ne_true hle
            rw [if_neg hno, if_neg (fun h => Bool.false_ne_true h.1), if_neg hno', ← kept_iff hbs]
            exact kept_map_iff hb hbs
      · rw [if_neg (fun h => hfin h.1), if_neg (fun h => hfin h.2), if_neg (fun h => hfin h.1),
          ← kept_iff hbs]
        exact kept_map_iff hb hbs

section
variable {ifname : ℕ → Option String}

/-- The loop ends with `-EOVERFLOW` exactly if more is counted than there is room for. -/
theorem getLoop_overflows {listSize : ℕ} (hsize : listSize ≠ 0) :
    ∀ (ds : List Datagram) (s : Get), Usable s.bufLen → (∀ d ∈ ds, Named ifname d.frames) →
    s.numAddrs ≤ listSize →
    ((∃ g, getLoop ifname false listSize (ds.map Datagram.bytes) s = some g ∧ g.ret = eOverflow) ↔
      Overflows (listSize - s.numAddrs) s.batchSize (batches ifname s.buf s.bufLen ds))
  | [], _, _, _, _ => iff_of_false (fun ⟨_, h, _⟩ => by cases h) id
  | d :: ds, s, h, hnamed, hroom => by
      obtain ⟨hd, hds⟩ := List.forall_mem_cons.mp hnamed
      have hfits : ∀ n list, n ≤ listSize → ¬ (finish listSize n list).ret = eOverflow := by
        intro n list hn
        rw [finish_fits hn]
        decide
      rw [List.map_cons, getLoop_cons h hd, batches, Overflows]
      by_cases hstop : (d.batch ifname s.buf s.bufLen).fin = true ∧
          (d.batch ifname s.buf s.bufLen).seen.length ≤ s.batchSize
      · rw [if_pos hstop]
        refine iff_of_false (fun ⟨g, hg, hret⟩ => ?_) fun hno => hno.1 hstop
        cases hg
        exact hfits _ _ hroom hret
      · rw [if_neg hstop, if_neg (fun hb => hb.elim Bool.false_ne_true hsize), and_iff_right hstop]
        by_cases hover : listSize < s.numAddrs + (d.batch ifname s.buf s.bufLen).seen.length
        · rw [if_pos hover]
          exact iff_of_true ⟨_, rfl, finish_overflows hover _⟩ (Or.inl (by omega))
        · rw [if_neg hover, or_iff_right (by omega : ¬ listSize - s.numAddrs < _)]
          by_cases hfin : (d.batch ifname s.buf s.bufLen).fin = true
          · rw [if_pos hfin, hfin]
            refine iff_of_false (fun ⟨g, hg, hret⟩ => ?_) fun hno => by cases hno.1
            cases hg
            exact hfits _ _ (Nat.not_lt.mp hover) hret
          · rw [if_neg hfin, (Bool.not_eq_true _).mp hfin, and_iff_right rfl, Nat.sub_sub]
            exact getLoop_overflows hsize ds _ (h.receive d s.buf) hds (Nat.not_lt.mp hover)

theorem batches_all : ∀ (ds : List Datagram) (buf : List UInt8) (len : ℕ),
    (batches ifname buf len ds).flatMap Batch.all = ds.flatMap (Datagram.addrs ifname)
  | [], _, _ => rfl
  | d :: ds, buf, len => by
      rw [batches, List.flatMap_cons, List.flatMap_cons, batches_all ds]
      rfl

theorem batches_cut : ∀ (ds : List Datagram) (buf : List UInt8) (len : ℕ), Cut (batches ifname buf len ds)
  | [], _, _ => List.forall_mem_nil _
  | d :: ds, _, _ =>
    List.forall_mem_cons.mpr ⟨(prefix_wholeFrames d.frames _).filterMap _, batches_cut ds _ _⟩

theorem seen_length_le : ∀ {bs : List Batch}, Cut bs →
    (bs.flatMap Batch.seen).length ≤ (bs.flatMap Batch.all).length
  | [], _ => Nat.le_refl 0
  | b :: bs, h => by
      obtain ⟨hb, hbs⟩ := List.forall_mem_cons.mp h
      have hone := hb.length_le
      have hrest := seen_length_le hbs
      rw [List.flatMap_cons, List.flatMap_cons, List.length_append, List.length_append]
      omega

end

/-! ### The whole function -/

variable (ifname : ℕ → Option String)

/-- The addresses are returned in order where the list has room for them, and `-EOVERFLOW` where it
    has not, with their number if the list is empty. -/
def Right (a : Answer) (buf : List UInt8) (room : Room VidAddr) : Prop :=
  ∃ g, nlGetIpList ifname (a.datagrams.map Datagram.bytes) buf room.list room.size = some g ∧
    ((a.addrs ifname).length ≤ room.size → g.ret = 0 ∧ g.listSize = (a.addrs ifname).length ∧
      upTo g.list g.listSize = a.addrs ifname) ∧
    (room.size < (a.addrs ifname).length →
      g.ret = eOverflow ∧ (room.size = 0 → g.listSize = (a.addrs ifname).length))

/-- How the kernel may pack the addresses for a list of `size` slots. -/
def Packed (a : Answer) (buf : List UInt8) (size : ℕ) : Prop :=
  if size = 0 then Reads false 0 (batches ifname buf bufferSize a.datagrams)
  else if (a.addrs ifname).length ≤ size then Reads true 0 (batches ifname buf bufferSize a.datagrams)
  else Overflows size 0 (batches ifname buf bufferSize a.datagrams)

instance decidablePacked (a : Answer) (buf : List UInt8) (size : ℕ) :
    Decidable (Packed ifname a buf size) := by
  unfold Packed
  infer_instance

theorem usable_bufferSize : Usable bufferSize := ⟨by decide, Nat.le_refl _⟩

section
variable {ifname} {a : Answer}

theorem reads_iff (store : Bool) (buf : List UInt8) :
    Reads store 0 (batches ifname buf bufferSize a.datagrams) ↔
      kept store 0 (batches ifname buf bufferSize a.datagrams) = some (a.addrs ifname) := by
  rw [← kept_iff (batches_cut a.datagrams buf bufferSize), batches_all]
  rfl

/-- What is kept is the addresses if there are as many. -/
theorem kept_eq_addrs {store : Bool} {buf : List UInt8} {l : List VidAddr}
    (hl : kept store 0 (batches ifname buf bufferSize a.datagrams) = some l)
    (hlen : l.length = (a.addrs ifname).length) : l = a.addrs ifname := by
  have hsub := kept_sublist (batches_cut a.datagrams buf bufferSize) hl
  rw [batches_all] at hsub
  exact hsub.eq_of_length hlen

variable (hnamed : ∀ d ∈ a.datagrams, Named ifname d.frames) (buf : List UInt8)
  (room : Room VidAddr)
include hnamed

/-- Without room the addresses are only counted. -/
theorem right_iff_counts (hsize : room.size = 0) :
    Right ifname a buf room ↔ Reads false 0 (batches ifname buf bufferSize a.datagrams) := by
  unfold Right nlGetIpList
  rw [reads_iff, getLoop_count (Or.inr hsize) _ _ usable_bufferSize hnamed]
  dsimp only
  constructor
  · rintro ⟨g, hg, hfit, hover⟩
    obtain ⟨l, hl, rfl⟩ := Option.map_eq_some_iff.mp hg
    have hlen : (0 + l.length) = (a.addrs ifname).length := by
      rcases Nat.eq_zero_or_pos (a.addrs ifname).length with hzero | hpos
      · exact (hfit (by omega)).2.1
      · exact (hover (by omega)).2 hsize
    rw [hl, kept_eq_addrs hl ((Nat.zero_add _).symm.trans hlen)]
  · intro hk
    rw [hk]
    refine ⟨_, rfl, fun hfit => ?_, fun hover => ?_⟩
    · have hnil : a.addrs ifname = [] := List.length_eq_zero_iff.mp (by omega)
      rw [hnil]
      exact ⟨finish_fits (Nat.zero_le _) _, rfl, rfl⟩
    · rw [← Nat.zero_add (a.addrs ifname).length] at hover
      exact ⟨finish_overflows hover _, fun _ => Nat.zero_add _⟩

/-- With room for all of them they are stored. -/
theorem right_iff_stores (hsize : room.size ≠ 0) (hfit : (a.addrs ifname).length ≤ room.size) :
    Right ifname a buf room ↔ Reads true 0 (batches ifname buf bufferSize a.datagrams) := by
  have hcut : Cut (batches ifname buf bufferSize a.datagrams) := batches_cut a.datagrams buf bufferSize
  have hseen := seen_length_le hcut
  rw [batches_all] at hseen
  unfold Right nlGetIpList
  rw [reads_iff, room.isNone_list hsize,
    getLoop_store hsize _ _ usable_bufferSize hnamed (by dsimp only; unfold Answer.addrs at hfit; omega)]
  dsimp only
  constructor
  · rintro ⟨g, hg, hok, -⟩
    obtain ⟨l, hl, rfl⟩ := Option.map_eq_some_iff.mp hg
    have hlen : (0 + l.length) = (a.addrs ifname).length := (hok hfit).2.1
    rw [hl, kept_eq_addrs hl ((Nat.zero_add _).symm.trans hlen)]
  · intro hk
    rw [hk]
    refine ⟨_, rfl, fun _ => ?_, fun hover => absurd hfit (Nat.not_le.mpr hover)⟩
    rw [← Nat.zero_add (a.addrs ifname).length] at hfit
    refine ⟨finish_fits hfit _, Nat.zero_add _, ?_⟩
    exact upTo_fillFrom (a.addrs ifname) _ 0

/-- With less it must notice that there are more. -/
theorem right_iff_overflows (hsize : room.size ≠ 0) (hfit : ¬ (a.addrs ifname).length ≤ room.size) :
    Right ifname a buf room ↔ Overflows room.size 0 (batches ifname buf bufferSize a.datagrams) := by
  have hloop := getLoop_overflows hsize a.datagrams
    ⟨buf, bufferSize, 0, 0, room.list.getD fun _ => ⟨0, 0, 0⟩⟩ usable_bufferSize hnamed (Nat.zero_le _)
  unfold Right nlGetIpList
  rw [room.isNone_list hsize, ← show room.size - 0 = room.size from rfl, ← hloop]
  constructor
  · rintro ⟨g, hg, -, hover⟩
    exact ⟨g, hg, (hover (Nat.not_le.mp hfit)).1⟩
  · rintro ⟨g, hg, hret⟩
    exact ⟨g, hg, fun h => absurd h hfit, fun _ => ⟨hret, fun h => absurd h hsize⟩⟩

end

/-- The call is right exactly if the kernel has packed the answer so. -/
theorem right_iff_packed {a : Answer} (hnamed : ∀ d ∈ a.datagrams, Named ifname d.frames)
    (buf : List UInt8) (room : Room VidAddr) :
    Right ifname a buf room ↔ Packed ifname a buf room.size := by
  unfold Packed
  by_cases hsize : room.size = 0
  · rw [if_pos hsize]
    exact right_iff_counts hnamed buf room hsize
  · rw [if_neg hsize]
    by_cases hfit : (a.addrs ifname).length ≤ room.size
    · rw [if_pos hfit]
      exact right_iff_stores hnamed buf room hsize hfit
    · rw [if_neg hfit]
      exact right_iff_overflows hnamed buf room hsize hfit

/-! ### Three answers -/

/-- An address of the interface `index`, with no attribute but the address. -/
def newaddr (index address : Fin 4294967296) : AddrFrame where
  msg :=
    { type := rtmNewaddr, flags := 2, seq := 1, pid := 0, padding := []
      payload := 2 :: 24 :: 0 :: 0 :: (le32 index ++ (le16 8 ++ le16 ifaLocal ++ le32 address))
      type_lt := by decide
      len_lt := (by decide : 16 + 16 < 4294967296)
      aligned := (by decide : 16 + 16 + 0 = align (16 + 16)) }
  addr := ⟨2, 24, 0, 0, index, [], address, [], index.isLt, address.isLt, List.forall_mem_nil _⟩
  is_newaddr := rfl
  is_payload := rfl

def endMark : Msg where
  type := nlmsgDone
  flags := 2
  seq := 1
  pid := 0
  payload := [0, 0, 0, 0]
  padding := []
  type_lt := by decide
  len_lt := by decide
  aligned := rfl

/-- `if_indextoname` where interface 1 is no VLAN. -/
def someNames (index : ℕ) : Option String :=
  if index = 1 then some "Ethernet0" else if index = 2 then some "Vlan10" else some "Vlan20"

/-- The end mark comes alone. -/
def alone : Answer := ⟨[[newaddr 1 7, newaddr 2 8, newaddr 3 9], [newaddr 2 10]], [], endMark, rfl⟩

theorem right_iff_packed_alone :
    Right someNames alone (List.replicate 4096 0) ⟨some fun _ => ⟨0, 0, 0⟩, 3, fun h => by cases h⟩ :=
  (right_iff_packed someNames (by decide +kernel) _ _).mpr (by decide +kernel)

/-- The end mark comes with the only address. -/
def together : Answer := ⟨[], [newaddr 2 8], endMark, rfl⟩

/-- It comes with fewer addresses than there are in the datagram before. -/
def fewer : Answer := ⟨[[newaddr 2 8, newaddr 3 9]], [newaddr 2 10], endMark, rfl⟩

/-- A datagram is longer than the one before. -/
def longer : Answer := ⟨[[newaddr 2 8], [newaddr 2 9, newaddr 3 10]], [], endMark, rfl⟩

/-- What is returned, without the list. -/
def sizes (a : Answer) (buf : List UInt8) (room : Room VidAddr) : Option (ℤ × ℕ) :=
  (nlGetIpList ifname (a.datagrams.map Datagram.bytes) buf room.list room.size).map fun g =>
    (g.ret, g.listSize)

theorem sizes_of_right {a : Answer} {buf : List UInt8} {room : Room VidAddr}
    (h : Right ifname a buf room) (hfit : (a.addrs ifname).length ≤ room.size) :
    sizes ifname a buf room = some (0, (a.addrs ifname).length) := by
  obtain ⟨g, hg, hok, -⟩ := h
  obtain ⟨hret, hsize, -⟩ := hok hfit
  rw [sizes, hg, Option.map_some, hret, hsize]

theorem loses_addresses :
    ((∀ d ∈ together.datagrams ++ (fewer.datagrams ++ longer.datagrams),
        d.bytes.length ≤ 4096 ∧ Named someNames d.frames) ∧
      nlGetIpList someNames (together.datagrams.map Datagram.bytes) (List.replicate 4096 0) none 0 = none ∧
      ¬ Right someNames together (List.replicate 4096 0) ⟨none, 0, fun _ => rfl⟩) ∧
    ∀ a ∈ [fewer, longer], (a.addrs someNames).length = 3 ∧
      sizes someNames a (List.replicate 4096 0)
        ⟨some fun _ => ⟨0, 0, 0⟩, 3, fun h => by cases h⟩ = some (0, 2) ∧
      ¬ Right someNames a (List.replicate 4096 0)
        ⟨some fun _ => ⟨0, 0, 0⟩, 3, fun h => by cases h⟩ := by
  have hwaits : nlGetIpList someNames (together.datagrams.map Datagram.bytes) (List.replicate 4096 0)
      none 0 = none := Option.isNone_iff_eq_none.mp (by decide +kernel)
  refine ⟨⟨by decide +kernel, hwaits, fun ⟨g, hg, _⟩ => ?_⟩, fun a ha => ?_⟩
  · rw [hwaits] at hg
    cases hg
  · have hboth : ∀ a ∈ [fewer, longer], (a.addrs someNames).length = 3 ∧
        sizes someNames a (List.replicate 4096 0)
          ⟨some fun _ => ⟨0, 0, 0⟩, 3, fun h => by cases h⟩ = some (0, 2) := by decide +kernel
    obtain ⟨hlen, htwo⟩ := hboth a ha
    refine ⟨hlen, htwo, fun hright => ?_⟩
    have hthree := sizes_of_right someNames hright (Nat.le_of_eq hlen)
    rw [htwo, hlen] at hthree
    exact absurd hthree (by decide)

end Ucentral.Plat.IpList
