import Ucentral.Lib.Netlink
import Ucentral.Lib.Slots
import Ucentral.Proto.CfgPorts

/-! The addresses of the VLAN interfaces, read from the kernel.

    Each datagram of the answer is gone over twice: once to count its addresses, once to store them. The
    buffer length given to `recvmsg` is the one the datagram before was received with, and the count
    of the datagram before is what the next one is taken to have room for. -/

namespace Ucentral.Plat.IpList
open Netlink Slots Proto

def bufferSize : ℕ := 4096

/-- `-EOVERFLOW`, `-ENODATA`. -/
def eOverflow : ℤ := -75
def eNoData : ℤ := -61

/-- `struct nl_vid_addr`. -/
structure VidAddr where
  vid : ℕ
  prefixlen : ℕ
  address : ℕ
  deriving DecidableEq

/-- The messages gone over so far: how many addresses there are, and the caller's list. -/
structure Pass where
  numAddrs : ℕ
  list : ℕ → VidAddr

variable (ifname : ℕ → Option String)

/-- `_nl_iface_addr_parse`: what the slot holds afterwards. -/
def nlIfaceAddrParse (vid : ℕ) (rta : List UInt8) (len prefixlen : ℕ) (addr : VidAddr) : VidAddr :=
  match (forEachRattr (rta.length + 1) rta len).find? (fun r => rtaType r = ifaLocal) with
  | some r => ⟨vid % 65536, prefixlen, u32 r 4⟩
  | none => addr

/-- The loop over the messages. The list starts at its slot `base`; none is a null pointer. Gives
    what the function returns at once, if it does. -/
def addrLoop (base : Option ℕ) (listSize : ℕ) : List (List UInt8) → Pass → Option ℤ × Pass
  | [], s => (none, s)
  | nl :: nls, s =>
    if nlmsgType nl = nlmsgError then (some (-1), s)
    else if nlmsgType nl ≠ rtmNewaddr then addrLoop base listSize nls s
    else
      match ifname (ifaIndex nl) with
      | none => (some (-1), s)
      | some name =>
        match scanU "Vlan".toList name.toList with
        | .value vid =>
          match if listSize = 0 then none else base with
          | none => addrLoop base listSize nls { s with numAddrs := s.numAddrs + 1 }
          | some b =>
            if listSize < s.numAddrs then (some eOverflow, s)
            else addrLoop base listSize nls
              { numAddrs := s.numAddrs + 1
                list := Function.update s.list (b + s.numAddrs)
                  (nlIfaceAddrParse vid (ifaRta nl) (ifaPayload nl) (ifaPrefixlen nl)
                    (s.list (b + s.numAddrs))) }
        | _ => addrLoop base listSize nls s

/-- `_nl_response_addr_parse`: what it returns, `*list_size` and the list. -/
def nlResponseAddrParse (buf : List UInt8) (len : ℕ) (base : Option ℕ) (listSize : ℕ)
    (list : ℕ → VidAddr) : ℤ × ℕ × (ℕ → VidAddr) :=
  let (nls, nl) := forEachNlmsg (buf.length + 1) buf len
  match addrLoop ifname base listSize nls ⟨0, list⟩ with
  | (some e, s) => (e, listSize, s.list)
  | (none, s) =>
    if listSize < s.numAddrs then (eOverflow, s.numAddrs, s.list)
    else (if nlmsgType nl = nlmsgDone then eNoData else 0, s.numAddrs, s.list)

/-- The variables of `nl_get_ip_list`, and the caller's list. -/
structure Get where
  buf : List UInt8
  bufLen : ℕ
  batchSize : ℕ
  numAddrs : ℕ
  list : ℕ → VidAddr

/-- `recvmsg`: a datagram is cut to the length that is given, and the bytes behind it stay. -/
def nlResponseGet (d buf : List UInt8) (bufLen : ℕ) : List UInt8 × ℕ :=
  (d.take bufLen ++ buf.drop (d.take bufLen).length, (d.take bufLen).length)

/-- What is returned, with `*list_size` and the list. -/
structure Got where
  ret : ℤ
  listSize : ℕ
  list : ℕ → VidAddr

/-- After the loop. -/
def finish (listSize numAddrs : ℕ) (list : ℕ → VidAddr) : Got :=
  ⟨if listSize < numAddrs then eOverflow else 0, numAddrs, list⟩

/-- The loop over the datagrams; without one `recvmsg` waits for ever. -/
def getLoop (isNull : Bool) (listSize : ℕ) : List (List UInt8) → Get → Option Got
  | [], _ => none
  | d :: ds, s =>
    let (buf, len) := nlResponseGet d s.buf s.bufLen
    let (err, batch, _) := nlResponseAddrParse ifname buf len none s.batchSize s.list
    if err = eNoData then some (finish listSize s.numAddrs s.list)
    else if err ≠ 0 ∧ err ≠ eOverflow then some ⟨err, listSize, s.list⟩
    else
      let numAddrs := s.numAddrs + batch
      if isNull ∨ listSize = 0 then getLoop isNull listSize ds ⟨buf, len, batch, numAddrs, s.list⟩
      else if listSize < numAddrs then some (finish listSize numAddrs s.list)
      else
        let (err, batch', list) :=
          nlResponseAddrParse ifname buf len (some (numAddrs - batch)) batch s.list
        if err = eNoData then some (finish listSize numAddrs list)
        else if err ≠ 0 then some ⟨err, listSize, list⟩
        else getLoop isNull listSize ds ⟨buf, len, batch', numAddrs, list⟩

/-- `nl_get_ip_list`, from the answer on: the datagrams, and what the buffer holds before. -/
def nlGetIpList (ds : List (List UInt8)) (buf : List UInt8) (list : Option (ℕ → VidAddr))
    (listSize : ℕ) : Option Got :=
  getLoop ifname list.isNone listSize ds
    ⟨buf, bufferSize, 0, 0, list.getD fun _ => ⟨0, 0, 0⟩⟩

/-! ### Answers -/

/-- A datagram of addresses, the last one with the end mark. -/
structure Datagram where
  frames : List AddrFrame
  fin : Option Msg
  fin_done : ∀ d ∈ fin, d.type = nlmsgDone

def Datagram.msgs (d : Datagram) : List Msg := d.frames.map AddrFrame.msg

def Datagram.bytes (d : Datagram) : List UInt8 := bytesOf d.msgs d.fin

/-- The answer to an address request: the last datagram carries the end mark, no other does. -/
structure Answer where
  front : List (List AddrFrame)
  last : List AddrFrame
  done : Msg
  done_type : done.type = nlmsgDone

def Answer.datagrams (a : Answer) : List Datagram :=
  a.front.map (fun frames => ⟨frames, none, fun _ h => by cases h⟩) ++
    [⟨a.last, some a.done, fun _ h => by cases h; exact a.done_type⟩]

/-- An address on an interface `Vlan<k>`. -/
def vlanAddr (f : AddrFrame) : Option VidAddr :=
  (ifname f.addr.index).bind fun name =>
    match scanU "Vlan".toList name.toList with
    | .value vid => some ⟨vid % 65536, f.addr.prefixlen.toNat, f.addr.address⟩
    | _ => none

def Datagram.addrs (d : Datagram) : List VidAddr := d.frames.filterMap (vlanAddr ifname)

def Answer.addrs (a : Answer) : List VidAddr := a.datagrams.flatMap (Datagram.addrs ifname)

/-! ### What is received of a datagram -/

/-- The frames that lie within the first `len` bytes. -/
def wholeFrames : ℕ → List AddrFrame → List AddrFrame
  | _, [] => []
  | len, f :: fs => if f.msg.size ≤ len then f :: wholeFrames (len - f.msg.size) fs else []

/-- The addresses of a datagram, those that are received, and whether the bytes behind its last whole
    message read as an end mark. -/
structure Batch where
  all : List VidAddr
  seen : List VidAddr
  fin : Bool

/-- A datagram received into a buffer of which `len` bytes may be used. -/
def Datagram.batch (d : Datagram) (buf : List UInt8) (len : ℕ) : Batch where
  all := d.addrs ifname
  seen := (wholeFrames (nlResponseGet d.bytes buf len).2 d.frames).filterMap (vlanAddr ifname)
  fin := nlmsgType ((nlResponseGet d.bytes buf len).1.drop
    (total (whole (nlResponseGet d.bytes buf len).2 d.msgs))) = nlmsgDone

/-- All datagrams, received one after the other. -/
def batches : List UInt8 → ℕ → List Datagram → List Batch
  | _, _, [] => []
  | buf, len, d :: ds =>
    d.batch ifname buf len ::
      batches (nlResponseGet d.bytes buf len).1 (nlResponseGet d.bytes buf len).2 ds

/-- Every interface has a name. -/
def Named (fs : List AddrFrame) : Prop := ∀ f ∈ fs, (ifname f.addr.index).isSome = true

instance (fs : List AddrFrame) : Decidable (Named ifname fs) :=
  inferInstanceAs (Decidable (∀ f ∈ fs, _))

theorem map_wholeFrames : ∀ (fs : List AddrFrame) (len : ℕ),
    (wholeFrames len fs).map AddrFrame.msg = whole len (fs.map AddrFrame.msg)
  | [], _ => rfl
  | f :: fs, len => by
      rw [wholeFrames, List.map_cons, whole]
      by_cases h : f.msg.size ≤ len
      · rw [if_pos h, if_pos h, List.map_cons, map_wholeFrames fs]
      · rw [if_neg h, if_neg h, List.map_nil]

theorem prefix_wholeFrames : ∀ (fs : List AddrFrame) (len : ℕ), wholeFrames len fs <+: fs
  | [], _ => List.prefix_rfl
  | f :: fs, len => by
      rw [wholeFrames]
      split
      · exact (List.prefix_cons_inj f).mpr (prefix_wholeFrames fs _)
      · exact List.nil_prefix

theorem named_wholeFrames {fs : List AddrFrame} (h : Named ifname fs) (len : ℕ) :
    Named ifname (wholeFrames len fs) :=
  fun f hf => h f ((prefix_wholeFrames fs len).subset hf)

/-! ### One pass -/

theorem nlIfaceAddrParse_found {rta r : List UInt8} {len : ℕ}
    (hr : (forEachRattr (rta.length + 1) rta len).find? (fun r => rtaType r = ifaLocal) = some r)
    (vid prefixlen : ℕ) (addr : VidAddr) :
    nlIfaceAddrParse vid rta len prefixlen addr = ⟨vid % 65536, prefixlen, u32 r 4⟩ := by
  unfold nlIfaceAddrParse
  rw [hr]

/-- One turn of the loop over the messages, at a message about an address. -/
theorem addrLoop_cons {base : Option ℕ} {listSize : ℕ} {nl : List UInt8} {f : AddrFrame}
    (hnl : Points nl f.msg) (hname : (ifname f.addr.index).isSome = true) (nls : List (List UInt8))
    (s : Pass) :
    addrLoop ifname base listSize (nl :: nls) s =
      match vlanAddr ifname f with
      | none => addrLoop ifname base listSize nls s
      | some a =>
        match if listSize = 0 then none else base with
        | none => addrLoop ifname base listSize nls { s with numAddrs := s.numAddrs + 1 }
        | some b =>
          if listSize < s.numAddrs then (some eOverflow, s)
          else addrLoop ifname base listSize nls
            ⟨s.numAddrs + 1, Function.update s.list (b + s.numAddrs) a⟩ := by
  obtain ⟨name, hname⟩ := Option.isSome_iff_exists.mp hname
  have herr : ¬ nlmsgType nl = nlmsgError := by
    rw [AddrFrame.nlmsgType_points hnl]
    decide
  have hslot : ∀ vid addr, nlIfaceAddrParse vid (ifaRta nl) (ifaPayload nl) (ifaPrefixlen nl) addr =
      ⟨vid % 65536, f.addr.prefixlen.toNat, f.addr.address⟩ := by
    intro vid addr
    obtain ⟨r, hr, haddr⟩ := AddrFrame.find_local_points hnl
    rw [nlIfaceAddrParse_found hr, AddrFrame.ifaPrefixlen_points hnl, haddr]
  rw [addrLoop, if_neg herr, if_neg (not_not.mpr (AddrFrame.nlmsgType_points hnl)),
    AddrFrame.ifaIndex_points hnl, vlanAddr, hname, Option.bind_some]
  simp only [hslot]
  cases scanU "Vlan".toList name.toList with
  | value vid => rfl
  | eof => rfl
  | mismatch => rfl

section
variable {fs : List AddrFrame} {nls : List (List UInt8)}

/-- The pass that counts. -/
theorem addrLoop_count {base : Option ℕ} {listSize : ℕ}
    (hcount : (if listSize = 0 then none else base) = none)
    (hnls : List.Forall₂ (fun p f => Points p f.msg) nls fs) (hnamed : Named ifname fs) (s : Pass) :
    addrLoop ifname base listSize nls s =
      (none, { s with numAddrs := s.numAddrs + (fs.filterMap (vlanAddr ifname)).length }) := by
  induction hnls generalizing s with
  | nil => rfl
  | @cons nl f nls fs hnl _ ih =>
    obtain ⟨hname, hnamed⟩ := List.forall_mem_cons.mp hnamed
    rw [addrLoop_cons ifname hnl hname, hcount, List.filterMap_cons]
    cases vlanAddr ifname f with
    | none => exact ih hnamed s
    | some a =>
      dsimp only
      rw [ih hnamed, List.length_cons]
      dsimp only
      rw [Nat.add_assoc, Nat.add_comm 1]

/-- The pass that stores, with room for what it stores. -/
theorem addrLoop_store {b listSize : ℕ} (hsize : listSize ≠ 0)
    (hnls : List.Forall₂ (fun p f => Points p f.msg) nls fs) (hnamed : Named ifname fs) (s : Pass)
    (hroom : s.numAddrs + (fs.filterMap (vlanAddr ifname)).length ≤ listSize) :
    addrLoop ifname (some b) listSize nls s =
      (none, ⟨s.numAddrs + (fs.filterMap (vlanAddr ifname)).length,
        fillFrom s.list (b + s.numAddrs) (fs.filterMap (vlanAddr ifname))⟩) := by
  induction hnls generalizing s with
  | nil => rfl
  | @cons nl f nls fs hnl _ ih =>
    obtain ⟨hname, hnamed⟩ := List.forall_mem_cons.mp hnamed
    rw [List.filterMap_cons] at hroom ⊢
    rw [addrLoop_cons ifname hnl hname, if_neg hsize]
    cases hv : vlanAddr ifname f with
    | none =>
      rw [hv] at hroom
      exact ih hnamed s hroom
    | some a =>
      rw [hv] at hroom
      dsimp only at hroom ⊢
      rw [List.length_cons] at hroom ⊢
      rw [if_neg (by omega), ih hnamed _ (by dsimp only; omega)]
      dsimp only
      rw [Nat.add_assoc, Nat.add_comm 1, fillFrom]
      rfl

end

theorem whole_total_le : ∀ (ms : List Msg) (len : ℕ), total (whole len ms) ≤ len
  | [], _ => Nat.zero_le _
  | m :: ms, len => by
      rw [whole]
      by_cases h : m.size ≤ len
      · have hrest := whole_total_le ms (len - m.size)
        rw [if_pos h, total_cons]
        omega
      · rw [if_neg h]
        exact Nat.zero_le _

theorem length_le_total : ∀ ms : List Msg, ms.length ≤ total ms
  | [] => Nat.le_refl 0
  | m :: ms => by
      have hone : 16 ≤ m.size := Nat.le_trans (Nat.le_add_right _ _) (le_align m.len)
      have hrest := length_le_total ms
      rw [List.length_cons, total_cons]
      omega

theorem four_dvd_msgs : ∀ ms : List Msg, 4 ∣ (ms.flatMap Msg.bytes).length
  | [] => Nat.dvd_zero 4
  | m :: ms => by
      rw [List.flatMap_cons, List.length_append, m.bytes_length]
      exact Nat.dvd_add (align_dvd _) (four_dvd_msgs ms)

theorem four_dvd_bytes (d : Datagram) : 4 ∣ d.bytes.length := by
  have hfin : 4 ∣ ((d.fin.map Msg.bytes).getD []).length := by
    cases d.fin with
    | none => exact Nat.dvd_zero 4
    | some m =>
      rw [Option.map_some, Option.getD_some, m.bytes_length]
      exact align_dvd _
  unfold Datagram.bytes bytesOf
  rw [List.length_append]
  exact Nat.dvd_add (four_dvd_msgs _) hfin

/-- What is asked of the length that a datagram is received with. -/
structure Usable (len : ℕ) : Prop where
  dvd : 4 ∣ len
  le : len ≤ bufferSize

theorem Usable.receive {len : ℕ} (h : Usable len) (d : Datagram) (buf : List UInt8) :
    Usable (nlResponseGet d.bytes buf len).2 := by
  have hlen : (nlResponseGet d.bytes buf len).2 = min len d.bytes.length := List.length_take
  rw [hlen]
  refine ⟨?_, Nat.le_trans (Nat.min_le_left _ _) h.le⟩
  rcases Nat.le_total len d.bytes.length with hle | hle
  · rw [Nat.min_eq_left hle]
    exact h.dvd
  · rw [Nat.min_eq_right hle]
    exact four_dvd_bytes d

/-- The messages a received datagram is gone over by. -/
theorem walk_received {len : ℕ} (h : Usable len) (d : Datagram) (buf : List UInt8) :
    let r := nlResponseGet d.bytes buf len
    ∃ nls, forEachNlmsg (r.1.length + 1) r.1 r.2 = (nls, r.1.drop (total (whole r.2 d.msgs))) ∧
      List.Forall₂ (fun p f => Points p f.msg) nls (wholeFrames r.2 d.frames) := by
  have hu := h.receive d buf
  have hle : (d.bytes.take len).length ≤ d.bytes.length := List.length_take_le' _ _
  have htype : ∀ m ∈ d.msgs, m.type ≠ nlmsgDone := by
    intro m hm
    obtain ⟨f, -, rfl⟩ := List.mem_map.mp hm
    rw [f.is_newaddr]
    decide
  have hcut : d.bytes.take len = (bytesOf d.msgs d.fin).take (d.bytes.take len).length := by
    change d.bytes.take len = d.bytes.take _
    rw [List.length_take, List.take_eq_take_min]
  have hfuel : (whole (d.bytes.take len).length d.msgs).length <
      (d.bytes.take len ++ buf.drop (d.bytes.take len).length).length + 1 := by
    have hcount := length_le_total (whole (d.bytes.take len).length d.msgs)
    have hfit := whole_total_le d.msgs (d.bytes.take len).length
    rw [List.length_append]
    omega
  have hbound : (d.bytes.take len).length < 2 ^ 32 := by
    have hsize := hu.le
    unfold bufferSize nlResponseGet at hsize
    omega
  obtain ⟨nls, hrun, hnls⟩ := forEachNlmsg_cut d.fin_done (buf.drop (d.bytes.take len).length) d.msgs
    (d.bytes.take len).length _ htype hu.dvd hbound hle hfuel
  rw [← hcut] at hrun
  refine ⟨nls, hrun, ?_⟩
  have hframes := map_wholeFrames d.frames (d.bytes.take len).length
  unfold Datagram.msgs at hnls
  rw [← hframes, List.forall₂_map_right_iff] at hnls
  exact hnls

section
variable {ifname} {d : Datagram} {buf : List UInt8} {len : ℕ}

/-- The first pass over a received datagram: an end mark is not reported if there are more addresses
    than in the datagram before. -/
theorem pass_count (h : Usable len) (hnamed : Named ifname d.frames) (prev : ℕ) (list : ℕ → VidAddr) :
    nlResponseAddrParse ifname (nlResponseGet d.bytes buf len).1 (nlResponseGet d.bytes buf len).2
        none prev list =
      (if prev < (d.batch ifname buf len).seen.length then eOverflow
        else if (d.batch ifname buf len).fin then eNoData else 0,
        (d.batch ifname buf len).seen.length, list) := by
  obtain ⟨nls, hwalk, hnls⟩ := walk_received h d buf
  have hcount : (if prev = 0 then none else (none : Option ℕ)) = none := ite_self none
  unfold nlResponseAddrParse
  rw [hwalk]
  dsimp only
  rw [addrLoop_count ifname hcount hnls (named_wholeFrames ifname hnamed _)]
  dsimp only
  rw [Nat.zero_add]
  unfold Datagram.batch
  dsimp only
  split
  · rfl
  · simp only [decide_eq_true_eq]

/-- The second pass stores them. -/
theorem pass_store (h : Usable len) (hnamed : Named ifname d.frames) (b : ℕ) (list : ℕ → VidAddr) :
    nlResponseAddrParse ifname (nlResponseGet d.bytes buf len).1 (nlResponseGet d.bytes buf len).2
        (some b) (d.batch ifname buf len).seen.length list =
      (if (d.batch ifname buf len).fin then eNoData else 0, (d.batch ifname buf len).seen.length,
        fillFrom list b (d.batch ifname buf len).seen) := by
  obtain ⟨nls, hwalk, hnls⟩ := walk_received h d buf
  have hframes := named_wholeFrames ifname hnamed (nlResponseGet d.bytes buf len).2
  have hloop : addrLoop ifname (some b) (d.batch ifname buf len).seen.length nls ⟨0, list⟩ =
      (none, ⟨(d.batch ifname buf len).seen.length,
        fillFrom list b (d.batch ifname buf len).seen⟩) := by
    by_cases hzero : (d.batch ifname buf len).seen.length = 0
    · rw [addrLoop_count ifname (if_pos hzero) hnls hframes, List.length_eq_zero_iff.mp hzero]
      exact congrArg (fun n => (none, Pass.mk n list)) ((Nat.zero_add _).trans hzero)
    · rw [addrLoop_store ifname hzero hnls hframes _ (Nat.le_of_eq (Nat.zero_add _))]
      dsimp only
      rw [Nat.zero_add]
      rfl
  unfold nlResponseAddrParse
  rw [hwalk]
  dsimp only
  rw [hloop]
  dsimp only
  rw [if_neg (Nat.lt_irrefl _)]
  unfold Datagram.batch
  simp only [decide_eq_true_eq]

/-- The end mark is not reported as an error. -/
theorem fin_or_go {α : Type} (fin : Bool) (done err go : α) :
    (if (if fin then eNoData else 0) = eNoData then done
      else if (if fin then eNoData else 0) ≠ 0 then err else go) = if fin then done else go := by
  cases fin with
  | true => rfl
  | false => rfl

/-- One turn of the loop over the datagrams. -/
theorem getLoop_cons {isNull : Bool} {listSize : ℕ} {s : Get} (h : Usable s.bufLen)
    (hnamed : Named ifname d.frames) (ds : List (List UInt8)) :
    let b := d.batch ifname s.buf s.bufLen
    let r := nlResponseGet d.bytes s.buf s.bufLen
    getLoop ifname isNull listSize (d.bytes :: ds) s =
      if b.fin = true ∧ b.seen.length ≤ s.batchSize then some (finish listSize s.numAddrs s.list)
      else if isNull = true ∨ listSize = 0 then
        getLoop ifname isNull listSize ds
          ⟨r.1, r.2, b.seen.length, s.numAddrs + b.seen.length, s.list⟩
      else if listSize < s.numAddrs + b.seen.length then
        some (finish listSize (s.numAddrs + b.seen.length) s.list)
      else if b.fin = true then
        some (finish listSize (s.numAddrs + b.seen.length) (fillFrom s.list s.numAddrs b.seen))
      else
        getLoop ifname isNull listSize ds
          ⟨r.1, r.2, b.seen.length, s.numAddrs + b.seen.length, fillFrom s.list s.numAddrs b.seen⟩ := by
  intro b r
  have hover : eOverflow ≠ eNoData := by decide
  have hzero : (0 : ℤ) ≠ eNoData := by decide
  rw [getLoop]
  dsimp only
  rw [pass_count h hnamed]
  dsimp only
  rw [Nat.add_sub_cancel, pass_store h hnamed]
  dsimp only
  change _ = if b.fin = true ∧ b.seen.length ≤ s.batchSize then _ else _
  by_cases hmore : s.batchSize < b.seen.length
  · have hno : ¬ (b.fin = true ∧ b.seen.length ≤ s.batchSize) := fun hb => absurd hmore (Nat.not_lt.mpr hb.2)
    have hgo : ¬ (eOverflow ≠ 0 ∧ eOverflow ≠ eOverflow) := fun hb => hb.2 rfl
    rw [if_pos hmore, if_neg hover, if_neg hgo, if_neg hno]
    exact if_congr Iff.rfl rfl (if_congr Iff.rfl rfl (fin_or_go b.fin _ _ _))
  · rw [if_neg hmore]
    by_cases hfin : b.fin = true
    · have herr : (if b.fin = true then eNoData else 0) = eNoData := if_pos hfin
      have hboth : b.fin = true ∧ b.seen.length ≤ s.batchSize := ⟨hfin, Nat.not_lt.mp hmore⟩
      rw [if_pos herr, if_pos hboth]
    · have herr : ¬ (if b.fin = true then eNoData else 0) = eNoData := by
        rw [if_neg hfin]
        exact hzero
      have hgo : ¬ ((if b.fin = true then eNoData else 0) ≠ 0 ∧
          (if b.fin = true then eNoData else 0) ≠ eOverflow) := fun hb => hb.1 (if_neg hfin)
      have hno : ¬ (b.fin = true ∧ b.seen.length ≤ s.batchSize) := fun hb => hfin hb.1
      rw [if_neg herr, if_neg hgo, if_neg hno]
      exact if_congr Iff.rfl rfl (if_congr Iff.rfl rfl (fin_or_go b.fin _ _ _))

end

end Ucentral.Plat.IpList
