import Mathlib.Algebra.GroupWithZero.Nat
import Mathlib.Data.List.Forall2
import Mathlib.Data.Nat.Notation
import Mathlib.Tactic.Common

/-! Netlink messages in a buffer.

    A pointer into the buffer is the list of the bytes from there on. The macros of the kernel headers
    walk over messages and attributes by the lengths they carry; every step goes to the next multiple of
    four. A datagram that is cut is walked over up to the first message that is not whole, and the
    pointer is left at the bytes behind, which may be there from an earlier datagram. -/

namespace Netlink

/-! ### Numbers in memory -/

def u8 (p : List UInt8) (i : ℕ) : ℕ := (p.getD i 0).toNat

def u16 (p : List UInt8) (i : ℕ) : ℕ := u8 p i + 256 * u8 p (i + 1)

def u32 (p : List UInt8) (i : ℕ) : ℕ := u16 p i + 65536 * u16 p (i + 2)

/-- A number as a little-endian host stores it. -/
def le16 (n : ℕ) : List UInt8 := [UInt8.ofNat n, UInt8.ofNat (n / 256)]

def le32 (n : ℕ) : List UInt8 := le16 n ++ le16 (n / 65536)

theorem u16_of_le16 {n : ℕ} (h : n < 65536) :
    (UInt8.ofNat n).toNat + 256 * (UInt8.ofNat (n / 256)).toNat = n := by
  rw [UInt8.toNat_ofNat', UInt8.toNat_ofNat']
  omega

theorem u32_of_le32 {n : ℕ} (h : n < 4294967296) :
    (UInt8.ofNat n).toNat + 256 * (UInt8.ofNat (n / 256)).toNat +
      65536 * ((UInt8.ofNat (n / 65536)).toNat + 256 * (UInt8.ofNat (n / 65536 / 256)).toNat) = n := by
  rw [UInt8.toNat_ofNat', UInt8.toNat_ofNat', UInt8.toNat_ofNat', UInt8.toNat_ofNat']
  omega

/-- `NLMSG_ALIGN`, `RTA_ALIGN`. -/
def align (n : ℕ) : ℕ := (n + 3) / 4 * 4

/-- `len -= n` on a `size_t`. -/
def minus (len n : ℕ) : ℕ := (len + 2 ^ 64 - n) % 2 ^ 64

theorem minus_eq {len n : ℕ} (h : n ≤ len) (hlen : len < 2 ^ 64) : minus len n = len - n := by
  unfold minus
  omega

/-! ### Messages -/

def nlmsgError : ℕ := 2
def nlmsgDone : ℕ := 3
def rtmNewaddr : ℕ := 20

def nlmsgLen (p : List UInt8) : ℕ := u32 p 0

def nlmsgType (p : List UInt8) : ℕ := u16 p 4

/-- `NLMSG_OK(nlh, (uint32_t)len)`. -/
def nlmsgOk (p : List UInt8) (len : ℕ) : Bool :=
  decide (16 ≤ len % 2 ^ 32 ∧ 16 ≤ nlmsgLen p ∧ nlmsgLen p ≤ len % 2 ^ 32)

/-- The pointers a walk up to `NLMSG_DONE` visits, and where it is left. -/
def forEachNlmsg : ℕ → List UInt8 → ℕ → List (List UInt8) × List UInt8
  | 0, p, _ => ([], p)
  | fuel + 1, p, len =>
    if nlmsgOk p len && decide (nlmsgType p ≠ nlmsgDone) then
      let (ps, last) := forEachNlmsg fuel (p.drop (align (nlmsgLen p))) (minus len (align (nlmsgLen p)))
      (p :: ps, last)
    else ([], p)

/-- A message, padded to a multiple of four bytes. -/
structure Msg where
  type : ℕ
  flags : ℕ
  seq : ℕ
  pid : ℕ
  payload : List UInt8
  padding : List UInt8
  type_lt : type < 65536
  len_lt : 16 + payload.length < 4294967296
  aligned : 16 + payload.length + padding.length = align (16 + payload.length)

namespace Msg

def len (m : Msg) : ℕ := 16 + m.payload.length

def header (m : Msg) : List UInt8 := le32 m.len ++ le16 m.type ++ le16 m.flags ++ le32 m.seq ++ le32 m.pid

def bytes (m : Msg) : List UInt8 := m.header ++ (m.payload ++ m.padding)

def size (m : Msg) : ℕ := align m.len

theorem bytes_length (m : Msg) : m.bytes.length = m.size := by
  have h := m.aligned
  unfold bytes size len
  rw [List.length_append, List.length_append, ← h]
  change 16 + (m.payload.length + m.padding.length) = _
  omega

theorem nlmsgLen_header (m : Msg) (q : List UInt8) : nlmsgLen (m.header ++ q) = m.len :=
  u32_of_le32 m.len_lt

theorem nlmsgType_header (m : Msg) (q : List UInt8) : nlmsgType (m.header ++ q) = m.type :=
  u16_of_le16 m.type_lt

theorem bytes_append (m : Msg) (q : List UInt8) :
    m.bytes ++ q = m.header ++ (m.payload ++ (m.padding ++ q)) := by
  rw [bytes, List.append_assoc, List.append_assoc]

/-- A cut that leaves the header. -/
theorem take_bytes {len : ℕ} (h : 16 ≤ len) (m : Msg) (r q : List UInt8) :
    ∃ y, (m.bytes ++ r).take len ++ q = m.header ++ y := by
  refine ⟨(m.payload ++ (m.padding ++ r)).take (len - 16) ++ q, ?_⟩
  have hhead : m.header.take len = m.header := List.take_of_length_le h
  rw [bytes_append, List.take_append, hhead, List.append_assoc]
  rfl

end Msg

/-! ### Walking over a cut datagram -/

/-- The messages of a datagram and its end mark. -/
def bytesOf (ms : List Msg) (fin : Option Msg) : List UInt8 :=
  ms.flatMap Msg.bytes ++ (fin.map Msg.bytes).getD []

theorem bytesOf_cons (m : Msg) (ms : List Msg) (fin : Option Msg) :
    bytesOf (m :: ms) fin = m.bytes ++ bytesOf ms fin := by
  rw [bytesOf, List.flatMap_cons, List.append_assoc, bytesOf]

/-- The messages that lie within the first `len` bytes. -/
def whole : ℕ → List Msg → List Msg
  | _, [] => []
  | len, m :: ms => if m.size ≤ len then m :: whole (len - m.size) ms else []

def total (ms : List Msg) : ℕ := (ms.map Msg.size).sum

theorem total_cons (m : Msg) (ms : List Msg) : total (m :: ms) = m.size + total ms := by
  rw [total, List.map_cons, List.sum_cons, total]

/-- A pointer to a message. -/
def Points (p : List UInt8) (m : Msg) : Prop := ∃ q, p = m.bytes ++ q

theorem align_dvd (n : ℕ) : 4 ∣ align n := Nat.dvd_mul_left _ _

theorem le_align (n : ℕ) : n ≤ align n := by
  unfold align
  omega

/-- A length that is a multiple of four has room for a padded message if it has room for the message. -/
theorem align_le {n len : ℕ} (hdvd : 4 ∣ len) (h : n ≤ len) : align n ≤ len := by
  unfold align
  omega

theorem nlmsgOk_bytes {m : Msg} {len : ℕ} (h : m.size ≤ len) (hlen : len < 2 ^ 32) (q : List UInt8) :
    nlmsgOk (m.bytes ++ q) len = true := by
  have hle : m.len ≤ len := Nat.le_trans (le_align _) h
  have hmin : 16 ≤ m.len := Nat.le_add_right _ _
  unfold nlmsgOk
  rw [Msg.bytes_append, Msg.nlmsgLen_header, Nat.mod_eq_of_lt hlen]
  exact decide_eq_true ⟨Nat.le_trans hmin hle, hmin, hle⟩

/-- A message that is cut is not walked over. -/
theorem nlmsgOk_cut {m : Msg} {len : ℕ} (h : ¬ m.size ≤ len) (hdvd : 4 ∣ len) (hlen : len < 2 ^ 32)
    (r q : List UInt8) : nlmsgOk ((m.bytes ++ r).take len ++ q) len = false := by
  unfold nlmsgOk
  rw [Nat.mod_eq_of_lt hlen]
  refine decide_eq_false fun hok => h ?_
  obtain ⟨y, hy⟩ := Msg.take_bytes hok.1 m r q
  rw [hy, Msg.nlmsgLen_header] at hok
  exact align_le hdvd hok.2.2

/-- A walk visits a message that is whole, and goes on behind it. -/
theorem forEachNlmsg_bytes {m : Msg} {len : ℕ} (hfit : m.size ≤ len) (hlen : len < 2 ^ 32)
    (htype : m.type ≠ nlmsgDone) (fuel : ℕ) (q : List UInt8) :
    forEachNlmsg (fuel + 1) (m.bytes ++ q) len =
      ((m.bytes ++ q) :: (forEachNlmsg fuel q (len - m.size)).1, (forEachNlmsg fuel q (len - m.size)).2) := by
  have hgo : (nlmsgOk (m.bytes ++ q) len && decide (nlmsgType (m.bytes ++ q) ≠ nlmsgDone)) = true := by
    rw [nlmsgOk_bytes hfit hlen, Msg.bytes_append, Msg.nlmsgType_header]
    exact decide_eq_true htype
  have hlenm : nlmsgLen (m.bytes ++ q) = m.len := by rw [Msg.bytes_append, Msg.nlmsgLen_header]
  have hnext : (m.bytes ++ q).drop (align m.len) = q := List.drop_left' m.bytes_length
  have hminus : minus len (align m.len) = len - m.size := minus_eq hfit (by omega)
  rw [forEachNlmsg, hgo, if_pos rfl, hlenm, hnext, hminus]

/-- It stops at what is left of the end of a datagram. -/
theorem forEachNlmsg_end {fin : Option Msg} (hfin : ∀ d ∈ fin, d.type = nlmsgDone) {len : ℕ}
    (hlen : len < 2 ^ 32) (hle : len ≤ (bytesOf [] fin).length) (fuel : ℕ) (stale : List UInt8) :
    forEachNlmsg (fuel + 1) ((bytesOf [] fin).take len ++ stale) len =
      ([], (bytesOf [] fin).take len ++ stale) := by
  have hstop : (nlmsgOk ((bytesOf [] fin).take len ++ stale) len &&
      decide (nlmsgType ((bytesOf [] fin).take len ++ stale) ≠ nlmsgDone)) = false := by
    by_cases hshort : 16 ≤ len
    · cases fin with
      | none =>
        change len ≤ 0 at hle
        omega
      | some d =>
        have hbytes : bytesOf [] (some d) = d.bytes ++ [] := (List.append_nil _).symm
        obtain ⟨y, hy⟩ := Msg.take_bytes hshort d [] stale
        rw [hbytes, hy, Msg.nlmsgType_header, hfin d rfl]
        exact Bool.and_false _
    · have hno : nlmsgOk ((bytesOf [] fin).take len ++ stale) len = false := by
        unfold nlmsgOk
        rw [Nat.mod_eq_of_lt hlen]
        exact decide_eq_false fun h => hshort h.1
      rw [hno, Bool.false_and]
  rw [forEachNlmsg, hstop]
  rfl

/-- A walk over a cut datagram visits the messages that are whole and stops behind them. -/
theorem forEachNlmsg_cut {fin : Option Msg} (hfin : ∀ d ∈ fin, d.type = nlmsgDone) (stale : List UInt8) :
    ∀ (ms : List Msg) (len fuel : ℕ), (∀ m ∈ ms, m.type ≠ nlmsgDone) → 4 ∣ len → len < 2 ^ 32 →
    len ≤ (bytesOf ms fin).length → (whole len ms).length < fuel →
    ∃ ps, forEachNlmsg fuel ((bytesOf ms fin).take len ++ stale) len =
        (ps, ((bytesOf ms fin).take len ++ stale).drop (total (whole len ms))) ∧
      List.Forall₂ Points ps (whole len ms)
  | _, _, 0, _, _, _, _, hfuel => absurd hfuel (Nat.not_lt_zero _)
  | [], _, fuel + 1, _, _, hlen, hle, _ =>
    ⟨[], forEachNlmsg_end hfin hlen hle fuel stale, List.Forall₂.nil⟩
  | m :: ms, len, fuel + 1, htype, hdvd, hlen, hle, hfuel => by
      obtain ⟨hm, hms⟩ := List.forall_mem_cons.mp htype
      rw [bytesOf_cons] at hle ⊢
      rw [whole] at hfuel ⊢
      by_cases hfit : m.size ≤ len
      · rw [if_pos hfit] at hfuel ⊢
        have hcut : (m.bytes ++ bytesOf ms fin).take len ++ stale =
            m.bytes ++ ((bytesOf ms fin).take (len - m.size) ++ stale) := by
          have hall : m.bytes.take len = m.bytes :=
            List.take_of_length_le (Nat.le_trans (Nat.le_of_eq m.bytes_length) hfit)
          rw [List.take_append, hall, m.bytes_length, List.append_assoc]
        rw [List.length_append, m.bytes_length] at hle
        obtain ⟨ps, hrun, hps⟩ := forEachNlmsg_cut hfin stale ms (len - m.size) fuel hms
          (Nat.dvd_sub hdvd (align_dvd _)) (by omega) (by omega)
          (Nat.lt_of_succ_lt_succ hfuel)
        refine ⟨(m.bytes ++ ((bytesOf ms fin).take (len - m.size) ++ stale)) :: ps, ?_,
          List.Forall₂.cons ⟨_, rfl⟩ hps⟩
        rw [hcut, forEachNlmsg_bytes hfit hlen hm, hrun, total_cons, ← List.drop_drop,
          List.drop_left' m.bytes_length]
      · rw [if_neg hfit]
        refine ⟨[], ?_, List.Forall₂.nil⟩
        rw [forEachNlmsg, nlmsgOk_cut hfit hdvd hlen, Bool.false_and]
        rfl

/-! ### Attributes -/

def ifaLocal : ℕ := 2

def rtaLen (r : List UInt8) : ℕ := u16 r 0

def rtaType (r : List UInt8) : ℕ := u16 r 2

/-- `RTA_OK`. -/
def rtaOk (r : List UInt8) (len : ℕ) : Bool := decide (4 ≤ len ∧ 4 ≤ rtaLen r ∧ rtaLen r ≤ len)

/-- The pointers a walk over attributes visits. -/
def forEachRattr : ℕ → List UInt8 → ℕ → List (List UInt8)
  | 0, _, _ => []
  | fuel + 1, r, len =>
    if rtaOk r len then
      r :: forEachRattr fuel (r.drop (align (rtaLen r))) (minus len (align (rtaLen r)))
    else []

/-- An attribute, padded to a multiple of four bytes. -/
structure Attr where
  type : ℕ
  data : List UInt8
  padding : List UInt8
  type_lt : type < 65536
  len_lt : 4 + data.length < 65536
  aligned : 4 + data.length + padding.length = align (4 + data.length)

namespace Attr

def header (a : Attr) : List UInt8 := le16 (4 + a.data.length) ++ le16 a.type

def bytes (a : Attr) : List UInt8 := a.header ++ (a.data ++ a.padding)

theorem bytes_length (a : Attr) : a.bytes.length = align (4 + a.data.length) := by
  have h := a.aligned
  unfold bytes
  rw [List.length_append, List.length_append, ← h]
  change 4 + (a.data.length + a.padding.length) = _
  omega

theorem bytes_append (a : Attr) (q : List UInt8) :
    a.bytes ++ q = a.header ++ (a.data ++ (a.padding ++ q)) := by
  rw [bytes, List.append_assoc, List.append_assoc]

theorem rtaLen_bytes (a : Attr) (q : List UInt8) : rtaLen (a.bytes ++ q) = 4 + a.data.length := by
  rw [bytes_append]
  exact u16_of_le16 a.len_lt

theorem rtaType_bytes (a : Attr) (q : List UInt8) : rtaType (a.bytes ++ q) = a.type := by
  rw [bytes_append]
  exact u16_of_le16 a.type_lt

end Attr

theorem rtaOk_bytes {a : Attr} {len : ℕ} (h : a.bytes.length ≤ len) (q : List UInt8) :
    rtaOk (a.bytes ++ q) len = true := by
  have hle : 4 + a.data.length ≤ len :=
    Nat.le_trans (le_align _) (Nat.le_trans (Nat.le_of_eq a.bytes_length.symm) h)
  unfold rtaOk
  rw [Attr.rtaLen_bytes]
  exact decide_eq_true ⟨by omega, by omega, hle⟩

/-- The attributes in front of the one that is looked for are walked over. -/
theorem find_rattr {q : List UInt8} {fuel n : ℕ} : ∀ (as : List Attr) (len : ℕ), len < 2 ^ 64 →
    (as.flatMap Attr.bytes).length ≤ len → (∀ a ∈ as, a.type ≠ n) →
    (forEachRattr (fuel + as.length) (as.flatMap Attr.bytes ++ q) len).find? (fun r => rtaType r = n) =
      (forEachRattr fuel q (len - (as.flatMap Attr.bytes).length)).find? (fun r => rtaType r = n)
  | [], _, _, _, _ => rfl
  | a :: as, len, hlen, hroom, hother => by
      obtain ⟨ha, has⟩ := List.forall_mem_cons.mp hother
      rw [List.flatMap_cons, List.length_append] at hroom ⊢
      have hsize := a.bytes_length
      have hminus : minus len (align (4 + a.data.length)) = len - a.bytes.length := by
        rw [← hsize]
        exact minus_eq (by omega) hlen
      have hnext : (a.bytes ++ (as.flatMap Attr.bytes ++ q)).drop (align (4 + a.data.length)) =
          as.flatMap Attr.bytes ++ q := List.drop_left' hsize
      have hskip : ¬ decide (rtaType (a.bytes ++ (as.flatMap Attr.bytes ++ q)) = n) = true := by
        rw [Attr.rtaType_bytes]
        exact fun h => ha (of_decide_eq_true h)
      rw [List.append_assoc, List.length_cons, ← Nat.add_assoc, forEachRattr,
        if_pos (rtaOk_bytes (by omega) _), Attr.rtaLen_bytes, hnext, hminus,
        List.find?_cons_of_neg (p := fun r => decide (rtaType r = n)) hskip,
        find_rattr as _ (by omega) (by omega) has, Nat.sub_sub]

/-! ### Addresses -/

/-- What `RTM_NEWADDR` says about an address: the address itself is the first attribute of its type,
    and what comes behind it does not matter. -/
structure AddrMsg where
  family : UInt8
  prefixlen : UInt8
  ifaFlags : UInt8
  scope : UInt8
  index : ℕ
  before : List Attr
  address : ℕ
  after : List UInt8
  index_lt : index < 4294967296
  address_lt : address < 4294967296
  other : ∀ a ∈ before, a.type ≠ ifaLocal

namespace AddrMsg

/-- The attribute `IFA_LOCAL`. -/
def localAttr (m : AddrMsg) : Attr where
  type := ifaLocal
  data := le32 m.address
  padding := []
  type_lt := by decide
  len_lt := (by decide : 4 + 4 < 65536)
  aligned := (by decide : 4 + 4 + 0 = align (4 + 4))

def attrs (m : AddrMsg) : List UInt8 := m.before.flatMap Attr.bytes ++ (m.localAttr.bytes ++ m.after)

/-- `struct ifaddrmsg` and the attributes. -/
def payload (m : AddrMsg) : List UInt8 :=
  m.family :: m.prefixlen :: m.ifaFlags :: m.scope :: (le32 m.index ++ m.attrs)

theorem payload_length (m : AddrMsg) : m.payload.length = 8 + m.attrs.length := by
  unfold payload
  change (le32 m.index ++ m.attrs).length + 4 = _
  rw [List.length_append]
  change 4 + m.attrs.length + 4 = _
  omega

theorem localAttr_length (m : AddrMsg) : m.localAttr.bytes.length = 8 := rfl

theorem attrs_length (m : AddrMsg) :
    m.attrs.length = (m.before.flatMap Attr.bytes).length + (8 + m.after.length) := by
  unfold attrs
  rw [List.length_append, List.length_append, m.localAttr_length]

/-- The first `IFA_LOCAL` of the attributes is the address. -/
theorem find_local (m : AddrMsg) (q : List UInt8) {len fuel : ℕ} (hlen : len < 2 ^ 64)
    (hroom : m.attrs.length ≤ len) (hfuel : m.before.length < fuel) :
    ∃ r, (forEachRattr fuel (m.attrs ++ q) len).find? (fun r => rtaType r = ifaLocal) = some r ∧
      u32 r 4 = m.address := by
  obtain ⟨left, hleft⟩ := Nat.exists_eq_add_of_lt hfuel
  have hfuel' : fuel = left + 1 + m.before.length := by omega
  rw [m.attrs_length] at hroom
  refine ⟨m.localAttr.bytes ++ (m.after ++ q), ?_, ?_⟩
  · have hsize : m.localAttr.bytes.length ≤ len - (m.before.flatMap Attr.bytes).length := by
      rw [m.localAttr_length]
      omega
    have hok := rtaOk_bytes hsize (m.after ++ q)
    have hfound : decide (rtaType (m.localAttr.bytes ++ (m.after ++ q)) = ifaLocal) = true := by
      rw [Attr.rtaType_bytes]
      rfl
    unfold attrs
    rw [hfuel', List.append_assoc, List.append_assoc,
      find_rattr m.before len hlen (by omega) m.other, forEachRattr, if_pos hok,
      List.find?_cons_of_pos (p := fun r => decide (rtaType r = ifaLocal)) hfound]
  · exact u32_of_le32 m.address_lt

end AddrMsg

/-- `((struct ifaddrmsg *)NLMSG_DATA(nl))->ifa_index` and `->ifa_prefixlen`. -/
def ifaIndex (p : List UInt8) : ℕ := u32 p 20

def ifaPrefixlen (p : List UInt8) : ℕ := u8 p 17

/-- `IFA_RTA(NLMSG_DATA(nl))` and `IFA_PAYLOAD(nl)`, as unsigned numbers are subtracted. -/
def ifaRta (p : List UInt8) : List UInt8 := p.drop 24

def ifaPayload (p : List UInt8) : ℕ := (nlmsgLen p + 2 ^ 32 - 24) % 2 ^ 32

/-- A message `RTM_NEWADDR`. -/
structure AddrFrame where
  msg : Msg
  addr : AddrMsg
  is_newaddr : msg.type = rtmNewaddr
  is_payload : msg.payload = addr.payload

namespace AddrFrame
variable {f : AddrFrame} {p : List UInt8}

theorem points_payload (h : Points p f.msg) :
    ∃ q, p = f.msg.header ++ (f.addr.payload ++ (f.msg.padding ++ q)) := by
  obtain ⟨q, rfl⟩ := h
  exact ⟨q, by rw [Msg.bytes_append, f.is_payload]⟩

theorem nlmsgType_points (h : Points p f.msg) : nlmsgType p = rtmNewaddr := by
  obtain ⟨q, rfl⟩ := points_payload h
  rw [Msg.nlmsgType_header, f.is_newaddr]

theorem ifaIndex_points (h : Points p f.msg) : ifaIndex p = f.addr.index := by
  obtain ⟨q, rfl⟩ := points_payload h
  exact u32_of_le32 f.addr.index_lt

theorem ifaPrefixlen_points (h : Points p f.msg) : ifaPrefixlen p = f.addr.prefixlen.toNat := by
  obtain ⟨q, rfl⟩ := points_payload h
  rfl

theorem ifaPayload_points (h : Points p f.msg) : ifaPayload p = f.addr.attrs.length := by
  obtain ⟨q, rfl⟩ := points_payload h
  have hlen := f.msg.len_lt
  rw [f.is_payload, f.addr.payload_length] at hlen
  unfold ifaPayload
  rw [Msg.nlmsgLen_header, Msg.len, f.is_payload, f.addr.payload_length]
  omega

theorem length_le_bytes : ∀ as : List Attr, as.length ≤ (as.flatMap Attr.bytes).length
  | [] => Nat.le_refl 0
  | a :: as => by
      have hone : 4 + a.data.length ≤ a.bytes.length := by
        rw [a.bytes_length]
        exact le_align _
      have hrest := length_le_bytes as
      rw [List.flatMap_cons, List.length_append, List.length_cons]
      omega

/-- The address is found in the message. -/
theorem find_local_points (h : Points p f.msg) :
    ∃ r, (forEachRattr ((ifaRta p).length + 1) (ifaRta p) (ifaPayload p)).find?
        (fun r => rtaType r = ifaLocal) = some r ∧ u32 r 4 = f.addr.address := by
  have hpayload := ifaPayload_points h
  obtain ⟨q, rfl⟩ := points_payload h
  have hlen := f.msg.len_lt
  rw [f.is_payload, f.addr.payload_length] at hlen
  have hrta : ifaRta (f.msg.header ++ (f.addr.payload ++ (f.msg.padding ++ q))) =
      f.addr.attrs ++ (f.msg.padding ++ q) := rfl
  rw [hpayload, hrta]
  refine f.addr.find_local _ (by omega) (Nat.le_refl _) ?_
  have hcount := length_le_bytes f.addr.before
  have hattrs := f.addr.attrs_length
  rw [List.length_append]
  omega

end AddrFrame

end Netlink
