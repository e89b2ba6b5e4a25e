/-
# The GTPv2-C packet: allocation, items, validation and parsing

`gtp_alloc_packet.c`, `gtpc_validate_header.c` and the append function of `gtpc_item_func.c`. A
packet is a fixed buffer with a write position, the length field of its header and a queue of item
descriptors, and the four have to agree (`GtpPacket.Wf`). The parser runs over a `Source`, so a
byte from behind the payload is whatever lies in memory there, and in `Traced`, so every index it
touches is on record.
-/
import MixiPgw.Lib.Bytes

namespace MixiPgw.Ctrl

open Bytes List Traced

/-! ## 1. Data -/

/-- `ETHER_MAX_LEN`, the size of a packet buffer. -/
def etherMaxLen : Nat := 1514

/-- `GTPC_CAPABILITY_ITEM_COUNT`, the most items the parser takes. -/
def gtpcCapabilityItemCount : Nat := 255

def magic : List UInt8 := [0xde, 0xad, 0xc0, 0xde]

def gtpcEchoReq : UInt8 := 1
def gtpcEchoRes : UInt8 := 2
def gtpcVersionNotSupportedIndication : UInt8 := 3
def gtpcCreateSessionReq : UInt8 := 32
def gtpcCreateSessionRes : UInt8 := 33
def gtpcModifyBearerReq : UInt8 := 34
def gtpcModifyBearerRes : UInt8 := 35
def gtpcDeleteSessionReq : UInt8 := 36
def gtpcDeleteSessionRes : UInt8 := 37
def gtpcDeleteBearerReq : UInt8 := 99
def gtpcDeleteBearerRes : UInt8 := 100
def gtpcSuspendNotification : UInt8 := 162
def gtpcResumeNotification : UInt8 := 164

/-- `struct sockaddr_in`; its length is its size on every path. -/
structure SockAddr where
  family : UInt16
  port : UInt16
  addr : UInt32
deriving DecidableEq, Repr

def SockAddr.zero : SockAddr := ⟨0, 0, 0⟩

/-- `gtp_item_t`: what the queue remembers of one item. -/
structure GtpItem where
  type : UInt8
  length : Nat
  offset : Nat
deriving DecidableEq, Repr

/-- `gtp_packet_t`. `packet` is the allocation behind the struct, guard word included; `length` is
what items may fill of it. -/
structure GtpPacket where
  items : List GtpItem
  count : Nat
  length : Nat
  offset : Nat
  packet : List UInt8
  saddr : SockAddr
  caddr : SockAddr
deriving DecidableEq, Repr

def GtpPacket.headerLength (pkt : GtpPacket) : Nat :=
  be16 (pkt.packet.getD 2 0) (pkt.packet.getD 3 0)

def GtpPacket.itemBytes (pkt : GtpPacket) (it : GtpItem) : List UInt8 :=
  slice pkt.packet it.offset it.length

/-! ## 2. Building -/

/-- `gtpc_type_headerlen`: echo messages carry no TEID. -/
def gtpcTypeHeaderlen (type : UInt8) : Nat :=
  if type = gtpcEchoReq ∨ type = gtpcEchoRes then 8 else 12

/-- `gtpc_alloc_packet`: version 2, no piggybacking and the TEID bit. -/
def gtpcAllocPacket (type : UInt8) : GtpPacket :=
  let echo := type = gtpcEchoReq ∨ type = gtpcEchoRes
  { items := []
    count := 0
    length := etherMaxLen
    offset := if echo then 8 else 12
    packet := [if echo then 0x40 else 0x48, type] ++ be16Bytes (if echo then 4 else 8) ++
      List.replicate (etherMaxLen - 4) 0 ++ magic
    saddr := SockAddr.zero
    caddr := SockAddr.zero }

/-- The tail of `gtpc_append_item`: queue the item, copy it, count it. -/
def GtpPacket.push (pkt : GtpPacket) (type : UInt8) (data : List UInt8) : GtpPacket :=
  let copied := splice pkt.packet pkt.offset data
  let headerLength := be16 (copied.getD 2 0) (copied.getD 3 0)
  { pkt with
    items := pkt.items ++ [⟨type, data.length, pkt.offset⟩]
    count := (pkt.count + 1) % 65536
    offset := (pkt.offset + data.length) % 65536
    packet := splice copied 2 (be16Bytes (headerLength + data.length)) }

/-- `gtpc_append_item`; `none` is its `ERR`. -/
def gtpcAppendItem (pkt : GtpPacket) (type : UInt8) (data : List UInt8) : Option GtpPacket :=
  if data.length = 0 then none
  else if pkt.offset + data.length ≥ pkt.length then none
  else some (pkt.push type data)

def gtpcAppendItems : GtpPacket → List (UInt8 × List UInt8) → Option GtpPacket
  | pkt, [] => some pkt
  | pkt, (type, data) :: rest =>
    match gtpcAppendItem pkt type data with
    | none => none
    | some pkt' => gtpcAppendItems pkt' rest

/-! ## 3. Validation and parsing -/

def gtpcTypeIssupported (type : UInt8) : Bool :=
  [gtpcEchoReq, gtpcEchoRes, gtpcVersionNotSupportedIndication, gtpcCreateSessionReq,
    gtpcCreateSessionRes, gtpcModifyBearerReq, gtpcModifyBearerRes, gtpcDeleteSessionReq,
    gtpcDeleteSessionRes, gtpcDeleteBearerReq, gtpcDeleteBearerRes, gtpcSuspendNotification,
    gtpcResumeNotification].contains type

/-- `v2_flags.version` and `v2_flags.piggy` of the flags byte. -/
def flagsVersion (flags : UInt8) : Nat := flags.toNat / 32
def flagsPiggy (flags : UInt8) : Nat := flags.toNat / 16 % 2

/-- `gtpc_validate_header`. A version-1 header passes. -/
def gtpcValidateHeader (payload : Source) : Traced Bool := do
  let hi ← read payload 2
  let lo ← read payload 3
  if be16 hi lo < 4 then pure false
  else do
    let flags ← read payload 0
    if flagsVersion flags = 2 ∧ flagsPiggy flags ≠ 0 then pure false
    else if flagsVersion flags = 1 then pure true
    else do
      let type ← read payload 1
      if ¬ gtpcTypeIssupported type then pure false
      else pure (gtpcTypeHeaderlen type ≤ 12)

/-- The item loop of `gtpc_alloc_packet_from_payload`. The copy in the append reads the item, so
only when that passes its size checks, and before the new offset is compared with `len`. -/
def parseItems (payload : Source) (len : Nat) : Nat → Nat → GtpPacket → Traced (Option GtpPacket)
  | 0, _, _ => pure none
  | n + 1, offset, pkt =>
    if offset < len then do
      let hi ← read payload (offset + 1)
      let lo ← read payload (offset + 2)
      let hlen := (be16 hi lo + 4) % 65536
      let type ← read payload offset
      match gtpcAppendItem pkt type (payload.block offset hlen) with
      | none => pure none
      | some pkt' => do
        let _ ← readBlock payload offset hlen
        let offset' := (offset + hlen) % 65536
        if offset' > len then pure none
        else if offset' = len then pure (some pkt')
        else parseItems payload len n offset' pkt'
    else pure none

/-- `gtpc_alloc_packet_from_payload`; `none` is its `ERR`. -/
def gtpcAllocPacketFromPayload (payload : Source) (len : Nat) : Traced (Option GtpPacket) :=
  if len = 0 then pure none
  else do
    let valid ← gtpcValidateHeader payload
    if ¬ valid then pure none
    else do
      let hi ← read payload 2
      let lo ← read payload 3
      if be16 hi lo + 4 ≠ len then pure none
      else do
        let type ← read payload 1
        let offset := gtpcTypeHeaderlen type
        if offset > len then pure none
        else if offset = len then pure (some (gtpcAllocPacket type))
        else parseItems payload len gtpcCapabilityItemCount offset (gtpcAllocPacket type)

/-! ## 4. The representation invariant -/

/-- What does not depend on the version, and an append needs. -/
structure GtpPacket.Room (pkt : GtpPacket) : Prop where
  length_eq : pkt.length = etherMaxLen
  packet_length : pkt.packet.length = etherMaxLen + 4
  guard : ∀ j < 4, pkt.packet.getD (etherMaxLen + j) 0 = magic.getD j 0
  offset_ge : 8 ≤ pkt.offset
  offset_lt : pkt.offset < etherMaxLen
  header_le : pkt.headerLength ≤ pkt.offset
  count_eq : pkt.count = pkt.items.length
  count_le : pkt.items.length + 8 ≤ pkt.offset
  items_in : ∀ it ∈ pkt.items, 8 ≤ it.offset ∧ it.offset + it.length ≤ pkt.offset

/-- **What every packet satisfies.** -/
structure GtpPacket.Wf (pkt : GtpPacket) : Prop extends GtpPacket.Room pkt where
  header : pkt.headerLength + 4 = pkt.offset

variable {pkt : GtpPacket}

theorem GtpPacket.Wf.room (h : pkt.Wf) : pkt.Room := h.toRoom

theorem GtpPacket.Room.length_take (h : pkt.Room) :
    (pkt.packet.take pkt.offset).length = pkt.offset := by
  have hlt := h.offset_lt
  have hlen := h.packet_length
  rw [List.length_take]
  omega

section

variable {pkt : GtpPacket} (h : pkt.Room) {i : Nat} {d : List UInt8}
  (hfit : i + d.length ≤ pkt.offset)
include h hfit

theorem GtpPacket.Room.length_splice_take :
    (splice (pkt.packet.take pkt.offset) i d).length = pkt.offset := by
  rw [length_splice (by rwa [h.length_take]), h.length_take]

theorem GtpPacket.Room.getD_splice_take {j : Nat} (hj : j < pkt.offset)
    (hout : ¬ (i ≤ j ∧ j < i + d.length)) :
    (splice (pkt.packet.take pkt.offset) i d).getD j 0 = pkt.packet.getD j 0 := by
  rw [getD_splice (by rwa [h.length_take]), if_neg hout]
  simp [List.getD_eq_getElem?_getD, hj]

end

theorem GtpPacket.Room.wf (h : pkt.Room) (header : pkt.headerLength + 4 = pkt.offset) : pkt.Wf :=
  ⟨h, header⟩

variable (type : UInt8)

@[simp] theorem gtpcAllocPacket_offset :
    (gtpcAllocPacket type).offset = gtpcTypeHeaderlen type := rfl

@[simp] theorem gtpcAllocPacket_items : (gtpcAllocPacket type).items = [] := rfl

@[simp] theorem gtpcAllocPacket_packet_length :
    (gtpcAllocPacket type).packet.length = etherMaxLen + 4 := by
  simp only [gtpcAllocPacket, magic, length_append, List.length_cons, List.length_nil,
    be16Bytes_length, List.length_replicate]
  unfold etherMaxLen
  omega

theorem gtpcTypeHeaderlen_cases : gtpcTypeHeaderlen type = 8 ∨ gtpcTypeHeaderlen type = 12 := by
  unfold gtpcTypeHeaderlen
  split <;> simp

theorem gtpcAllocPacket_headerLength :
    (gtpcAllocPacket type).headerLength + 4 = gtpcTypeHeaderlen type := by
  simp only [GtpPacket.headerLength, gtpcAllocPacket, gtpcTypeHeaderlen, be16Bytes,
    List.cons_append, List.nil_append, List.getD_cons_succ, List.getD_cons_zero]
  split <;> rfl

theorem gtpcAllocPacket_wf : (gtpcAllocPacket type).Wf where
  length_eq := rfl
  packet_length := gtpcAllocPacket_packet_length type
  guard j hj := by
    have hlen : ([if type = gtpcEchoReq ∨ type = gtpcEchoRes then 0x40 else 0x48, type] ++
        be16Bytes (if type = gtpcEchoReq ∨ type = gtpcEchoRes then 4 else 8) ++
        List.replicate (etherMaxLen - 4) (0 : UInt8)).length = etherMaxLen := by
      simp only [length_append, List.length_cons, List.length_nil, be16Bytes_length,
        List.length_replicate]
      unfold etherMaxLen
      omega
    simp only [gtpcAllocPacket, List.getD_eq_getElem?_getD]
    rw [List.getElem?_append_right (by omega), hlen, Nat.add_sub_cancel_left]
  offset_ge := by
    rcases gtpcTypeHeaderlen_cases type with h | h <;> simp [h]
  offset_lt := by
    rcases gtpcTypeHeaderlen_cases type with h | h <;> simp [h, etherMaxLen]
  header_le := Nat.le_of_add_right_le (Nat.le_of_eq (gtpcAllocPacket_headerLength type))
  header := gtpcAllocPacket_headerLength type
  count_eq := rfl
  count_le := by
    rcases gtpcTypeHeaderlen_cases type with h | h <;> simp [h]
  items_in := by simp

theorem gtpcAllocPacket_type : (gtpcAllocPacket type).packet.getD 1 0 = type := rfl

/-! ## 5. What an append leaves alone -/

open GtpPacket

section

variable {pkt : GtpPacket} {type : UInt8} {data : List UInt8}

theorem GtpPacket.push_getD (h : pkt.Room) (hfit : pkt.offset + data.length < etherMaxLen)
    (j : Nat) :
    (pkt.push type data).packet.getD j 0 =
      if 2 ≤ j ∧ j < 4 then (be16Bytes (pkt.headerLength + data.length)).getD (j - 2) 0
      else if pkt.offset ≤ j ∧ j < pkt.offset + data.length then data.getD (j - pkt.offset) 0
      else pkt.packet.getD j 0 := by
  have hroom : pkt.offset + data.length ≤ pkt.packet.length := by rw [h.packet_length]; omega
  have hlen : 2 + (be16Bytes 0).length ≤ (splice pkt.packet pkt.offset data).length := by
    rw [length_splice hroom, h.packet_length, be16Bytes_length]
    omega
  have h8 := h.offset_ge
  -- the length field is read back from the copied buffer, below the copied range
  have hhead : be16 ((splice pkt.packet pkt.offset data).getD 2 0)
      ((splice pkt.packet pkt.offset data).getD 3 0) = pkt.headerLength := by
    rw [getD_splice_of_lt hroom (by omega), getD_splice_of_lt hroom (by omega)]
    rfl
  simp only [push, hhead]
  rw [getD_splice (by simpa using hlen), be16Bytes_length, getD_splice hroom]

theorem GtpPacket.push_packet_length (h : pkt.Room)
    (hfit : pkt.offset + data.length < etherMaxLen) :
    (pkt.push type data).packet.length = etherMaxLen + 4 := by
  have hroom : pkt.offset + data.length ≤ pkt.packet.length := by rw [h.packet_length]; omega
  have hcopied : (splice pkt.packet pkt.offset data).length = pkt.packet.length :=
    length_splice hroom
  simp only [push]
  rw [length_splice, hcopied, h.packet_length]
  rw [hcopied, h.packet_length, be16Bytes_length]
  omega

theorem GtpPacket.push_offset (hfit : pkt.offset + data.length < etherMaxLen) :
    (pkt.push type data).offset = pkt.offset + data.length := by
  simp only [push]
  unfold etherMaxLen at hfit
  omega

theorem GtpPacket.push_headerLength (h : pkt.Room) (hfit : pkt.offset + data.length < etherMaxLen) :
    (pkt.push type data).headerLength = pkt.headerLength + data.length := by
  have hh := h.header_le
  unfold etherMaxLen at hfit
  rw [headerLength, push_getD h hfit, push_getD h hfit,
    if_pos ⟨by omega, by omega⟩, if_pos ⟨by omega, by omega⟩]
  exact be16_ofNat _ (by omega)

theorem GtpPacket.push_room (h : pkt.Room) (hpos : 0 < data.length)
    (hfit : pkt.offset + data.length < etherMaxLen) : (pkt.push type data).Room where
  length_eq := h.length_eq
  packet_length := push_packet_length h hfit
  guard j hj := by
    have h8 := h.offset_ge
    rw [push_getD h hfit, if_neg (by omega), if_neg (by omega)]
    exact h.guard j hj
  offset_ge := by
    rw [push_offset hfit]
    exact le_trans h.offset_ge (Nat.le_add_right _ _)
  offset_lt := by rwa [push_offset hfit]
  header_le := by
    rw [push_headerLength h hfit, push_offset hfit]
    exact Nat.add_le_add_right h.header_le _
  count_eq := by
    have := h.count_le
    have := h.offset_lt
    simp only [push, h.count_eq, length_append, List.length_singleton]
    unfold etherMaxLen at this
    omega
  count_le := by
    have := h.count_le
    rw [push_offset hfit]
    simp only [push, length_append, List.length_singleton]
    omega
  items_in it hit := by
    have h8 := h.offset_ge
    rw [push_offset hfit]
    rcases List.mem_append.mp hit with hold | hnew
    · have := h.items_in it hold
      omega
    · rw [List.mem_singleton.mp hnew]
      exact ⟨h8, Nat.le_refl _⟩

theorem GtpPacket.push_wf (h : pkt.Wf) (hpos : 0 < data.length)
    (hfit : pkt.offset + data.length < etherMaxLen) : (pkt.push type data).Wf := by
  refine (push_room h.room hpos hfit).wf ?_
  rw [push_headerLength h.room hfit, push_offset hfit, ← h.header]
  omega

theorem GtpPacket.push_itemBytes (h : pkt.Room) (hfit : pkt.offset + data.length < etherMaxLen)
    {it : GtpItem} (hit : it ∈ pkt.items) :
    (pkt.push type data).itemBytes it = pkt.itemBytes it := by
  obtain ⟨h8, hend⟩ := h.items_in it hit
  refine ext_getD ?_ fun j hj => ?_
  · simp [itemBytes, slice, push_packet_length h hfit, h.packet_length]
  · have hj' : j < it.length := by
      have := hj
      simp only [itemBytes, slice, List.length_take] at this
      omega
    simp only [itemBytes, getD_slice hj', push_getD h hfit]
    rw [if_neg (by omega), if_neg (by omega)]

theorem GtpPacket.push_itemBytes_last (h : pkt.Room)
    (hfit : pkt.offset + data.length < etherMaxLen) :
    (pkt.push type data).itemBytes ⟨type, data.length, pkt.offset⟩ = data := by
  have h8 := h.offset_ge
  have hlen : ((pkt.push type data).itemBytes ⟨type, data.length, pkt.offset⟩).length =
      data.length := by
    simp only [itemBytes, slice, List.length_take, List.length_drop, push_packet_length h hfit]
    omega
  refine ext_getD hlen fun j hj => ?_
  rw [hlen] at hj
  simp only [itemBytes, getD_slice hj, push_getD h hfit]
  rw [if_neg (by omega), if_pos (by omega), Nat.add_sub_cancel_left]

end

variable {pkt' : GtpPacket} {type : UInt8} {data : List UInt8}

theorem gtpcAppendItem_eq_some :
    gtpcAppendItem pkt type data = some pkt' ↔
      0 < data.length ∧ pkt.offset + data.length < pkt.length ∧ pkt' = pkt.push type data := by
  unfold gtpcAppendItem
  split
  · simp only [reduceCtorEq, false_iff]
    omega
  · split
    · simp only [reduceCtorEq, false_iff]
      omega
    · constructor
      · rintro ⟨⟩
        exact ⟨by omega, by omega, rfl⟩
      · rintro ⟨-, -, rfl⟩
        rfl

theorem gtpcAppendItem_eq_none :
    gtpcAppendItem pkt type data = none ↔
      data.length = 0 ∨ pkt.length ≤ pkt.offset + data.length := by
  unfold gtpcAppendItem
  split <;> simp_all

theorem gtpcAppendItem_wf
    (hwf : pkt.Wf) (h : gtpcAppendItem pkt type data = some pkt') : pkt'.Wf := by
  obtain ⟨hpos, hfit, rfl⟩ := gtpcAppendItem_eq_some.mp h
  exact push_wf hwf hpos (hwf.length_eq ▸ hfit)

theorem gtpcAppendItems_cons {rest : List (UInt8 × List UInt8)} :
    gtpcAppendItems pkt ((type, data) :: rest) = some pkt' ↔
      0 < data.length ∧ pkt.offset + data.length < pkt.length ∧
        gtpcAppendItems (pkt.push type data) rest = some pkt' := by
  simp only [gtpcAppendItems]
  cases happ : gtpcAppendItem pkt type data with
  | none =>
    have := gtpcAppendItem_eq_none.mp happ
    simp only [reduceCtorEq, false_iff]
    omega
  | some pkt1 =>
    obtain ⟨hpos, hfit, rfl⟩ := gtpcAppendItem_eq_some.mp happ
    simp [hpos, hfit]

variable {items : List (UInt8 × List UInt8)}

/-- What appending a list keeps: the room, the distance between the write position and the
length field, and every other byte below the write position. -/
theorem gtpcAppendItems_room (hroom : pkt.Room) (h : gtpcAppendItems pkt items = some pkt') :
    pkt'.Room ∧ pkt.offset ≤ pkt'.offset ∧
      pkt'.headerLength + pkt.offset = pkt.headerLength + pkt'.offset ∧
      ∀ j < pkt.offset, ¬ (2 ≤ j ∧ j < 4) → pkt'.packet.getD j 0 = pkt.packet.getD j 0 := by
  induction items generalizing pkt with
  | nil =>
    obtain rfl : pkt = pkt' := Option.some.inj h
    exact ⟨hroom, Nat.le_refl _, rfl, fun _ _ _ => rfl⟩
  | cons it rest ih =>
    obtain ⟨type, data⟩ := it
    obtain ⟨hpos, hfit, hrest⟩ := gtpcAppendItems_cons.mp h
    rw [hroom.length_eq] at hfit
    have hoff : (pkt.push type data).offset = pkt.offset + data.length := push_offset hfit
    have hhead : (pkt.push type data).headerLength = pkt.headerLength + data.length :=
      push_headerLength hroom hfit
    obtain ⟨hroom', hle, hlag, hkeep⟩ := ih (push_room hroom hpos hfit) hrest
    refine ⟨hroom', by omega, by omega, fun j hj hj' => ?_⟩
    rw [hkeep j (by omega) hj', push_getD hroom hfit, if_neg hj', if_neg (by omega)]

theorem gtpcAppendItems_keeps (hwf : pkt.Wf) (h : gtpcAppendItems pkt items = some pkt') :
    pkt'.Wf ∧ pkt.offset ≤ pkt'.offset ∧
      ∀ j < pkt.offset, ¬ (2 ≤ j ∧ j < 4) → pkt'.packet.getD j 0 = pkt.packet.getD j 0 := by
  obtain ⟨hroom, hle, hlag, hkeep⟩ := gtpcAppendItems_room hwf.room h
  refine ⟨hroom.wf ?_, hle, hkeep⟩
  have := hwf.header
  omega

theorem gtpcAppendItems_isSome (hroom : pkt.Room) (hpos : ∀ it ∈ items, 0 < it.2.length)
    (hfits : pkt.offset + (items.map fun it => it.2.length).sum < etherMaxLen) :
    ∃ pkt', gtpcAppendItems pkt items = some pkt' := by
  induction items generalizing pkt with
  | nil => exact ⟨pkt, rfl⟩
  | cons it rest ih =>
    obtain ⟨type, data⟩ := it
    simp only [map_cons, sum_cons] at hfits
    have hpos0 : 0 < data.length := hpos (type, data) (by simp)
    have hfit : pkt.offset + data.length < etherMaxLen := by omega
    have hoff : (pkt.push type data).offset = pkt.offset + data.length := push_offset hfit
    obtain ⟨pkt', hrest⟩ := ih (push_room hroom hpos0 hfit)
      (fun it hit => hpos it (List.mem_cons_of_mem _ hit)) (by rw [hoff]; omega)
    exact ⟨pkt', gtpcAppendItems_cons.mpr ⟨hpos0, hroom.length_eq ▸ hfit, hrest⟩⟩

theorem gtpcAppendItems_offset (hroom : pkt.Room) (h : gtpcAppendItems pkt items = some pkt') :
    pkt'.offset = pkt.offset + (items.map fun it => it.2.length).sum := by
  induction items generalizing pkt with
  | nil =>
    obtain rfl : pkt = pkt' := Option.some.inj h
    simp
  | cons it rest ih =>
    obtain ⟨type, data⟩ := it
    obtain ⟨hpos, hfit, hrest⟩ := gtpcAppendItems_cons.mp h
    rw [hroom.length_eq] at hfit
    rw [ih (push_room hroom hpos hfit) hrest, push_offset hfit, map_cons,
      sum_cons, Nat.add_assoc]

theorem gtpcAppendItems_flatten (hroom : pkt.Room) (h : gtpcAppendItems pkt items = some pkt') :
    ∀ j < (items.map Prod.snd).flatten.length,
      pkt'.packet.getD (pkt.offset + j) 0 = (items.map Prod.snd).flatten.getD j 0 := by
  induction items generalizing pkt with
  | nil => simp
  | cons it rest ih =>
    intro j hj
    obtain ⟨type, data⟩ := it
    obtain ⟨hpos, hfit, hrest⟩ := gtpcAppendItems_cons.mp h
    rw [hroom.length_eq] at hfit
    have hroom' : (pkt.push type data).Room := push_room hroom hpos hfit
    have hoff : (pkt.push type data).offset = pkt.offset + data.length := push_offset hfit
    have h8 := hroom.offset_ge
    simp only [map_cons, List.flatten_cons, length_append] at hj ⊢
    by_cases hin : j < data.length
    · obtain ⟨-, -, -, hkeep⟩ := gtpcAppendItems_room hroom' hrest
      rw [hkeep _ (by omega) (by omega), push_getD hroom hfit, if_neg (by omega),
        if_pos (by omega), Nat.add_sub_cancel_left, List.getD_append _ _ _ _ hin]
    · have hnext := ih hroom' hrest (j - data.length) (by omega)
      rw [hoff, Nat.add_assoc, Nat.add_sub_cancel' (by omega)] at hnext
      rw [hnext, List.getD_append_right _ _ _ _ (by omega)]

theorem gtpcAppendItems_getD {before after : List (UInt8 × List UInt8)} (hroom : pkt.Room)
    (h : gtpcAppendItems pkt (before ++ (type, data) :: after) = some pkt') :
    ∀ j < data.length, pkt.offset + (before.map fun it => it.2.length).sum + j < pkt'.offset ∧
      pkt'.packet.getD (pkt.offset + (before.map fun it => it.2.length).sum + j) 0 =
        data.getD j 0 := by
  intro j hj
  have hall : ((before ++ (type, data) :: after).map Prod.snd).flatten =
      (before.map Prod.snd).flatten ++ (data ++ (after.map Prod.snd).flatten) := by simp
  have hlen : (before.map fun it => it.2.length).sum = (before.map Prod.snd).flatten.length := by
    rw [List.length_flatten, List.map_map]
    rfl
  have hend := gtpcAppendItems_offset hroom h
  simp only [List.map_append, map_cons, List.sum_append, sum_cons] at hend
  have hbyte := gtpcAppendItems_flatten hroom h ((before.map Prod.snd).flatten.length + j)
    (by simp only [hall, length_append]; omega)
  rw [hall, List.getD_append_right _ _ _ _ (Nat.le_add_right ..), Nat.add_sub_cancel_left,
    List.getD_append _ _ _ _ hj, ← hlen, ← Nat.add_assoc] at hbyte
  exact ⟨by omega, hbyte⟩

theorem gtpcAppendItems_pos
    (h : gtpcAppendItems pkt items = some pkt') : ∀ it ∈ items, 0 < it.2.length := by
  induction items generalizing pkt with
  | nil => simp
  | cons it rest ih =>
    obtain ⟨hpos, -, hrest⟩ := gtpcAppendItems_cons.mp h
    intro it' hit'
    rcases List.mem_cons.mp hit' with rfl | hmem
    · exact hpos
    · exact ih hrest it' hmem

end MixiPgw.Ctrl
