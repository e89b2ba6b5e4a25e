/-
# Building a packet by any sequence of appends

Packets of two versions, each with an append function of its own. An append may be passed a null
pointer, a length of zero or more than the buffer takes, and the queue entry it allocates may be
refused.

A call does nothing at all or one `push` (`AppendCall.run_cases`); the items tile the packet from
the end of the header to the write position (`Built`), after any sequence of calls.
-/
import MixiPgw.Ctrl.Packet

namespace MixiPgw.Ctrl

open Bytes List GtpPacket

/-! ## 1. Two versions of the packet -/

/-- `gtpc_v1_alloc_packet`: version 1, protocol type GTP, a sequence number. The length field does
not count the eight bytes of the header. -/
def gtpcV1AllocPacket (type : UInt8) : GtpPacket :=
  { items := []
    count := 0
    length := etherMaxLen
    offset := 8
    packet := [0x32, type] ++ be16Bytes 0 ++ replicate (etherMaxLen - 4) 0 ++ magic
    saddr := SockAddr.zero
    caddr := SockAddr.zero }

def gtpcV1AppendItem : GtpPacket → UInt8 → List UInt8 → Option GtpPacket := gtpcAppendItem

inductive GtpcVersion where
  | v1
  | v2
deriving DecidableEq, Repr

def GtpcVersion.alloc : GtpcVersion → UInt8 → GtpPacket
  | .v1 => gtpcV1AllocPacket
  | .v2 => gtpcAllocPacket

def GtpcVersion.headerSize : GtpcVersion → UInt8 → Nat
  | .v1, _ => 8
  | .v2, type => gtpcTypeHeaderlen type

def GtpcVersion.uncounted : GtpcVersion → Nat
  | .v1 => 8
  | .v2 => 4

def GtpcVersion.appendItem : GtpcVersion → GtpPacket → UInt8 → List UInt8 → Option GtpPacket
  | .v1 => gtpcV1AppendItem
  | .v2 => gtpcAppendItem

/-- The arguments of an append call, and whether `malloc` gives it a queue entry; `data` is `none`
for a null pointer. -/
structure AppendCall where
  type : UInt8
  data : Option Source
  len : UInt16
  malloc : Bool

def AppendCall.bytes (call : AppendCall) (data : Source) : List UInt8 :=
  data.block 0 call.len.toNat

/-- **One append call**: the packet it leaves and whether it returns `OK`. -/
def AppendCall.run (v : GtpcVersion) (pkt : GtpPacket) (call : AppendCall) : GtpPacket × Bool :=
  match call.data with
  | none => (pkt, false)
  | some data =>
    match v.appendItem pkt call.type (call.bytes data) with
    | none => (pkt, false)
    | some pkt' => if call.malloc then (pkt', true) else (pkt, false)

def GtpcVersion.build (v : GtpcVersion) : GtpPacket → List AppendCall → GtpPacket
  | pkt, [] => pkt
  | pkt, call :: rest => v.build (call.run v pkt).1 rest

def GtpcVersion.accepted (v : GtpcVersion) : GtpPacket → List AppendCall → List (UInt8 × List UInt8)
  | _, [] => []
  | pkt, call :: rest =>
    let (pkt', ok) := call.run v pkt
    (if ok then (call.data.map fun data => (call.type, call.bytes data)).toList else []) ++
      v.accepted pkt' rest

/-! ## 2. What one call can do -/

variable (v : GtpcVersion)

theorem GtpcVersion.appendItem_eq : v.appendItem = gtpcAppendItem := by
  cases v <;> rfl

theorem AppendCall.run_cases (pkt : GtpPacket) (call : AppendCall) :
    call.run v pkt = (pkt, false) ∨
      ∃ data, call.data = some data ∧ 0 < (call.bytes data).length ∧
        pkt.offset + (call.bytes data).length < pkt.length ∧
        call.run v pkt = (pkt.push call.type (call.bytes data), true) := by
  unfold AppendCall.run
  rw [v.appendItem_eq]
  cases hdata : call.data with
  | none => exact .inl rfl
  | some data =>
    dsimp only
    cases happ : gtpcAppendItem pkt call.type (call.bytes data) with
    | none => exact .inl rfl
    | some pkt' =>
      obtain ⟨hpos, hfit, rfl⟩ := gtpcAppendItem_eq_some.mp happ
      cases hmalloc : call.malloc with
      | false => exact .inl rfl
      | true => exact .inr ⟨data, rfl, hpos, hfit, rfl⟩

/-! ## 3. The invariant -/

/-- The items stand in a row from `start` to `stop`, none of them empty. -/
inductive ItemsFrom : Nat → List GtpItem → Nat → Prop
  | nil {start : Nat} : ItemsFrom start [] start
  | cons {start stop : Nat} {it : GtpItem} {rest : List GtpItem} (offset_eq : it.offset = start)
      (length_pos : 0 < it.length) (tail : ItemsFrom (start + it.length) rest stop) :
      ItemsFrom start (it :: rest) stop

variable {start stop : Nat} {items : List GtpItem} {type : UInt8}

theorem ItemsFrom.snoc (h : ItemsFrom start items stop) {length : Nat} (hpos : 0 < length) :
    ItemsFrom start (items ++ [⟨type, length, stop⟩]) (stop + length) := by
  induction h with
  | nil => exact .cons rfl hpos .nil
  | cons hoff hlen _ ih => exact .cons hoff hlen ih

theorem ItemsFrom.sum (h : ItemsFrom start items stop) :
    stop = start + (items.map GtpItem.length).sum := by
  induction h with
  | nil => simp
  | cons _ _ _ ih => rw [ih, map_cons, sum_cons, Nat.add_assoc]

theorem ItemsFrom.start_le (h : ItemsFrom start items stop) : ∀ it ∈ items, start ≤ it.offset := by
  induction h with
  | nil => simp
  | cons hoff _ _ ih =>
    intro it hit
    rcases mem_cons.mp hit with rfl | hrest
    · exact hoff.ge
    · exact le_trans (Nat.le_add_right _ _) (ih it hrest)

theorem ItemsFrom.pairwise (h : ItemsFrom start items stop) :
    items.Pairwise fun a b => a.offset + a.length ≤ b.offset := by
  induction h with
  | nil => exact .nil
  | cons hoff _ htail ih => exact .cons (fun b hb => hoff ▸ htail.start_le b hb) ih

structure Built (v : GtpcVersion) (type : UInt8) (pkt : GtpPacket) : Prop where
  room : pkt.Room
  header : pkt.headerLength + v.uncounted = pkt.offset
  items : ItemsFrom (v.headerSize type) pkt.items pkt.offset

@[simp] theorem gtpcV1AllocPacket_offset (type : UInt8) : (gtpcV1AllocPacket type).offset = 8 := rfl

@[simp] theorem gtpcV1AllocPacket_items (type : UInt8) : (gtpcV1AllocPacket type).items = [] := rfl

theorem gtpcV1AllocPacket_headerLength (type : UInt8) :
    (gtpcV1AllocPacket type).headerLength = 0 := by
  simp only [headerLength, gtpcV1AllocPacket, be16Bytes, cons_append,
    nil_append, getD_cons_succ, getD_cons_zero]
  rfl

theorem gtpcV1AllocPacket_room (type : UInt8) : (gtpcV1AllocPacket type).Room where
  length_eq := rfl
  packet_length := by
    simp only [gtpcV1AllocPacket, magic, length_append, length_cons, length_nil,
      be16Bytes_length, length_replicate]
    unfold etherMaxLen
    omega
  guard j hj := by
    have hlen : ([0x32, type] ++ be16Bytes 0 ++
        replicate (etherMaxLen - 4) (0 : UInt8)).length = etherMaxLen := by
      simp only [length_append, length_cons, length_nil, be16Bytes_length, length_replicate]
      unfold etherMaxLen
      omega
    simp only [gtpcV1AllocPacket, getD_eq_getElem?_getD]
    rw [getElem?_append_right (by omega), hlen, Nat.add_sub_cancel_left]
  offset_ge := Nat.le_refl _
  offset_lt := by simp [etherMaxLen]
  header_le := by simp [gtpcV1AllocPacket_headerLength]
  count_eq := rfl
  count_le := Nat.le_refl _
  items_in := by simp

theorem GtpcVersion.alloc_built (type : UInt8) : Built v type (v.alloc type) := by
  cases v with
  | v1 =>
    refine ⟨gtpcV1AllocPacket_room type, ?_, .nil⟩
    rw [GtpcVersion.alloc, gtpcV1AllocPacket_headerLength]
    rfl
  | v2 => exact ⟨(gtpcAllocPacket_wf type).room, gtpcAllocPacket_headerLength type, .nil⟩

section

variable {v : GtpcVersion} {type : UInt8} {pkt : GtpPacket}

variable {itemType : UInt8} {data : List UInt8}

theorem Built.push (h : Built v type pkt)
    (hpos : 0 < data.length) (hfit : pkt.offset + data.length < pkt.length) :
    Built v type (pkt.push itemType data) := by
  rw [h.room.length_eq] at hfit
  refine ⟨push_room h.room hpos hfit, ?_, ?_⟩
  · rw [push_headerLength h.room hfit, push_offset hfit, ← h.header]
    omega
  · rw [push_offset hfit]
    exact h.items.snoc hpos

theorem Built.run (h : Built v type pkt) (call : AppendCall) : Built v type (call.run v pkt).1 := by
  rcases call.run_cases v pkt with hrun | ⟨data, -, hpos, hfit, hrun⟩
  · rw [hrun]
    exact h
  · rw [hrun]
    exact h.push hpos hfit

/-- One call on the bytes: `ERR` changes nothing, `OK` no byte so far but the length field. -/
theorem Built.run_bytes (h : Built v type pkt) (call : AppendCall) :
    call.run v pkt = (pkt, false) ∨
      (call.run v pkt).2 = true ∧
        ∀ j < pkt.offset, ¬ (2 ≤ j ∧ j < 4) →
          (call.run v pkt).1.packet.getD j 0 = pkt.packet.getD j 0 := by
  rcases call.run_cases v pkt with hrun | ⟨data, -, hpos, hfit, hrun⟩
  · exact .inl hrun
  · refine .inr ⟨by rw [hrun], fun j hj hlen => ?_⟩
    rw [h.room.length_eq] at hfit
    rw [hrun, push_getD h.room hfit, if_neg hlen, if_neg (by omega)]

def GtpPacket.contents (pkt : GtpPacket) : List (UInt8 × List UInt8) :=
  pkt.items.map fun it => (it.type, pkt.itemBytes it)

theorem GtpPacket.push_contents (h : pkt.Room) (hfit : pkt.offset + data.length < etherMaxLen) :
    (pkt.push itemType data).contents = pkt.contents ++ [(itemType, data)] := by
  have hold : ∀ it ∈ pkt.items, (it.type, (pkt.push itemType data).itemBytes it) =
      (it.type, pkt.itemBytes it) := fun it hit => by rw [push_itemBytes h hfit hit]
  have hitems : (pkt.push itemType data).items =
      pkt.items ++ [⟨itemType, data.length, pkt.offset⟩] := rfl
  rw [contents, hitems, map_append, map_congr_left hold, map_singleton, push_itemBytes_last h hfit]
  rfl

end

/-! ## 4. Sequences of calls -/

/-- The invariant over any sequence of calls, and the queue as what the `OK` calls appended. -/
theorem Built.build {v : GtpcVersion} (calls : List AppendCall) {pkt : GtpPacket}
    (h : Built v type pkt) :
    Built v type (v.build pkt calls) ∧
      (v.build pkt calls).contents = pkt.contents ++ v.accepted pkt calls := by
  induction calls generalizing pkt with
  | nil => exact ⟨h, (append_nil _).symm⟩
  | cons call rest ih =>
    obtain ⟨hbuilt, hcontents⟩ := ih (h.run call)
    refine ⟨hbuilt, ?_⟩
    simp only [GtpcVersion.build, GtpcVersion.accepted, hcontents]
    rcases call.run_cases v pkt with hrun | ⟨data, hdata, -, hfit, hrun⟩
    · simp [hrun]
    · rw [h.room.length_eq] at hfit
      simp [hrun, hdata, push_contents h.room hfit]

/-- **The packet representation invariant.** After any sequence of append calls on a fresh
packet of either version, the items stand in a row behind the header, the write position, the
count and the length field agree with it, and the queue holds what the successful calls appended. -/
theorem build_invariant (v : GtpcVersion) (type : UInt8) (calls : List AppendCall)
    (call : AppendCall) :
    let pkt := v.build (v.alloc type) calls
    ItemsFrom (v.headerSize type) pkt.items pkt.offset ∧
      (pkt.items.Pairwise fun a b => a.offset + a.length ≤ b.offset) ∧
      pkt.offset = v.headerSize type + (pkt.items.map GtpItem.length).sum ∧
      pkt.offset < pkt.length ∧
      pkt.count = pkt.items.length ∧
      pkt.headerLength + v.uncounted = pkt.offset ∧
      pkt.contents = v.accepted (v.alloc type) calls ∧
      (call.run v pkt = (pkt, false) ∨
        (call.run v pkt).2 = true ∧
          ∀ j < pkt.offset, ¬ (2 ≤ j ∧ j < 4) →
            (call.run v pkt).1.packet.getD j 0 = pkt.packet.getD j 0) := by
  intro pkt
  obtain ⟨hbuilt, hcontents⟩ := (v.alloc_built type).build calls
  have hfresh : (v.alloc type).contents = [] := by cases v <;> rfl
  rw [hfresh] at hcontents
  exact ⟨hbuilt.items, hbuilt.items.pairwise, hbuilt.items.sum,
    hbuilt.room.length_eq ▸ hbuilt.room.offset_lt, hbuilt.room.count_eq, hbuilt.header, hcontents,
    hbuilt.run_bytes call⟩

end MixiPgw.Ctrl
