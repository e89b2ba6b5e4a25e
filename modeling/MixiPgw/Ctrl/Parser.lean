/-
# The GTPv2-C parser: round trip and accepted language

The ROUND TRIP (`parse_build`): what `gtpc_alloc_packet` and `gtpc_append_item` built,
`gtpc_alloc_packet_from_payload` gives back; in the loop lemma the parser's packet is the builder's
packet of the same moment.

The ACCEPTED LANGUAGE: `Tiled` is the grammar, consecutive items of `4 + length` bytes up to the end
of the payload. But `hlen` is a wrapping 16-bit sum, and an item is copied before its end is
compared with the payload's; `Careful` says exactly on which payloads neither shows.
-/
import MixiPgw.Ctrl.Packet

namespace MixiPgw.Ctrl

open Bytes Option List Traced Source

/-! ## 1. Items and their append -/

/-- **An item on the wire**: its type, and a length that counts what follows the four header
bytes. -/
structure WireItem where
  type : UInt8
  bytes : List UInt8
  four_le : 4 ≤ bytes.length
  type_eq : bytes.getD 0 0 = type
  length_eq : be16 (bytes.getD 1 0) (bytes.getD 2 0) + 4 = bytes.length

def appendItems (pkt : GtpPacket) (items : List WireItem) : Option GtpPacket :=
  gtpcAppendItems pkt (items.map fun it => (it.type, it.bytes))

def GtpPacket.payload (pkt : GtpPacket) (past : Nat → UInt8) : Source :=
  ⟨pkt.packet.take pkt.offset, past⟩

theorem GtpPacket.byte_payload {pkt : GtpPacket} {past : Nat → UInt8} {i : Nat} (h : pkt.Wf)
    (hi : i < pkt.offset) : (pkt.payload past).byte i = pkt.packet.getD i 0 := by
  have hlen := h.packet_length
  have hlt := h.offset_lt
  have hi' : i < pkt.packet.length := by omega
  simp [payload, byte, hi, hi']

theorem appendItems_cons {pkt pkt' : GtpPacket} {it : WireItem} {rest : List WireItem} :
    appendItems pkt (it :: rest) = some pkt' ↔
      pkt.offset + it.bytes.length < pkt.length ∧
        appendItems (pkt.push it.type it.bytes) rest = some pkt' := by
  have hpos : 0 < it.bytes.length := by have := it.four_le; omega
  simp only [appendItems, map_cons, gtpcAppendItems_cons, hpos, true_and]

theorem appendItems_queue : ∀ {items : List WireItem} {pkt pkt' : GtpPacket}, pkt.Wf →
    appendItems pkt items = some pkt' →
    pkt'.items.map (fun it => (it.type, pkt'.itemBytes it)) =
      pkt.items.map (fun it => (it.type, pkt.itemBytes it)) ++
        items.map (fun it => (it.type, it.bytes))
  | [], pkt, pkt', _, h => by
    obtain rfl : pkt = pkt' := some.inj h
    simp
  | it :: rest, pkt, pkt', hwf, h => by
    obtain ⟨hfit, hrest⟩ := appendItems_cons.mp h
    rw [hwf.length_eq] at hfit
    have hpos : 0 < it.bytes.length := by have := it.four_le; omega
    rw [appendItems_queue (GtpPacket.push_wf hwf hpos hfit) hrest]
    have hold : pkt.items.map (fun i => (i.type, (pkt.push it.type it.bytes).itemBytes i)) =
        pkt.items.map (fun i => (i.type, pkt.itemBytes i)) :=
      map_congr_left fun i hi => by rw [GtpPacket.push_itemBytes hwf.room hfit hi]
    have hitems : (pkt.push it.type it.bytes).items =
        pkt.items ++ [⟨it.type, it.bytes.length, pkt.offset⟩] := rfl
    rw [hitems, map_append, hold]
    simp [GtpPacket.push_itemBytes_last hwf.room hfit]

/-! ## 2. The round trip -/

theorem parseItems_val {payload : Source} {len n offset : Nat} {pkt : GtpPacket}
    (h : offset < len) {hlen : Nat}
    (hh : hlen = (be16 (payload.byte (offset + 1)) (payload.byte (offset + 2)) + 4) % 65536) :
    (parseItems payload len (n + 1) offset pkt).val =
      match gtpcAppendItem pkt (payload.byte offset) (payload.block offset hlen) with
      | none => none
      | some pkt' =>
        if (offset + hlen) % 65536 > len then none
        else if (offset + hlen) % 65536 = len then some pkt'
        else (parseItems payload len n ((offset + hlen) % 65536) pkt').val := by
  subst hh
  simp only [parseItems, if_pos h, val_bind]
  cases gtpcAppendItem pkt (payload.byte offset) (payload.block offset _) with
  | none => rfl
  | some pkt' => simp only [val_bind, val_ite, val_pure]

section

variable {it : WireItem} {pkt pkt' : GtpPacket} (hwf : pkt.Wf)
  (hfit : pkt.offset + it.bytes.length < etherMaxLen) {rest : List WireItem}
  (hrest : appendItems (pkt.push it.type it.bytes) rest = some pkt') (past : Nat → UInt8)
include hwf hfit hrest

theorem byte_pushed {j : Nat} (hj : j < it.bytes.length) :
    (pkt'.payload past).byte (pkt.offset + j) = it.bytes.getD j 0 := by
  have h8 := hwf.offset_ge
  have hoff : (pkt.push it.type it.bytes).offset = pkt.offset + it.bytes.length :=
    GtpPacket.push_offset hfit
  obtain ⟨hwf', hle, hkeep⟩ := gtpcAppendItems_keeps
    (GtpPacket.push_wf hwf (by omega) hfit) hrest
  rw [GtpPacket.byte_payload hwf' (by omega), hkeep _ (by omega) (by omega),
    GtpPacket.push_getD hwf.room hfit, if_neg (by omega), if_pos (by omega),
    Nat.add_sub_cancel_left]

theorem type_pushed : (pkt'.payload past).byte pkt.offset = it.type := by
  have h4 := it.four_le
  have hfirst := byte_pushed hwf hfit hrest past (j := 0) (by omega)
  rwa [Nat.add_zero, it.type_eq] at hfirst

theorem size_pushed : it.bytes.length = (be16 ((pkt'.payload past).byte (pkt.offset + 1))
    ((pkt'.payload past).byte (pkt.offset + 2)) + 4) % 65536 := by
  have h4 := it.four_le
  have hmax : etherMaxLen < 65536 := by decide
  rw [byte_pushed hwf hfit hrest past (by omega), byte_pushed hwf hfit hrest past (by omega),
    it.length_eq]
  omega

theorem block_pushed : (pkt'.payload past).block pkt.offset it.bytes.length = it.bytes := by
  refine ext_getD (length_block _ _ _) fun j hj => ?_
  rw [length_block] at hj
  rw [getD_block _ hj, byte_pushed hwf hfit hrest past hj]

end

variable {items : List WireItem}

theorem offset_lt_of_appendItems {pkt pkt' : GtpPacket} (hwf : pkt.Wf)
    (h : appendItems pkt items = some pkt') (hne : items ≠ []) : pkt.offset < pkt'.offset := by
  cases items with
  | nil => exact absurd rfl hne
  | cons it rest =>
    obtain ⟨hfit, hrest⟩ := appendItems_cons.mp h
    rw [hwf.length_eq] at hfit
    have h4 := it.four_le
    obtain ⟨-, hle, -⟩ := gtpcAppendItems_keeps (GtpPacket.push_wf hwf (by omega) hfit) hrest
    rw [GtpPacket.push_offset hfit] at hle
    omega

/-- The loop gives the built packet back. Induction on the items still to be read: the parser
holds the packet the builder held before them. -/
theorem parseItems_append : ∀ {items : List WireItem} {pkt pkt' : GtpPacket} {n : Nat}
    (past : Nat → UInt8), pkt.Wf → appendItems pkt items = some pkt' → items ≠ [] →
    items.length ≤ n →
    (parseItems (pkt'.payload past) pkt'.offset n pkt.offset pkt).val = some pkt'
  | [], _, _, _, _, _, _, hne, _ => absurd rfl hne
  | it :: rest, pkt, pkt', 0, _, _, _, _, hn => by simp at hn
  | it :: rest, pkt, pkt', n + 1, past, hwf, h, _, hn => by
    obtain ⟨hfit, hrest⟩ := appendItems_cons.mp h
    rw [hwf.length_eq] at hfit
    have h4 := it.four_le
    have hwf1 : (pkt.push it.type it.bytes).Wf := GtpPacket.push_wf hwf (by omega) hfit
    have hoff : (pkt.push it.type it.bytes).offset = pkt.offset + it.bytes.length :=
      GtpPacket.push_offset hfit
    obtain ⟨-, hle, -⟩ := gtpcAppendItems_keeps hwf1 hrest
    have happ : gtpcAppendItem pkt it.type it.bytes = some (pkt.push it.type it.bytes) :=
      gtpcAppendItem_eq_some.mpr ⟨by omega, hwf.length_eq ▸ hfit, rfl⟩
    have hmod : (pkt.offset + it.bytes.length) % 65536 = (pkt.push it.type it.bytes).offset := by
      rw [hoff]
      unfold etherMaxLen at hfit
      omega
    rw [parseItems_val (by omega) (size_pushed hwf hfit hrest past),
      type_pushed hwf hfit hrest past, block_pushed hwf hfit hrest past, happ]
    simp only [hmod]
    rw [if_neg (by omega)]
    cases rest with
    | nil =>
      obtain rfl : pkt.push it.type it.bytes = pkt' := some.inj hrest
      rw [if_pos rfl]
    | cons it2 rest2 =>
      have hshort := offset_lt_of_appendItems hwf1 hrest (by simp)
      rw [if_neg (by omega)]
      exact parseItems_append past hwf1 hrest (by simp) (by simpa using hn)

theorem gtpcValidateHeader_val (payload : Source) :
    (gtpcValidateHeader payload).val =
      (decide (4 ≤ be16 (payload.byte 2) (payload.byte 3)) &&
        !(decide (flagsVersion (payload.byte 0) = 2) && decide (flagsPiggy (payload.byte 0) ≠ 0)) &&
        (decide (flagsVersion (payload.byte 0) = 1) || gtpcTypeIssupported (payload.byte 1))) := by
  have hlen : gtpcTypeHeaderlen (payload.byte 1) ≤ 12 := by
    rcases gtpcTypeHeaderlen_cases (payload.byte 1) with h | h <;> omega
  simp only [gtpcValidateHeader]
  by_cases h4 : be16 (payload.byte 2) (payload.byte 3) < 4
  · simp [h4]
  · by_cases hp : flagsVersion (payload.byte 0) = 2 ∧ flagsPiggy (payload.byte 0) ≠ 0
    · simp [hp]
    · by_cases h1 : flagsVersion (payload.byte 0) = 1
      · simp [h1, Nat.not_lt.mp h4]
      · cases hs : gtpcTypeIssupported (payload.byte 1) <;> simp_all

theorem gtpcAllocPacket_flags (type : UInt8) :
    flagsVersion ((gtpcAllocPacket type).packet.getD 0 0) = 2 ∧
      flagsPiggy ((gtpcAllocPacket type).packet.getD 0 0) = 0 := by
  simp only [gtpcAllocPacket, cons_append, getD_cons_zero]
  split <;> exact ⟨by decide, by decide⟩

theorem parse_appendItems {type : UInt8} (htype : gtpcTypeIssupported type = true)
    (hcount : items.length ≤ gtpcCapabilityItemCount) {pkt : GtpPacket}
    (hbuild : appendItems (gtpcAllocPacket type) items = some pkt) (past : Nat → UInt8) :
    (gtpcAllocPacketFromPayload (pkt.payload past) pkt.offset).val = some pkt := by
  have hwf0 := gtpcAllocPacket_wf type
  have h8 := hwf0.offset_ge
  obtain ⟨hwf, hle, hkeep⟩ := gtpcAppendItems_keeps hwf0 hbuild
  -- the header of the built packet, as the parser sees it
  have hb0 : (pkt.payload past).byte 0 = (gtpcAllocPacket type).packet.getD 0 0 := by
    rw [GtpPacket.byte_payload hwf (by omega), hkeep 0 (by omega) (by omega)]
  have hb1 : (pkt.payload past).byte 1 = type := by
    rw [GtpPacket.byte_payload hwf (by omega), hkeep 1 (by omega) (by omega), gtpcAllocPacket_type]
  have hlenField : be16 ((pkt.payload past).byte 2) ((pkt.payload past).byte 3) + 4 =
      pkt.offset := by
    rw [GtpPacket.byte_payload hwf (by omega), GtpPacket.byte_payload hwf (by omega)]
    exact hwf.header
  have hvalid : (gtpcValidateHeader (pkt.payload past)).val = true := by
    rw [gtpcValidateHeader_val, hb0, hb1, htype]
    obtain ⟨hv, hp⟩ := gtpcAllocPacket_flags type
    simp only [hp]
    simp
    omega
  simp only [gtpcAllocPacketFromPayload, val_bind, val_ite, val_pure, hvalid, hb1, hlenField]
  rw [if_neg (by omega), if_neg (by simp), if_neg (by omega), ← gtpcAllocPacket_offset,
    if_neg (by omega)]
  cases items with
  | nil =>
    obtain rfl : gtpcAllocPacket type = pkt := some.inj hbuild
    rw [if_pos rfl]
  | cons it rest =>
    have hmore : (gtpcAllocPacket type).offset < pkt.offset := by
      obtain ⟨hfit, hrest⟩ := appendItems_cons.mp hbuild
      have hpos := it.four_le
      have := (gtpcAppendItems_keeps (GtpPacket.push_wf hwf0 (by omega) hfit) hrest).2.1
      rw [GtpPacket.push_offset hfit] at this
      omega
    rw [if_neg (by omega)]
    exact parseItems_append past hwf0 hbuild (by simp) hcount

/-- **Round trip.** If the appends all succeed, parsing the first `offset` bytes returns the
packet that was built. -/
theorem parse_build (type : UInt8) (htype : gtpcTypeIssupported type = true)
    (items : List WireItem) (hcount : items.length ≤ gtpcCapabilityItemCount) (pkt : GtpPacket)
    (hbuild : appendItems (gtpcAllocPacket type) items = some pkt) (past : Nat → UInt8) :
    (gtpcAllocPacketFromPayload (pkt.payload past) pkt.offset).val = some pkt ∧
      pkt.count = items.length ∧
      pkt.items.map (fun it => (it.type, pkt.itemBytes it)) =
        items.map (fun it => (it.type, it.bytes)) := by
  have hwf0 := gtpcAllocPacket_wf type
  have hqueue := appendItems_queue hwf0 hbuild
  have hlen : pkt.items.length = items.length := by
    simpa using congrArg length hqueue
  exact ⟨parse_appendItems htype hcount hbuild past,
    by rw [(gtpcAppendItems_keeps hwf0 hbuild).1.count_eq, hlen], hqueue⟩

def recoveryItem : WireItem where
  type := 3
  bytes := [3, 0, 1, 0, 7]
  four_le := by decide
  type_eq := by decide
  length_eq := by decide

def ebiItem : WireItem where
  type := 73
  bytes := [73, 0, 1, 0, 5]
  four_le := by decide
  type_eq := by decide
  length_eq := by decide

theorem parse_build_echo :
    ∃ pkt, appendItems (gtpcAllocPacket gtpcEchoReq) [recoveryItem, ebiItem, ebiItem] = some pkt ∧
      (gtpcAllocPacketFromPayload (pkt.payload fun _ => 0) pkt.offset).val = some pkt := by
  have hbuild : appendItems (gtpcAllocPacket gtpcEchoReq) [recoveryItem, ebiItem, ebiItem] =
      some ((((gtpcAllocPacket gtpcEchoReq).push recoveryItem.type recoveryItem.bytes).push
        ebiItem.type ebiItem.bytes).push ebiItem.type ebiItem.bytes) :=
    appendItems_cons.mpr ⟨by decide, appendItems_cons.mpr ⟨by decide,
      appendItems_cons.mpr ⟨by decide, rfl⟩⟩⟩
  exact ⟨_, hbuild, (parse_build gtpcEchoReq (by decide) _ (by decide) _ hbuild _).1⟩

/-! ## 3. The grammar -/

def itemSize (payload : Source) (offset : Nat) : Nat :=
  be16 (payload.byte (offset + 1)) (payload.byte (offset + 2)) + 4

/-- At most `n` items that fit the buffer tile the payload from `offset` to `len`. -/
def Tiled (payload : Source) (len : Nat) : Nat → Nat → Prop
  | 0, offset => offset = len
  | n + 1, offset =>
    offset = len ∨
      (offset + itemSize payload offset ≤ len ∧
        offset + itemSize payload offset < etherMaxLen ∧
        Tiled payload len n (offset + itemSize payload offset))

def HeaderOk (payload : Source) (len : Nat) : Prop :=
  (gtpcValidateHeader payload).val = true ∧ be16 (payload.byte 2) (payload.byte 3) + 4 = len ∧
    gtpcTypeHeaderlen (payload.byte 1) ≤ len

/-- **The language the parser is meant to accept.** -/
def InGrammar (payload : Source) (len : Nat) : Prop :=
  HeaderOk payload len ∧
    Tiled payload len gtpcCapabilityItemCount (gtpcTypeHeaderlen (payload.byte 1))

/-- The parser reads inside the payload and accepts exactly the grammar. -/
def ParsesExactly (payload : Source) (len : Nat) : Prop :=
  (gtpcAllocPacketFromPayload payload len).Within len ∧
    ((gtpcAllocPacketFromPayload payload len).val.isSome = true ↔ InGrammar payload len)

/-! ## 4. The payloads on which the walk is careful

The walk steps by the announced size MODULO 2^16. A step that `wrapped` goes on inside the payload,
but no tiling contains it. -/

/-- The walk from `offset` never leaves the payload, and if it ends at `len` no step was wrapped. -/
def Careful (payload : Source) (len : Nat) : Nat → Nat → Bool → Prop
  | 0, _, _ => True
  | n + 1, offset, wrapped =>
    let hlen := itemSize payload offset % 65536
    let wrapped' := wrapped || decide (65536 ≤ itemSize payload offset)
    offset + 3 ≤ len ∧
      (hlen = 0 ∨ etherMaxLen ≤ offset + hlen ∨
        offset + hlen = len ∧ wrapped' = false ∨
        offset + hlen < len ∧ Careful payload len n (offset + hlen) wrapped')

/-- Empty, or long enough to hold the length field and, if its header is accepted, carefully
walked. -/
def CarefulPayload (payload : Source) (len : Nat) : Prop :=
  len = 0 ∨ 4 ≤ len ∧
    (HeaderOk payload len → gtpcTypeHeaderlen (payload.byte 1) < len →
      Careful payload len gtpcCapabilityItemCount (gtpcTypeHeaderlen (payload.byte 1)) false)

theorem four_le_itemSize (payload : Source) (offset : Nat) : 4 ≤ itemSize payload offset := by
  unfold itemSize
  omega

/-! ## 5. The accepted language -/

section

variable {payload : Source} {len n offset : Nat} {pkt : GtpPacket}

theorem parseItems_refused (hlt : offset < len) (hwf : pkt.Wf) (hpos : pkt.offset = offset)
    (h : itemSize payload offset % 65536 = 0 ∨
      etherMaxLen ≤ offset + itemSize payload offset % 65536) :
    (parseItems payload len (n + 1) offset pkt).val = none ∧
      ((parseItems payload len (n + 1) offset pkt).Within len ↔ offset + 3 ≤ len) := by
  have happ : gtpcAppendItem pkt (payload.byte offset)
      (payload.block offset (itemSize payload offset % 65536)) = none := by
    rw [gtpcAppendItem_eq_none, length_block, hwf.length_eq, hpos]
    exact h
  constructor
  · rw [parseItems_val hlt rfl, ← itemSize, happ]
  · simp only [parseItems, if_pos hlt, within_bind, within_read]
    rw [← itemSize, happ]
    simp only [within_pure, and_true]
    omega

theorem parseItems_taken (hlt : offset < len) (hwf : pkt.Wf) (hpos : pkt.offset = offset)
    (h0 : 0 < itemSize payload offset % 65536)
    (hfit : offset + itemSize payload offset % 65536 < etherMaxLen) :
    ∃ pkt', pkt'.Wf ∧ pkt'.offset = offset + itemSize payload offset % 65536 ∧
      (parseItems payload len (n + 1) offset pkt).val =
        (if offset + itemSize payload offset % 65536 > len then none
        else if offset + itemSize payload offset % 65536 = len then some pkt'
        else (parseItems payload len n (offset + itemSize payload offset % 65536) pkt').val) ∧
      ((parseItems payload len (n + 1) offset pkt).Within len ↔
        offset + 3 ≤ len ∧ offset + itemSize payload offset % 65536 ≤ len ∧
        (offset + itemSize payload offset % 65536 < len →
          (parseItems payload len n (offset + itemSize payload offset % 65536) pkt').Within
            len)) := by
  have happ : gtpcAppendItem pkt (payload.byte offset)
      (payload.block offset (itemSize payload offset % 65536)) =
      some (pkt.push (payload.byte offset)
        (payload.block offset (itemSize payload offset % 65536))) := by
    rw [gtpcAppendItem_eq_some, length_block, hwf.length_eq, hpos]
    exact ⟨h0, hfit, rfl⟩
  have hfit' : pkt.offset + (payload.block offset (itemSize payload offset % 65536)).length <
      etherMaxLen := by
    rw [length_block, hpos]
    exact hfit
  -- the cursor stays below the buffer size, so its 16-bit sum does not wrap
  have hmod : (offset + itemSize payload offset % 65536) % 65536 =
      offset + itemSize payload offset % 65536 := by
    unfold etherMaxLen at hfit
    omega
  refine ⟨_, gtpcAppendItem_wf hwf happ, ?_, ?_, ?_⟩
  · rw [GtpPacket.push_offset hfit', length_block, hpos]
  · rw [parseItems_val hlt rfl, ← itemSize, happ]
    simp only [hmod]
  · rw [← hmod]
    generalize hg : itemSize payload offset % 65536 = hlen at *
    simp only [parseItems, if_pos hlt, within_bind, within_read]
    rw [← itemSize, hg, happ]
    simp only [within_bind, within_readBlock, hmod]
    split
    · simp only [within_pure, and_true]
      constructor
      · omega
      · rintro ⟨h1, h2, -⟩
        omega
    · split
      · simp only [within_pure, and_true]
        constructor
        · rintro ⟨h2, h3, h1, h4⟩
          exact ⟨by omega, by omega, fun h => absurd h (by omega)⟩
        · rintro ⟨h1, h2, -⟩
          omega
      · constructor
        · rintro ⟨h2, h3, h1, h4, h5⟩
          exact ⟨by omega, by omega, fun _ => h5⟩
        · rintro ⟨h1, h2, h3⟩
          exact ⟨by omega, by omega, by omega, by omega, h3 (by omega)⟩

end

theorem tiled_end (payload : Source) (len n : Nat) : Tiled payload len n len := by
  cases n with
  | zero => rfl
  | succ n => exact Or.inl rfl

variable {payload : Source}

theorem tiled_succ {len n offset : Nat} (hlt : offset < len) :
    Tiled payload len (n + 1) offset ↔
      itemSize payload offset < 65536 ∧ offset + itemSize payload offset % 65536 ≤ len ∧
        offset + itemSize payload offset % 65536 < etherMaxLen ∧
        Tiled payload len n (offset + itemSize payload offset % 65536) := by
  have hmax : etherMaxLen < 65536 := by decide
  simp only [Tiled]
  constructor
  · rintro (h | ⟨h1, h2, h3⟩)
    · omega
    · have hmod : itemSize payload offset % 65536 = itemSize payload offset :=
        Nat.mod_eq_of_lt (by omega)
      rw [hmod]
      exact ⟨by omega, h1, h2, h3⟩
  · rintro ⟨h0, h1, h2, h3⟩
    rw [Nat.mod_eq_of_lt h0] at h1 h2 h3
    exact Or.inr ⟨h1, h2, h3⟩

theorem careful_inside {len n offset hlen : Nat} {wrapped : Bool}
    (h0 : 0 < hlen) (hfit : offset + hlen < etherMaxLen) (hin : offset + hlen < len) :
    (hlen = 0 ∨ etherMaxLen ≤ offset + hlen ∨ offset + hlen = len ∧ wrapped = false ∨
      offset + hlen < len ∧ Careful payload len n (offset + hlen) wrapped) ↔
      Careful payload len n (offset + hlen) wrapped := by
  constructor
  · rintro (h | h | ⟨h, -⟩ | ⟨-, h⟩)
    · omega
    · omega
    · omega
    · exact h
  · intro h
    exact Or.inr (Or.inr (Or.inr ⟨hin, h⟩))

variable {len : Nat}

/-- The item loop, read bound and accepted language together. Induction on the count left;
after a `wrapped` step the payload is outside the grammar whatever follows. -/
theorem parseItems_exact_iff (payload : Source) :
    ∀ {n offset : Nat} {pkt : GtpPacket} (wrapped : Bool), offset < len → pkt.Wf →
    pkt.offset = offset →
    (((parseItems payload len n offset pkt).Within len ∧
      ((parseItems payload len n offset pkt).val.isSome = true ↔
        wrapped = false ∧ Tiled payload len n offset)) ↔
      Careful payload len n offset wrapped)
  | 0, offset, pkt, wrapped, hlt, _, _ => by
    simp only [parseItems, within_pure, val_pure, Tiled, Careful, isSome_none]
    simp
    omega
  | n + 1, offset, pkt, wrapped, hlt, hwf, hpos => by
    rw [tiled_succ hlt]
    simp only [Careful]
    by_cases hrefuse : itemSize payload offset % 65536 = 0 ∨
        etherMaxLen ≤ offset + itemSize payload offset % 65536
    · obtain ⟨hval, hwithin⟩ := parseItems_refused (n := n) hlt hwf hpos hrefuse
      have h4 := four_le_itemSize payload offset
      rw [hval, hwithin]
      have hnot : ¬ (wrapped = false ∧ itemSize payload offset < 65536 ∧
          offset + itemSize payload offset % 65536 ≤ len ∧
          offset + itemSize payload offset % 65536 < etherMaxLen ∧
          Tiled payload len n (offset + itemSize payload offset % 65536)) := by
        rintro ⟨-, h1, -, h2, -⟩
        omega
      simp only [isSome_none, Bool.false_eq_true, hnot, iff_self, and_true]
      exact ⟨fun h => ⟨h, hrefuse.imp id Or.inl⟩, fun h => h.1⟩
    · have h0 : 0 < itemSize payload offset % 65536 := by omega
      have hfit : offset + itemSize payload offset % 65536 < etherMaxLen := by omega
      obtain ⟨pkt', hwf', hpos', hval, hwithin⟩ := parseItems_taken (n := n) hlt hwf hpos h0 hfit
      rw [hwithin]
      rcases Nat.lt_trichotomy (offset + itemSize payload offset % 65536) len with hin | hend | hout
      · -- inside: one turn further, with the wrap remembered
        have ih := parseItems_exact_iff payload (n := n)
          (wrapped || decide (65536 ≤ itemSize payload offset)) hin hwf' hpos'
        rw [hval, if_neg (by omega), if_neg (by omega)]
        rw [careful_inside h0 hfit hin, ← ih]
        simp only [Bool.or_eq_false_iff, decide_eq_false_iff_not, Nat.not_le]
        have hle : offset + itemSize payload offset % 65536 ≤ len := by omega
        simp only [hin, hle, hfit, true_and, forall_const, and_assoc]
      · -- exactly at the end: accepted
        rw [hval, if_neg (by omega), if_pos hend]
        have htiled := tiled_end payload len n
        simp only [hend, lt_irrefl, false_and, or_false, Nat.le_refl, true_and, isSome_some,
          htiled, and_true, IsEmpty.forall_iff, true_iff, Bool.or_eq_false_iff,
          decide_eq_false_iff_not, Nat.not_le]
        rw [hend] at hfit
        constructor
        · rintro ⟨h1, h2, h3, -⟩
          exact ⟨h1, Or.inr (Or.inr ⟨h2, h3⟩)⟩
        · rintro ⟨h1, h | h | ⟨h2, h3⟩⟩
          · omega
          · omega
          · exact ⟨h1, h2, h3, hfit⟩
      · -- past the end: the copy has already read there
        constructor
        · rintro ⟨⟨-, h, -⟩, -⟩
          omega
        · rintro ⟨-, h | h | h | h⟩ <;> omega

theorem gtpcValidateHeader_within (payload : Source) (h : 4 ≤ len) :
    (gtpcValidateHeader payload).Within len := by
  unfold gtpcValidateHeader
  simp only [within_bind, within_read]
  refine ⟨by omega, by omega, ?_⟩
  split
  · exact within_pure _ _
  · simp only [within_bind, within_read]
    refine ⟨by omega, ?_⟩
    split
    · exact within_pure _ _
    · split
      · exact within_pure _ _
      · simp only [within_bind, within_read]
        refine ⟨by omega, ?_⟩
        split <;> exact within_pure _ _

theorem not_within_of_short (payload : Source) (h0 : len ≠ 0) (h4 : len < 4) :
    ¬ (gtpcAllocPacketFromPayload payload len).Within len := by
  unfold gtpcAllocPacketFromPayload gtpcValidateHeader
  simp only [if_neg h0, within_bind, within_read]
  rintro ⟨⟨-, h3, -⟩, -⟩
  omega

theorem parse_of_not_headerOk (h4 : 4 ≤ len) (h : ¬ HeaderOk payload len) :
    (gtpcAllocPacketFromPayload payload len).Within len ∧
      (gtpcAllocPacketFromPayload payload len).val = none := by
  have hv := gtpcValidateHeader_within payload h4
  unfold gtpcAllocPacketFromPayload
  rw [if_neg (by omega)]
  simp only [within_bind, val_bind]
  by_cases hvalid : (gtpcValidateHeader payload).val = true
  · simp only [hvalid, not_true, if_false, within_bind, within_read, val_bind]
    by_cases hlen : be16 (payload.byte 2) (payload.byte 3) + 4 = len
    · have hbig : gtpcTypeHeaderlen (payload.byte 1) > len := by
        by_contra hle
        exact h ⟨hvalid, hlen, by omega⟩
      simp only [hlen, ne_eq, not_true, if_false, within_bind, within_read, val_bind, if_pos hbig]
      exact ⟨⟨hv, by omega, by omega, by omega, within_pure _ _⟩, rfl⟩
    · simp only [ne_eq, hlen, not_false_eq_true, if_true]
      exact ⟨⟨hv, by omega, by omega, within_pure _ _⟩, rfl⟩
  · simp only [hvalid, Bool.false_eq_true, not_false_eq_true, if_true]
    exact ⟨⟨hv, within_pure _ _⟩, rfl⟩

theorem parse_of_headerOk (h : HeaderOk payload len) :
    ((gtpcAllocPacketFromPayload payload len).Within len ↔
      gtpcTypeHeaderlen (payload.byte 1) = len ∨
        (parseItems payload len gtpcCapabilityItemCount (gtpcTypeHeaderlen (payload.byte 1))
          (gtpcAllocPacket (payload.byte 1))).Within len) ∧
    (gtpcAllocPacketFromPayload payload len).val =
      if gtpcTypeHeaderlen (payload.byte 1) = len then some (gtpcAllocPacket (payload.byte 1))
      else (parseItems payload len gtpcCapabilityItemCount
        (gtpcTypeHeaderlen (payload.byte 1)) (gtpcAllocPacket (payload.byte 1))).val := by
  obtain ⟨hvalid, hlen, hhead⟩ := h
  have h4 : 4 ≤ len := by omega
  have hv := gtpcValidateHeader_within payload h4
  unfold gtpcAllocPacketFromPayload
  rw [if_neg (by omega)]
  simp only [within_bind, val_bind, hvalid, not_true, if_false, within_read,
    hlen, ne_eq, if_neg (Nat.not_lt.mpr hhead), val_ite, val_pure]
  refine ⟨?_, trivial⟩
  split
  · rename_i heq
    simp only [heq, within_pure, true_or, iff_true]
    exact ⟨hv, by omega, by omega, by omega, trivial⟩
  · rename_i hne
    simp only [hne, false_or]
    exact ⟨fun hw => hw.2.2.2.2, fun hw => ⟨hv, by omega, by omega, by omega, hw⟩⟩

/-- **The accepted language and the read bound of the parser**: it reads inside the buffer and
accepts exactly the grammar if and only if the buffer is `CarefulPayload`. -/
theorem parsesExactly_iff (payload : Source) (len : Nat) :
    ParsesExactly payload len ↔ CarefulPayload payload len := by
  unfold ParsesExactly CarefulPayload
  by_cases h0 : len = 0
  · subst h0
    simp [gtpcAllocPacketFromPayload, InGrammar, HeaderOk]
  · simp only [h0, false_or]
    by_cases h4 : 4 ≤ len
    · simp only [h4, true_and]
      by_cases hok : HeaderOk payload len
      · obtain ⟨hwithin, hval⟩ := parse_of_headerOk hok
        simp only [hok, true_imp_iff, InGrammar, true_and]
        rw [hwithin, hval]
        by_cases hend : gtpcTypeHeaderlen (payload.byte 1) = len
        · have htiled := tiled_end payload len gtpcCapabilityItemCount
          simp [hend, htiled]
        · have hlt : gtpcTypeHeaderlen (payload.byte 1) < len := lt_of_le_of_ne hok.2.2 hend
          have hloop := parseItems_exact_iff payload (n := gtpcCapabilityItemCount) false hlt
            (gtpcAllocPacket_wf _) (gtpcAllocPacket_offset (payload.byte 1))
          simp only [true_and] at hloop
          simp only [hend, false_or, if_false, hlt, true_imp_iff]
          exact hloop
      · obtain ⟨hwithin, hval⟩ := parse_of_not_headerOk h4 hok
        rw [hval]
        simp [hwithin, hok, InGrammar]
    · simp only [h4, false_and, iff_false]
      exact fun h => not_within_of_short payload h0 (by omega) h.1

def truncatedItem : Source where
  bytes := [0x48, 32, 0, 12, 0, 0, 0, 1, 0, 0, 1, 0, 1, 0, 10, 0]
  past := fun _ => 0

/-- **The item is copied before its end is checked.** -/
theorem truncatedItem_not_exact : ¬ ParsesExactly truncatedItem 16 := by
  intro h
  have := h.1 16 (by decide)
  omega

def wholeItem : Source where
  bytes := [0x48, 32, 0, 13, 0, 0, 0, 1, 0, 0, 1, 0, 3, 0, 1, 0, 7]
  past := fun _ => 0

theorem wholeItem_exact : CarefulPayload wholeItem 17 ∧ ParsesExactly wholeItem 17 := by
  have h : CarefulPayload wholeItem 17 := by
    refine Or.inr ⟨by decide, fun _ _ => ⟨by decide, Or.inr (Or.inr (Or.inl ?_))⟩⟩
    exact ⟨by decide, by decide⟩
  exact ⟨h, (parsesExactly_iff wholeItem 17).mpr h⟩

end MixiPgw.Ctrl
