/-
# The two GTPv2-C codecs together

The simulators of the tools write messages with `GtpcPkt::ref`, the control plane reads them with
`gtpc_alloc_packet_from_payload`, and the tools read the answers with `GtpcPkt::attach`. The two
sides compute header sizes and lengths independently: the length field of an echo message is four
short, which the tools do not look at and the control plane refuses. `interoperate_iff` says when
both find the items again.
-/
import MixiPgw.Ctrl.Parser
import MixiPgw.Tools.GtpcCodec

namespace MixiPgw.Tools.Gtpc

open Bytes Ctrl List CodecItem Traced

/-! ## 1. The control plane -/

/-- An item of the codec as the control plane's builder takes it. -/
def CodecItem.wire (it : CodecItem) (hmax : it.bytes.length ≤ 1518) : WireItem where
  type := it.type
  bytes := it.bytes
  four_le := by rw [it.length_bytes]; omega
  type_eq := (header_bytes hmax fun _ _ => rfl).1
  length_eq := (header_bytes hmax fun _ _ => rfl).2.2

theorem exists_wires : ∀ items : List CodecItem, (bytesAll items).length ≤ 1518 →
    ∃ wires : List WireItem, wires.map (fun w => (w.type, w.bytes)) =
      items.map fun it => (it.type, it.bytes)
  | [], _ => ⟨[], rfl⟩
  | it :: rest, hmax => by
    rw [bytesAll, length_append] at hmax
    obtain ⟨wires, hwires⟩ := exists_wires rest (by omega)
    exact ⟨it.wire (by omega) :: wires, by rw [map_cons, map_cons, hwires]; rfl⟩

def wireBytes (wires : List WireItem) : List UInt8 := (wires.map WireItem.bytes).flatten

theorem wireBytes_cons (it : WireItem) (rest : List WireItem) :
    wireBytes (it :: rest) = it.bytes ++ wireBytes rest := rfl

variable {wires : List WireItem} {items : List CodecItem}

theorem wireBytes_eq
    (h : wires.map (fun w => (w.type, w.bytes)) = items.map fun it => (it.type, it.bytes)) :
    wireBytes wires = bytesAll items := by
  have hmap := congrArg (map Prod.snd) h
  rw [map_map, map_map] at hmap
  rw [bytesAll_eq]
  exact congrArg flatten hmap

theorem wireBytes_pos (hne : wires ≠ []) : 0 < (wireBytes wires).length := by
  cases wires with
  | nil => exact absurd rfl hne
  | cons it rest =>
    have h4 := it.four_le
    rw [wireBytes_cons, length_append]
    omega

theorem parseItems_wires {payload : Source} {len : Nat} (hlen : len < 65536) :
    ∀ (wires : List WireItem) {n offset : Nat} {pkt : GtpPacket}, wires ≠ [] →
      payload.bytes.drop offset = wireBytes wires → len = offset + (wireBytes wires).length →
      wires.length ≤ n →
      (parseItems payload len n offset pkt).val = appendItems pkt wires
  | [], _, _, _, hne, _, _, _ => absurd rfl hne
  | it :: rest, 0, _, _, _, _, _, hn => absurd hn (by simp)
  | it :: rest, n + 1, offset, pkt, _, hbytes, hend, hn => by
    have h4 := it.four_le
    rw [wireBytes_cons] at hbytes
    rw [wireBytes_cons, length_append] at hend
    have hbyte (j : Nat) (hj : j < it.bytes.length) :
        payload.byte (offset + j) = it.bytes.getD j 0 := Source.byte_of_drop hbytes hj
    have htype : payload.byte offset = it.type := by
      have h0 := hbyte 0 (by omega)
      rwa [Nat.add_zero, it.type_eq] at h0
    have hsize : it.bytes.length =
        (be16 (payload.byte (offset + 1)) (payload.byte (offset + 2)) + 4) % 65536 := by
      rw [hbyte 1 (by omega), hbyte 2 (by omega), it.length_eq]
      omega
    have hmod : (offset + it.bytes.length) % 65536 = offset + it.bytes.length := by omega
    rw [parseItems_val (by omega) hsize, htype, Source.block_of_drop hbytes, appendItems,
      map_cons, gtpcAppendItems]
    cases happ : gtpcAppendItem pkt it.type it.bytes with
    | none => rfl
    | some pkt' =>
      simp only [hmod]
      rw [if_neg (by omega)]
      by_cases hlast : rest = []
      · subst hlast
        rw [if_pos (by simp only [wireBytes, map_nil, flatten_nil, length_nil] at hend
                       omega)]
        rfl
      · have hpos := wireBytes_pos hlast
        rw [if_neg (by omega)]
        refine parseItems_wires hlen rest hlast ?_ (by omega) (by simpa using hn)
        rw [← drop_drop, hbytes, drop_left]

theorem appendItems_isSome_iff : ∀ (wires : List WireItem) {pkt : GtpPacket}, pkt.Wf →
    ((∃ pkt', appendItems pkt wires = some pkt') ↔
      pkt.offset + (wireBytes wires).length < Ctrl.etherMaxLen)
  | [], pkt, hwf => by
    have hlt := hwf.offset_lt
    simp only [appendItems, map_nil, gtpcAppendItems, Option.some.injEq, exists_eq', true_iff]
    exact hlt
  | it :: rest, pkt, hwf => by
    have h4 := it.four_le
    simp only [appendItems_cons, exists_and_left, wireBytes_cons, length_append, hwf.length_eq]
    by_cases hfit : pkt.offset + it.bytes.length < Ctrl.etherMaxLen
    · have hwf' : (pkt.push it.type it.bytes).Wf := GtpPacket.push_wf hwf (by omega) hfit
      rw [appendItems_isSome_iff rest hwf', GtpPacket.push_offset hfit]
      omega
    · constructor
      · rintro ⟨h, -⟩
        exact absurd h hfit
      · intro h
        omega

/-! ## 2. The tools -/

/-- The loop of `GtpcPkt::attach` hands every item to its class; those that are refused are
missing. -/
theorem attachLoop_items (junk : Nat → UInt8) {fuel len : Nat} {src : Nat → UInt8} :
    ∀ (its : List CodecItem) {n offset : Nat} {pinst : GtpcPkt}, its ≠ [] →
      (∀ i < (bytesAll its).length, src (offset + i) = (bytesAll its).getD i 0) →
      len = offset + (bytesAll its).length →
      (bytesAll its).length ≤ etherMaxLen → (bytesAll its).length ≤ fuel →
      its.length ≤ n → pinst.Room (bytesAll its).length →
      (attachLoop junk fuel src len n offset pinst).map GtpcPkt.items =
        some (pinst.items ++ its.filterMap (reread junk))
  | [], _, _, _, hne, _, _, _, _, _, _ => absurd rfl hne
  | it :: rest, 0, _, _, _, _, _, _, _, hn, _ => absurd hn (by simp)
  | it :: rest, n + 1, offset, pinst, _, hag, hlen, hmax, hfuel, hn, hroom => by
    have hsize := it.length_bytes
    obtain ⟨hitem, hothers, hhlen⟩ := head_of_tiled hmax hag
    rw [bytesAll, length_append] at hlen hmax hfuel hroom
    have hone : attachImpl junk fuel (fun i => src (offset + i)) it.bytes.length =
        it.reread junk := attachImpl_item junk it hitem (by omega) (by omega)
    have hkeep (item : List UInt8) (hread : item ∈ it.reread junk) :
        item.length = it.bytes.length := reread_length (by omega) hread
    obtain ⟨hitems, hroom'⟩ := GtpcPkt.keep_room hkeep hroom
    have hfilter : (it :: rest).filterMap (reread junk) =
        (it.reread junk).toList ++ rest.filterMap (reread junk) := by
      cases hread : it.reread junk <;> simp [hread]
    rw [attachLoop, if_pos (by omega)]
    simp only [hhlen, hone]
    rw [if_neg (by omega)]
    by_cases hlast : rest = []
    · subst hlast
      rw [if_pos (by simp only [bytesAll, length_nil] at hlen; omega), hfilter]
      simp [hitems]
    · have hpos := four_le_bytesAll hlast
      rw [if_neg (by omega), attachLoop_items junk rest hlast hothers (by omega) (by omega)
        (by omega) (by simpa using hn) hroom', hitems, hfilter, append_assoc]

theorem filterMap_eq_iff (junk : Nat → UInt8) : ∀ its : List CodecItem,
    its.filterMap (reread junk) = its.map bytes ↔
      ∀ it ∈ its, it.reread junk = some it.bytes
  | [] => by simp
  | it :: rest => by
    have ih := filterMap_eq_iff junk rest
    cases hread : it.reread junk with
    | none =>
      have hshort := length_filterMap_le (reread junk) rest
      rw [filterMap_cons_none hread]
      constructor
      · intro h
        have hlen := congrArg length h
        rw [length_map, length_cons] at hlen
        omega
      · intro h
        rw [h it mem_cons_self] at hread
        exact absurd hread (by simp)
    | some item =>
      rw [filterMap_cons_some hread, map_cons, cons.injEq, ih]
      simp [hread]

/-! ## 3. The message -/

/-- `append` of each item, up to the first `RETERR`. -/
def GtpcPkt.appendAll : GtpcPkt → List (List UInt8) → Option GtpcPkt
  | pkt, [] => some pkt
  | pkt, item :: rest =>
    if (pkt.append item).2 then (pkt.append item).1.appendAll rest else none

def message (type : UInt8) (items : List CodecItem) : Option GtpcPkt :=
  (GtpcPkt.new type).appendAll (items.map bytes)

/-- The control plane accepts the bytes of the message, with the types, lengths and bytes of the
items in order. -/
def ControlAccepts (pkt : GtpcPkt) (items : List CodecItem) : Prop :=
  ∀ past, ∃ gp, (gtpcAllocPacketFromPayload ⟨pkt.ref, past⟩ pkt.len).val = some gp ∧
    gp.items.map (fun it => (it.type, it.length, gp.itemBytes it)) =
      items.map fun it => (it.type, it.bytes.length, it.bytes)

/-- `GtpcPkt::attach` accepts the bytes of the message and finds the items in order, whatever lies in
memory behind the message and behind the structs. -/
def ToolsAccept (pkt : GtpcPkt) (items : List CodecItem) : Prop :=
  ∀ past junk fuel, pkt.len ≤ fuel → ∃ pinst,
    attach junk fuel (Source.byte ⟨pkt.ref, past⟩) pkt.len = some pinst ∧
      pinst.items = items.map bytes

/-- Both sides find the items of a message in its bytes. -/
def Interoperate (type : UInt8) (items : List CodecItem) : Prop :=
  ∃ pkt, message type items = some pkt ∧ ControlAccepts pkt items ∧ ToolsAccept pkt items

theorem GtpcPkt.appendAll_room : ∀ {items : List (List UInt8)} {pkt : GtpcPkt},
    pkt.Room items.flatten.length → ∃ pkt', pkt.appendAll items = some pkt' ∧
      pkt'.items = pkt.items ++ items ∧ pkt'.type = pkt.type
  | [], pkt, _ => ⟨pkt, rfl, (append_nil _).symm, rfl⟩
  | item :: rest, pkt, h => by
    rw [flatten_cons, length_append] at h
    obtain ⟨hitems, htype, hok, hroom⟩ := GtpcPkt.append_room h
    obtain ⟨pkt', happ, hitems', htype'⟩ := GtpcPkt.appendAll_room hroom
    refine ⟨pkt', ?_, ?_, htype'.trans htype⟩
    · rw [GtpcPkt.appendAll, if_pos hok, happ]
    · rw [hitems', hitems, append_assoc]
      rfl

theorem new_room {type : UInt8} {n : Nat} (h : n < 1518) : (GtpcPkt.new type).Room n := by
  have hhead : headerlen type ≤ 12 := by
    unfold headerlen
    split <;> decide
  constructor
  · simp only [GtpcPkt.new]
    omega
  · simp only [GtpcPkt.new, GtpcPkt.len, map_nil, sum_nil]
    omega

theorem sum_len_eq : ∀ {items : List (List UInt8)}, items.flatten.length < 65536 →
    (items.map fun item => item.length % 65536).sum = items.flatten.length
  | [], _ => rfl
  | item :: rest, h => by
    rw [flatten_cons, length_append] at h ⊢
    rw [map_cons, sum_cons, sum_len_eq (by omega)]
    omega

variable {pkt : GtpcPkt}

theorem GtpcPkt.len_eq (h : pkt.items.flatten.length < 65536) :
    pkt.len = headerlen pkt.type + pkt.items.flatten.length := by
  rw [GtpcPkt.len, sum_len_eq h]

theorem message_eq (type : UInt8) (hsize : (bytesAll items).length < 1518) :
    ∃ pkt, message type items = some pkt ∧ pkt.type = type ∧
      pkt.items = items.map bytes ∧
      pkt.len = headerlen type + (bytesAll items).length := by
  rw [bytesAll_eq] at hsize ⊢
  obtain ⟨pkt, happ, hitems, htype⟩ :
      ∃ pkt, message type items = some pkt ∧ pkt.items = [] ++ items.map bytes ∧
        pkt.type = type := GtpcPkt.appendAll_room (new_room hsize)
  rw [nil_append] at hitems
  refine ⟨pkt, happ, htype, hitems, ?_⟩
  rw [GtpcPkt.len_eq (by rw [hitems]; omega), htype, hitems]

/-- The bytes of a message as both readers see them. -/
structure WrittenAs (pkt : GtpcPkt) (type : UInt8) (body : List UInt8) : Prop where
  flags : pkt.ref.getD 0 0 = 0x40 ∨ pkt.ref.getD 0 0 = 0x48
  type_eq : pkt.ref.getD 1 0 = type
  length : be16 (pkt.ref.getD 2 0) (pkt.ref.getD 3 0) =
    if headerlen type = 12 then body.length + 8 else body.length
  size : pkt.ref.length = headerlen type + body.length
  body_eq : pkt.ref.drop (headerlen type) = body

theorem written (hbody : pkt.items.flatten.length < 65000) :
    WrittenAs pkt pkt.type pkt.items.flatten := by
  have hlen : pkt.len = headerlen pkt.type + pkt.items.flatten.length := GtpcPkt.len_eq (by omega)
  have hfield : ∀ n < 65536, be16 ((be16Bytes n).getD 0 0) ((be16Bytes n).getD 1 0) = n :=
    fun n hn => be16_ofNat n hn
  by_cases hecho : pkt.type = gtpcEchoReq ∨ pkt.type = gtpcEchoRes
  · have h8 : headerlen pkt.type = 8 := if_pos hecho
    have href : pkt.ref = [0x40, pkt.type] ++ be16Bytes pkt.items.flatten.length ++
        replicate 4 0 ++ pkt.items.flatten := by
      simp only [GtpcPkt.ref, hlen, h8, if_pos hecho]
      simp
    refine ⟨by rw [href]; exact .inl rfl, by rw [href]; rfl, ?_, ?_, ?_⟩
    · rw [href, h8]
      exact hfield _ (by omega)
    · rw [href]
      simp
      omega
    · rw [href, h8]
      rfl
  · have h12 : headerlen pkt.type = 12 := if_neg hecho
    have href : pkt.ref = [0x48, pkt.type] ++ be16Bytes (pkt.items.flatten.length + 8) ++
        replicate 8 0 ++ pkt.items.flatten := by
      simp only [GtpcPkt.ref, hlen, h12, if_neg hecho, if_true]
      rw [show 12 + pkt.items.flatten.length - 4 = pkt.items.flatten.length + 8 by omega]
    refine ⟨by rw [href]; exact .inr rfl, by rw [href]; rfl, ?_, ?_, ?_⟩
    · rw [href, h12]
      exact hfield _ (by omega)
    · rw [href]
      simp
      omega
    · rw [href, h12]
      rfl

theorem byte_getD {bytes : List UInt8} {past : Nat → UInt8} {i : Nat}
    (h : i < bytes.length) : Source.byte ⟨bytes, past⟩ i = bytes.getD i 0 := by
  simp [Source.byte, h]

variable {gp : GtpPacket}

theorem length_itemBytes (hwf : gp.Wf) {it : GtpItem} (hit : it ∈ gp.items) :
    it.length = (gp.itemBytes it).length := by
  have hin := (hwf.items_in it hit).2
  have hlt := hwf.offset_lt
  rw [GtpPacket.itemBytes, slice, length_take, length_drop, hwf.packet_length]
  omega

theorem queue_lengths (hwf : gp.Wf) (h : gp.items.map (fun it => (it.type, gp.itemBytes it)) =
      items.map fun it => (it.type, it.bytes)) :
    gp.items.map (fun it => (it.type, it.length, gp.itemBytes it)) =
      items.map fun it => (it.type, it.bytes.length, it.bytes) := by
  have hadd := congrArg (map fun p : UInt8 × List UInt8 => (p.1, p.2.length, p.2)) h
  rw [map_map, map_map] at hadd
  rw [map_congr_left fun it hit => by rw [length_itemBytes hwf hit]]
  exact hadd

theorem length_le_bytesAll {it : CodecItem} (hit : it ∈ items) :
    it.bytes.length ≤ (bytesAll items).length := by
  obtain ⟨front, back, rfl⟩ := append_of_mem hit
  simp only [bytesAll_eq, map_append, map_cons, flatten_append, flatten_cons, length_append]
  omega

section

variable {pkt : GtpcPkt} {type : UInt8} {items : List CodecItem}
  (hw : WrittenAs pkt type (bytesAll items))
  (hsize : (bytesAll items).length < 1518)
include hw hsize

theorem control_echo (past : Nat → UInt8) (hecho : headerlen type = 8) :
    (gtpcAllocPacketFromPayload ⟨pkt.ref, past⟩ pkt.ref.length).val = none := by
  have hfield := hw.length
  have hlen := hw.size
  rw [hecho, if_neg (by decide)] at hfield
  have hbyte (i : Nat) (hi : i < 4) : Source.byte ⟨pkt.ref, past⟩ i = pkt.ref.getD i 0 :=
    byte_getD (by omega)
  simp only [gtpcAllocPacketFromPayload, val_bind, val_ite, val_pure,
    hbyte 2 (by decide), hbyte 3 (by decide), hfield]
  rw [if_neg (by omega)]
  split
  · rfl
  · rw [if_pos (by omega)]

theorem control_other (hne : items ≠ []) (past : Nat → UInt8) (hother : headerlen type = 12)
    (hsup : gtpcTypeIssupported type = true) (hcount : items.length ≤ gtpcCapabilityItemCount)
    {wires : List WireItem}
    (hwires : wires.map (fun w => (w.type, w.bytes)) = items.map fun it => (it.type, it.bytes)) :
    (gtpcAllocPacketFromPayload ⟨pkt.ref, past⟩ pkt.ref.length).val =
      appendItems (gtpcAllocPacket type) wires := by
  have hpos := four_le_bytesAll hne
  have hfield := hw.length
  have hlen := hw.size
  have hbody := hw.body_eq
  rw [hother, if_pos rfl] at hfield
  rw [hother] at hlen hbody
  have hbyte (i : Nat) (hi : i < 4) : Source.byte ⟨pkt.ref, past⟩ i = pkt.ref.getD i 0 :=
    byte_getD (by omega)
  have hhead : gtpcTypeHeaderlen type = 12 := hother
  have hvalid : (gtpcValidateHeader ⟨pkt.ref, past⟩).val = true := by
    rw [gtpcValidateHeader_val, hbyte 0 (by decide), hbyte 1 (by decide), hbyte 2 (by decide),
      hbyte 3 (by decide), hfield, hw.type_eq, hsup]
    rcases hw.flags with hf | hf
    · rw [hf]
      simp [flagsVersion, flagsPiggy]
    · rw [hf]
      simp [flagsVersion, flagsPiggy]
  have hwire := wireBytes_eq hwires
  have hwne : wires ≠ [] := by
    rintro rfl
    exact hne (map_eq_nil_iff.mp hwires.symm)
  have hwcount : wires.length ≤ gtpcCapabilityItemCount := by
    have hlens := congrArg length hwires
    rw [length_map, length_map] at hlens
    omega
  simp only [gtpcAllocPacketFromPayload, val_bind, val_ite, val_pure, hvalid,
    hbyte 1 (by decide), hbyte 2 (by decide), hbyte 3 (by decide), hfield, hw.type_eq, hhead]
  rw [if_neg (by omega), if_neg (by simp), if_neg (by omega), if_neg (by omega), if_neg (by omega)]
  exact parseItems_wires (by omega) wires hwne (hbody.trans hwire.symm) (by rw [hwire]; omega)
    hwcount

/-- `GtpcPkt::attach` on a message: the items whose classes give them back. -/
theorem tools_attach (hne : items ≠ []) (past junk : Nat → UInt8) {fuel : Nat}
    (hfuel : pkt.ref.length ≤ fuel) (hsup : issupported type = true) (hcount : items.length ≤ 255) :
    (attach junk fuel (Source.byte ⟨pkt.ref, past⟩) pkt.ref.length).map GtpcPkt.items =
      some (items.filterMap (reread junk)) := by
  have hpos := four_le_bytesAll hne
  have hlen := hw.size
  have hbyte (i : Nat) (hi : i < pkt.ref.length) :
      Source.byte ⟨pkt.ref, past⟩ i = pkt.ref.getD i 0 := byte_getD hi
  have hfield : ¬ be16 (pkt.ref.getD 2 0) (pkt.ref.getD 3 0) < 4 := by
    rw [hw.length]
    split <;> omega
  have hflags : ¬ (flagsVersion (pkt.ref.getD 0 0) ≠ 2 ∨ flagsPiggy (pkt.ref.getD 0 0) ≠ 0) := by
    rcases hw.flags with hf | hf
    · rw [hf]
      decide
    · rw [hf]
      decide
  have hsrc (i : Nat) (hi : i < (bytesAll items).length) :
      Source.byte ⟨pkt.ref, past⟩ (headerlen type + i) = (bytesAll items).getD i 0 := by
    rw [hbyte _ (by omega), ← hw.body_eq, getD_eq_getElem?_getD, getD_eq_getElem?_getD,
      getElem?_drop]
  rw [attach, hbyte 0 (by omega), hbyte 1 (by omega), hbyte 2 (by omega), hbyte 3 (by omega),
    if_neg hfield, if_neg hflags, hw.type_eq, if_neg (by simp [hsup]), if_neg (by omega)]
  exact attachLoop_items junk items hne hsrc hlen (by unfold etherMaxLen; omega) (by omega)
    (by omega) (new_room hsize)

theorem controlAccepts_iff (hne : items ≠ []) (hlen : pkt.len = pkt.ref.length)
    (hsup : gtpcTypeIssupported type = true) (hcount : items.length ≤ 255) :
    ControlAccepts pkt items ↔ (type ≠ gtpcEchoReq ∧ type ≠ gtpcEchoRes) ∧
      headerlen type + (bytesAll items).length < Ctrl.etherMaxLen := by
  obtain ⟨wires, hwires⟩ := exists_wires items (by omega)
  have hwf := gtpcAllocPacket_wf type
  have hroom := appendItems_isSome_iff wires hwf
  rw [wireBytes_eq hwires, gtpcAllocPacket_offset] at hroom
  rw [← not_or]
  constructor
  · intro hacc
    obtain ⟨gp, hgp, -⟩ := hacc fun _ => 0
    rw [hlen] at hgp
    have hother : ¬ (type = gtpcEchoReq ∨ type = gtpcEchoRes) := by
      intro hecho
      rw [control_echo hw hsize _ (if_pos hecho)] at hgp
      exact absurd hgp (by simp)
    rw [control_other hw hsize hne _ (if_neg hother) hsup hcount hwires] at hgp
    exact ⟨hother, hroom.mp ⟨gp, hgp⟩⟩
  · rintro ⟨hother, hfit⟩ past
    obtain ⟨gp, hgp⟩ := hroom.mpr hfit
    have hqueue := appendItems_queue hwf hgp
    rw [gtpcAllocPacket_items, map_nil, nil_append, hwires] at hqueue
    refine ⟨gp, ?_, queue_lengths (gtpcAppendItems_keeps hwf hgp).1 hqueue⟩
    rw [hlen, control_other hw hsize hne past (if_neg hother) hsup hcount hwires, hgp]

theorem toolsAccept_iff (hne : items ≠ []) (hlen : pkt.len = pkt.ref.length)
    (hsup : issupported type = true) (hcount : items.length ≤ 255) :
    ToolsAccept pkt items ↔ ∀ it ∈ items, it.attaches = true := by
  have hfits (it : CodecItem) (hit : it ∈ items) : it.bytes.length ≤ etherMaxLen := by
    have := length_le_bytesAll hit
    unfold etherMaxLen
    omega
  constructor
  · intro hacc it hit
    refine (reread_eq_iff it (hfits it hit)).mp fun junk => ?_
    obtain ⟨pinst, hpinst, hitems⟩ := hacc (fun _ => 0) junk pkt.len (Nat.le_refl _)
    have hall := tools_attach hw hsize hne (fun _ => 0) junk (Nat.le_of_eq hlen.symm) hsup hcount
    rw [← hlen, hpinst] at hall
    have hsame := (Option.some.inj hall).symm.trans hitems
    exact (filterMap_eq_iff junk items).mp hsame it hit
  · intro hatt past junk fuel hfuel
    have hall := tools_attach hw hsize hne past junk (hlen ▸ hfuel) hsup hcount
    obtain ⟨pinst, hpinst, hitems⟩ := Option.map_eq_some_iff.mp hall
    refine ⟨pinst, by rw [hlen, hpinst], hitems.trans ((filterMap_eq_iff junk items).mpr ?_)⟩
    intro it hit
    exact (reread_eq_iff it (hfits it hit)).mpr (hatt it hit) junk

end

/-- **When the two codecs interoperate**: the message is not an echo, it is shorter than the
control plane's buffer, and every item is one its own class takes back. -/
theorem interoperate_iff (type : UInt8) (hcontrol : gtpcTypeIssupported type = true)
    (htools : issupported type = true) (items : List CodecItem) (hne : items ≠ [])
    (hcount : items.length ≤ 255) (hsize : (bytesAll items).length < 1518) :
    Interoperate type items ↔
      (type ≠ gtpcEchoReq ∧ type ≠ gtpcEchoRes) ∧
        headerlen type + (bytesAll items).length < Ctrl.etherMaxLen ∧
        ∀ it ∈ items, it.attaches = true := by
  obtain ⟨pkt, hpkt, htype, hitems, hlen⟩ := message_eq type hsize
  have hflat : pkt.items.flatten = bytesAll items := by
    rw [hitems, bytesAll_eq]
  have hw : WrittenAs pkt type (bytesAll items) := by
    rw [← htype, ← hflat]
    exact written (by rw [hflat]; omega)
  rw [← hw.size] at hlen
  rw [← and_assoc, ← controlAccepts_iff hw hsize hne hlen hcontrol hcount,
    ← toolsAccept_iff hw hsize hne hlen htools hcount]
  constructor
  · rintro ⟨pkt', hpkt', hboth⟩
    obtain rfl := Option.some.inj (hpkt.symm.trans hpkt')
    exact hboth
  · intro hboth
    exact ⟨pkt, hpkt, hboth⟩

/-- A Create Session Request with an IMSI and a bearer context of an EBI and a charging id. -/
theorem interoperate_create_session :
    Interoperate gtpcCreateSessionReq
      [.leaf gtpcTypeImsi 0 [0x44, 0x10, 0x32, 0x54, 0x76, 0x98, 0x10, 0xf2] (by decide),
        .bearer 0 [.leaf gtpcTypeEbi 0 [5] (by decide),
          .leaf gtpcTypeChargingId 0 [0, 0, 0, 1] (by decide)]] :=
  (interoperate_iff gtpcCreateSessionReq (by decide) (by decide) _ (by simp) (by decide)
    (by decide)).mpr ⟨by decide, by decide, by simp; decide⟩

/-- An Echo Request is refused by the control plane. A bearer context with nothing but an EBI is
too short for its class: `attach` returns a packet without it. -/
theorem echo_refused_and_bearer_lost :
    (∃ pkt, message gtpcEchoReq [.leaf gtpcTypeRecovery 0 [7] (by decide)] = some pkt ∧
      pkt.ref = [0x40, 1, 0, 5, 0, 0, 0, 0, 3, 0, 1, 0, 7] ∧
      (gtpcAllocPacketFromPayload ⟨pkt.ref, fun _ => 0⟩ pkt.len).val = none) ∧
    ∃ pkt, message gtpcModifyBearerReq [.bearer 0 [.leaf gtpcTypeEbi 0 [5] (by decide)]] = some pkt ∧
      pkt.ref = [0x48, 34, 0, 17, 0, 0, 0, 0, 0, 0, 0, 0, 93, 0, 5, 0, 73, 0, 1, 0, 5] ∧
      attach (fun _ => 0) 21 (Source.byte ⟨pkt.ref, fun _ => 0⟩) pkt.len =
        some (.new gtpcModifyBearerReq) := by
  refine ⟨⟨_, rfl, ?_, ?_⟩, _, rfl, ?_, ?_⟩
  · decide +kernel
  · decide +kernel
  · decide +kernel
  · decide +kernel

end MixiPgw.Tools.Gtpc
