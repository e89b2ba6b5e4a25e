/-
# Who frees a packet

A packet is one `malloc`, every item of its queue another one, and `gtpc_free_packet` gives back a
packet with its queue. Here the parser and the response builders run with the live packets and
items counted, and with every `malloc` free to fail.

The parser's `malformed` exit, an item that ends behind the payload, returns `ERR` WITHOUT the free
of its other exits (`Overruns`), and no builder frees a response it could not finish: `frees_iff`.
-/
import MixiPgw.Ctrl.Parser
import MixiPgw.Ctrl.Responses

namespace MixiPgw.Ctrl

open Bytes Option Source

/-! ## 1. The heap -/

/-- What has been allocated. `calls` counts the calls of `malloc`; the counters are
`gtp_memory_alloc_count` and `gtp_memory_free_count`, and `items` are the live `gtp_item_t`. -/
structure Heap where
  calls : Nat
  allocCount : Nat
  freeCount : Nat
  items : Int
deriving DecidableEq

namespace Heap

def packets (h : Heap) : Int := h.allocCount - h.freeCount

def Gains (h h' : Heap) (packets items : Int) : Prop :=
  h'.packets = h.packets + packets ∧ h'.items = h.items + items

def SameLive (h h' : Heap) : Prop := h.Gains h' 0 0

instance (h h' : Heap) (p i : Int) : Decidable (h.Gains h' p i) :=
  inferInstanceAs (Decidable (_ ∧ _))

instance (h h' : Heap) : Decidable (h.SameLive h') := inferInstanceAs (Decidable (h.Gains h' 0 0))

theorem Gains.trans {h₁ h₂ h₃ : Heap} {p q i j : Int} (h12 : h₁.Gains h₂ p i)
    (h23 : h₂.Gains h₃ q j) : h₁.Gains h₃ (p + q) (i + j) :=
  ⟨by rw [h23.1, h12.1, Int.add_assoc], by rw [h23.2, h12.2, Int.add_assoc]⟩

theorem Gains.of_eq {h h' : Heap} {p q i j : Int} (hg : h.Gains h' p i) (hp : p = q) (hi : i = j) :
    h.Gains h' q j := hp ▸ hi ▸ hg

/-- `gtpc_free_packet`: the packet and every item of its queue. -/
def freePacket (h : Heap) (pkt : GtpPacket) : Heap :=
  { h with freeCount := h.freeCount + 1, items := h.items - pkt.items.length }

theorem gains_freePacket (h : Heap) (pkt : GtpPacket) :
    h.Gains (h.freePacket pkt) (-1) (-pkt.items.length) := by
  refine ⟨?_, Int.sub_eq_add_neg⟩
  simp only [freePacket, packets]
  omega

end Heap

section

-- `grants k` says whether call `k` of `malloc` gets its memory
variable (grants : Nat → Bool)

def gtpcAllocPacketIn (type : UInt8) (h : Heap) : Heap × Option GtpPacket :=
  if grants h.calls then
    ({ h with calls := h.calls + 1, allocCount := h.allocCount + 1 }, some (gtpcAllocPacket type))
  else ({ h with calls := h.calls + 1 }, none)

/-- `gtpc_append_item`: the size checks come before the `malloc` of the item. -/
def gtpcAppendItemIn (pkt : GtpPacket) (type : UInt8) (data : List UInt8) (h : Heap) :
    Heap × Option GtpPacket :=
  match gtpcAppendItem pkt type data with
  | none => (h, none)
  | some pkt' =>
    if grants h.calls then ({ h with calls := h.calls + 1, items := h.items + 1 }, some pkt')
    else ({ h with calls := h.calls + 1 }, none)

/-- Consecutive `gtpc_append_item` calls; one that fails leaves the packet as it was. -/
def gtpcAppendItemsIn : GtpPacket → List (UInt8 × List UInt8) → Heap → Heap × Option GtpPacket
  | pkt, [], h => (h, some pkt)
  | pkt, (type, data) :: rest, h =>
    match gtpcAppendItemIn grants pkt type data h with
    | (h', none) => (h', none)
    | (h', some pkt') => gtpcAppendItemsIn pkt' rest h'

end

section

variable {grants : Nat → Bool} {pkt pkt' : GtpPacket} {type : UInt8} {data : List UInt8}
  {h h' : Heap}

theorem gtpcAllocPacketIn_some (hcall : grants h.calls = true) :
    ∃ h', gtpcAllocPacketIn grants type h = (h', some (gtpcAllocPacket type)) ∧ h.Gains h' 1 0 := by
  refine ⟨_, if_pos hcall, ?_, (Int.add_zero _).symm⟩
  simp only [Heap.packets]
  omega

theorem gtpcAllocPacketIn_none (hcall : grants h.calls = false) :
    ∃ h', gtpcAllocPacketIn grants type h = (h', none) ∧ h.SameLive h' := by
  refine ⟨_, if_neg (by simp [hcall]), ?_, (Int.add_zero _).symm⟩
  simp only [Heap.packets]
  omega

theorem gtpcAppendItemIn_gains :
    match gtpcAppendItemIn grants pkt type data h with
    | (h', some pkt') => gtpcAppendItem pkt type data = some pkt' ∧ h.Gains h' 0 1
    | (h', none) => h.SameLive h' := by
  unfold gtpcAppendItemIn
  cases happ : gtpcAppendItem pkt type data with
  | none => exact ⟨(Int.add_zero _).symm, (Int.add_zero _).symm⟩
  | some pkt' =>
    cases hcall : grants h.calls with
    | true => exact ⟨rfl, (Int.add_zero _).symm, rfl⟩
    | false => exact ⟨(Int.add_zero _).symm, (Int.add_zero _).symm⟩

theorem items_of_append (happ : gtpcAppendItem pkt type data = some pkt') :
    pkt'.items.length = pkt.items.length + 1 := by
  obtain ⟨-, -, rfl⟩ := gtpcAppendItem_eq_some.mp happ
  simp [GtpPacket.push]

theorem gtpcAppendItemsIn_gains {items : List (UInt8 × List UInt8)} :
    ∀ {pkt : GtpPacket} {h : Heap},
    match gtpcAppendItemsIn grants pkt items h with
    | (h', some pkt') => h.Gains h' 0 (pkt'.items.length - pkt.items.length)
    | (h', none) => h'.packets = h.packets := by
  induction items with
  | nil =>
    intro pkt h
    exact ⟨(Int.add_zero _).symm, by simp⟩
  | cons item rest ih =>
    obtain ⟨type, data⟩ := item
    intro pkt h
    have hone := @gtpcAppendItemIn_gains grants pkt type data h
    rw [gtpcAppendItemsIn]
    cases hin : gtpcAppendItemIn grants pkt type data h with
    | mk h₁ r =>
      rw [hin] at hone
      cases r with
      | none => exact hone.1.trans (Int.add_zero _)
      | some pkt₁ =>
        obtain ⟨happ, hgain⟩ := hone
        have hrest := @ih pkt₁ h₁
        have hlen := items_of_append happ
        dsimp only
        cases hin' : gtpcAppendItemsIn grants pkt₁ rest h₁ with
        | mk h₂ r₂ =>
          rw [hin'] at hrest
          cases r₂ with
          | none => exact hrest.trans (hgain.1.trans (Int.add_zero _))
          | some pkt₂ =>
            exact (hgain.trans hrest).of_eq (by omega) (by omega)

theorem gtpcAppendItemsIn_eq (hall : ∀ k, grants k = true) {items : List (UInt8 × List UInt8)} :
    ∀ {pkt : GtpPacket} {h : Heap},
      (gtpcAppendItemsIn grants pkt items h).2 = gtpcAppendItems pkt items := by
  induction items with
  | nil => exact rfl
  | cons item rest ih =>
    intro pkt h
    simp only [gtpcAppendItemsIn, gtpcAppendItems, gtpcAppendItemIn]
    cases gtpcAppendItem pkt item.1 item.2 with
    | none => rfl
    | some pkt' =>
      simp only [hall, if_true]
      exact ih

end

/-! ## 2. The parser -/

section

variable (grants : Nat → Bool)

/-- The item loop of `gtpc_alloc_packet_from_payload`; the `return(ERR)` inside it leaves the packet
and its items. -/
def parseItemsIn (payload : Source) (len : Nat) :
    Nat → Nat → GtpPacket → Heap → Heap × Option GtpPacket
  | 0, _, pkt, h => (h.freePacket pkt, none)
  | n + 1, offset, pkt, h =>
    if offset < len then
      let hlen := itemSize payload offset % 65536
      match gtpcAppendItemIn grants pkt (payload.byte offset) (payload.block offset hlen) h with
      | (h', none) => (h'.freePacket pkt, none)
      | (h', some pkt') =>
        let offset' := (offset + hlen) % 65536
        if offset' > len then (h', none)
        else if offset' = len then (h', some pkt')
        else parseItemsIn payload len n offset' pkt' h'
    else (h.freePacket pkt, none)

def gtpcAllocPacketFromPayloadIn (payload : Source) (len : Nat) (h : Heap) :
    Heap × Option GtpPacket :=
  if len = 0 then (h, none)
  else if ¬ (gtpcValidateHeader payload).val then (h, none)
  else if be16 (payload.byte 2) (payload.byte 3) + 4 ≠ len then (h, none)
  else
    let type := payload.byte 1
    let offset := gtpcTypeHeaderlen type
    if offset > len then (h, none)
    else
      match gtpcAllocPacketIn grants type h with
      | (h', none) => (h', none)
      | (h', some pkt) =>
        if offset = len then (h', some pkt)
        else parseItemsIn grants payload len gtpcCapabilityItemCount offset pkt h'

end

/-- The walk from `offset` reaches an item that ends behind the payload and that the buffer has room
for. -/
def Overruns (payload : Source) (len : Nat) : Nat → Nat → Prop
  | 0, _ => False
  | n + 1, offset =>
    let hlen := itemSize payload offset % 65536
    0 < hlen ∧ offset + hlen < etherMaxLen ∧
      (len < offset + hlen ∨ offset + hlen < len ∧ Overruns payload len n (offset + hlen))

instance instDecidableOverruns (payload : Source) (len : Nat) :
    ∀ n offset, Decidable (Overruns payload len n offset)
  | 0, _ => inferInstanceAs (Decidable False)
  | n + 1, offset =>
    have := instDecidableOverruns payload len n
      (offset + itemSize payload offset % 65536)
    inferInstanceAs (Decidable (_ ∧ _ ∧ (_ ∨ _ ∧ _)))

/-- An accepted header, and items that run over the end. -/
def OverrunsPayload (payload : Source) (len : Nat) : Prop :=
  HeaderOk payload len ∧ gtpcTypeHeaderlen (payload.byte 1) < len ∧
    Overruns payload len gtpcCapabilityItemCount (gtpcTypeHeaderlen (payload.byte 1))

section

variable {grants : Nat → Bool} {payload : Source} {len : Nat}

theorem walk_append {pkt pkt' : GtpPacket} {offset : Nat} (hwf : pkt.Wf)
    (hpos : pkt.offset = offset) (happ : gtpcAppendItem pkt (payload.byte offset)
      (payload.block offset (itemSize payload offset % 65536)) = some pkt') :
    0 < itemSize payload offset % 65536 ∧ offset + itemSize payload offset % 65536 < etherMaxLen ∧
      (offset + itemSize payload offset % 65536) % 65536 =
        offset + itemSize payload offset % 65536 ∧
      pkt'.Wf ∧ pkt'.offset = offset + itemSize payload offset % 65536 := by
  have hwf' := gtpcAppendItem_wf hwf happ
  obtain ⟨h0, hfit, rfl⟩ := gtpcAppendItem_eq_some.mp happ
  rw [length_block] at h0
  rw [length_block, hwf.length_eq, hpos] at hfit
  have hoffset : pkt.offset + (payload.block offset (itemSize payload offset % 65536)).length <
      etherMaxLen := by rwa [length_block, hpos]
  refine ⟨h0, hfit, Nat.mod_eq_of_lt ?_, hwf', ?_⟩
  · unfold etherMaxLen at hfit
    omega
  · rw [GtpPacket.push_offset hoffset, length_block, hpos]

/-- What a walk leaves on the heap. With `OK` the items it queued; with `ERR` its packet is
gone, except where it overruns. -/
theorem parseItemsIn_gains : ∀ {n offset : Nat} {pkt : GtpPacket} {h : Heap},
    pkt.Wf → pkt.offset = offset → offset < len →
    match parseItemsIn grants payload len n offset pkt h with
    | (h', some pkt') => h.Gains h' 0 (pkt'.items.length - pkt.items.length)
    | (h', none) =>
      h.Gains h' (-1) (-pkt.items.length) ∨ Overruns payload len n offset := by
  intro n
  induction n with
  | zero =>
    intro offset pkt h _ _ _
    exact .inl (h.gains_freePacket pkt)
  | succ n ih =>
    intro offset pkt h hwf hpos hlt
    have hone := @gtpcAppendItemIn_gains grants pkt (payload.byte offset)
      (payload.block offset (itemSize payload offset % 65536)) h
    rw [parseItemsIn, if_pos hlt]
    dsimp only
    cases hin : gtpcAppendItemIn grants pkt (payload.byte offset)
      (payload.block offset (itemSize payload offset % 65536)) h with
    | mk h₁ r =>
      rw [hin] at hone
      cases r with
      | none =>
        left
        simpa using hone.trans (h₁.gains_freePacket pkt)
      | some pkt₁ =>
        obtain ⟨happ, hgain⟩ := hone
        obtain ⟨h0, hfit, hmod, hwf₁, hpos₁⟩ := walk_append hwf hpos happ
        have hlen := items_of_append happ
        dsimp only
        rw [hmod]
        rcases Nat.lt_trichotomy (offset + itemSize payload offset % 65536) len with hl | he | hg
        · have hrest := @ih _ pkt₁ h₁ hwf₁ hpos₁ hl
          rw [if_neg (by omega), if_neg (by omega)]
          cases hin' : parseItemsIn grants payload len n
            (offset + itemSize payload offset % 65536) pkt₁ h₁ with
          | mk h₂ r₂ =>
            rw [hin'] at hrest
            cases r₂ with
            | none =>
              rcases hrest with hfreed | hover
              · exact .inl ((hgain.trans hfreed).of_eq (by omega) (by omega))
              · exact .inr ⟨h0, hfit, .inr ⟨hl, hover⟩⟩
            | some pkt₂ =>
              exact (hgain.trans hrest).of_eq (by omega) (by omega)
        · rw [if_neg (by omega), if_pos he]
          exact hgain.of_eq rfl (by omega)
        · rw [if_pos hg]
          exact .inr ⟨h0, hfit, .inl hg⟩

/-- An overrun leaves the packet, if nothing stops the walk before. -/
theorem parseItemsIn_of_overruns (hall : ∀ k, grants k = true) :
    ∀ {n offset : Nat} {pkt : GtpPacket} {h : Heap}, pkt.Wf → pkt.offset = offset → offset < len →
    Overruns payload len n offset →
    ∃ h', parseItemsIn grants payload len n offset pkt h = (h', none) ∧ h'.packets = h.packets := by
  intro n
  induction n with
  | zero => exact fun _ _ _ hover => hover.elim
  | succ n ih =>
    intro offset pkt h hwf hpos hlt hover
    obtain ⟨h0, hfit, hend⟩ := hover
    have happ : gtpcAppendItem pkt (payload.byte offset)
        (payload.block offset (itemSize payload offset % 65536)) = some _ :=
      gtpcAppendItem_eq_some.mpr ⟨by rwa [length_block],
        by rwa [length_block, hwf.length_eq, hpos], rfl⟩
    obtain ⟨-, -, hmod, hwf₁, hpos₁⟩ := walk_append hwf hpos happ
    rw [parseItemsIn, if_pos hlt]
    dsimp only
    rw [gtpcAppendItemIn, happ]
    dsimp only
    rw [if_pos (hall _), hmod]
    dsimp only
    rcases hend with hg | ⟨hl, hover⟩
    · rw [if_pos hg]
      exact ⟨_, rfl, rfl⟩
    · rw [if_neg (by omega), if_neg (by omega)]
      obtain ⟨h', hrun, hpackets⟩ := ih hwf₁ hpos₁ hl hover
      exact ⟨h', hrun, hpackets⟩

theorem parseItemsIn_eq (hall : ∀ k, grants k = true) : ∀ {n offset : Nat} {pkt : GtpPacket}
    {h : Heap}, (parseItemsIn grants payload len n offset pkt h).2 =
      (parseItems payload len n offset pkt).val := by
  intro n
  induction n with
  | zero => exact rfl
  | succ n ih =>
    intro offset pkt h
    by_cases hlt : offset < len
    · rw [parseItemsIn, if_pos hlt, parseItems_val hlt rfl, ← itemSize]
      dsimp only
      rw [gtpcAppendItemIn]
      cases gtpcAppendItem pkt (payload.byte offset)
          (payload.block offset (itemSize payload offset % 65536)) with
      | none => rfl
      | some pkt₁ =>
        dsimp only
        rw [if_pos (hall _)]
        dsimp only
        split
        · rfl
        · split
          · rfl
          · exact ih
    · rw [parseItemsIn, if_neg hlt]
      simp [parseItems, hlt]

variable {h : Heap}

theorem gtpcAllocPacketFromPayloadIn_of_not_header (hno : ¬ HeaderOk payload len) :
    gtpcAllocPacketFromPayloadIn grants payload len h = (h, none) := by
  unfold gtpcAllocPacketFromPayloadIn
  split
  · rfl
  · split
    · rfl
    · split
      · rfl
      · rename_i hvalid hlen
        dsimp only
        rw [if_pos]
        by_contra hle
        exact hno ⟨not_not.mp hvalid, not_not.mp hlen, Nat.le_of_not_gt hle⟩

theorem gtpcAllocPacketFromPayloadIn_of_header (hok : HeaderOk payload len) :
    gtpcAllocPacketFromPayloadIn grants payload len h =
      match gtpcAllocPacketIn grants (payload.byte 1) h with
      | (h', none) => (h', none)
      | (h', some pkt) =>
        if gtpcTypeHeaderlen (payload.byte 1) = len then (h', some pkt)
        else parseItemsIn grants payload len gtpcCapabilityItemCount
          (gtpcTypeHeaderlen (payload.byte 1)) pkt h' := by
  obtain ⟨hvalid, hlen, hle⟩ := hok
  unfold gtpcAllocPacketFromPayloadIn
  rw [if_neg (by omega), if_neg (by simp [hvalid]), if_neg (by simp [hlen])]
  dsimp only
  rw [if_neg (by omega)]

theorem gtpcAllocPacketFromPayloadIn_eq (hall : ∀ k, grants k = true) (h : Heap) :
    (gtpcAllocPacketFromPayloadIn grants payload len h).2 =
      (gtpcAllocPacketFromPayload payload len).val := by
  simp only [gtpcAllocPacketFromPayloadIn, gtpcAllocPacketFromPayload, gtpcAllocPacketIn, hall,
    if_true, Traced.val_bind, Traced.val_ite, Traced.val_pure]
  split
  · rfl
  · split
    · rfl
    · split
      · rfl
      · split
        · rfl
        · split
          · rfl
          · exact parseItemsIn_eq hall

theorem parse_leaks_of_overruns (hover : OverrunsPayload payload len) :
    ∃ h h' : Heap, gtpcAllocPacketFromPayloadIn (fun _ => true) payload len h = (h', none) ∧
      ¬ h.SameLive h' := by
  obtain ⟨hok, hlt, hover⟩ := hover
  obtain ⟨h₁, halloc, hgain⟩ :=
    @gtpcAllocPacketIn_some (fun _ => true) (payload.byte 1) ⟨0, 0, 0, 0⟩ rfl
  obtain ⟨h₂, hwalk, hpackets⟩ := @parseItemsIn_of_overruns (fun _ => true) payload len
    (fun _ => rfl) _ _ (gtpcAllocPacket (payload.byte 1)) h₁ (gtpcAllocPacket_wf _)
    (gtpcAllocPacket_offset _) hlt hover
  refine ⟨⟨0, 0, 0, 0⟩, h₂, ?_, fun hsame => ?_⟩
  · rw [gtpcAllocPacketFromPayloadIn_of_header hok, halloc]
    dsimp only
    rw [if_neg (by omega), hwalk]
  · have hone : h₂.packets = (⟨0, 0, 0, 0⟩ : Heap).packets + 0 := hsame.1
    rw [hpackets, hgain.1] at hone
    omega

theorem parse_frees_of_not_overruns (hno : ¬ OverrunsPayload payload len)
    (herr : (gtpcAllocPacketFromPayloadIn grants payload len h).2 = none) :
    h.SameLive (gtpcAllocPacketFromPayloadIn grants payload len h).1 := by
  by_cases hok : HeaderOk payload len
  · rw [gtpcAllocPacketFromPayloadIn_of_header hok] at herr ⊢
    cases hcall : grants h.calls with
    | false =>
      obtain ⟨h₁, halloc, hsame⟩ := @gtpcAllocPacketIn_none grants (payload.byte 1) h hcall
      rw [halloc]
      exact hsame
    | true =>
      obtain ⟨h₁, halloc, hgain⟩ := @gtpcAllocPacketIn_some grants (payload.byte 1) h hcall
      rw [halloc] at herr ⊢
      dsimp only at herr ⊢
      by_cases hend : gtpcTypeHeaderlen (payload.byte 1) = len
      · rw [if_pos hend] at herr
        cases herr
      · have hlt : gtpcTypeHeaderlen (payload.byte 1) < len := Nat.lt_of_le_of_ne hok.2.2 hend
        have hwalk := @parseItemsIn_gains grants payload len gtpcCapabilityItemCount _
          (gtpcAllocPacket (payload.byte 1)) h₁ (gtpcAllocPacket_wf _)
          (gtpcAllocPacket_offset _) hlt
        rw [if_neg hend] at herr ⊢
        cases hrun : parseItemsIn grants payload len gtpcCapabilityItemCount
          (gtpcTypeHeaderlen (payload.byte 1)) (gtpcAllocPacket (payload.byte 1)) h₁ with
        | mk h₂ r =>
          rw [hrun] at herr hwalk
          obtain rfl : r = none := herr
          rcases hwalk with hfreed | hover
          · exact (hgain.trans hfreed).of_eq (by omega) (by simp)
          · exact absurd ⟨hok, hlt, hover⟩ hno
  · rw [gtpcAllocPacketFromPayloadIn_of_not_header hok]
    exact ⟨(Int.add_zero _).symm, (Int.add_zero _).symm⟩

/-- Failed parsing frees what it took exactly without an overrun. -/
theorem parse_frees_iff :
    (∀ grants h, (gtpcAllocPacketFromPayloadIn grants payload len h).2 = none →
        h.SameLive (gtpcAllocPacketFromPayloadIn grants payload len h).1) ↔
      ¬ OverrunsPayload payload len := by
  constructor
  · intro hfrees hover
    obtain ⟨h, h', hrun, hleak⟩ := parse_leaks_of_overruns hover
    have hsame := hfrees (fun _ => true) h (by rw [hrun])
    rw [hrun] at hsame
    exact hleak hsame
  · intro hno grants h herr
    exact parse_frees_of_not_overruns hno herr

end

/-! ## 3. The response builders

A builder allocates the response, sets its items up, which may break off, and appends them. Built
or not, the request is freed; a finished response is converted, which frees it. -/

inductive Builder
  | createSessionAccept (h : Handle) (cs : GtpcParseState)
  | createSessionDenied
  | modifyBearerAccept (h : Handle) (cs : GtpcParseState)
  | modifyBearerDenied

namespace Builder

def type : Builder → UInt8
  | createSessionAccept _ _ | createSessionDenied => gtpcCreateSessionRes
  | modifyBearerAccept _ _ | modifyBearerDenied => gtpcModifyBearerRes

def items : Builder → BuiltItems
  | createSessionAccept h cs => createSessionAcceptItems h cs
  | createSessionDenied => createSessionDeniedItems
  | modifyBearerAccept h cs => modifyBearerAcceptItems h cs
  | modifyBearerDenied => some [(gtpcTypeCause, gtpcCauseSet gtpcCauseRequestDeniedApnAccess)]

/-- The response of `Session.lean`, where no `malloc` fails. -/
def response : Builder → Option GtpPacket
  | createSessionAccept h cs => Ctrl.createSessionAccept h cs
  | createSessionDenied => Ctrl.createSessionDenied
  | modifyBearerAccept h cs => Ctrl.modifyBearerAccept h cs
  | modifyBearerDenied => Ctrl.modifyBearerDenied

theorem response_eq (b : Builder) :
    b.response = b.items.bind (gtpcAppendItems (gtpcAllocPacket b.type)) := by
  cases b <;> rfl

/-- One builder on the request `rpckt`; `none` is its `ERR`. -/
def run (grants : Nat → Bool) (b : Builder) (rpckt : GtpPacket) (h : Heap) :
    Heap × Option GtpPacket :=
  match gtpcAllocPacketIn grants b.type h with
  | (h', none) => (h'.freePacket rpckt, none)
  | (h', some lpckt) =>
    match b.items with
    | none => (h'.freePacket rpckt, none)
    | some items =>
      match gtpcAppendItemsIn grants lpckt items h' with
      | (h'', none) => (h''.freePacket rpckt, none)
      | (h'', some lpckt') => ((h''.freePacket rpckt).freePacket lpckt', some lpckt')

section

variable {grants : Nat → Bool} {b : Builder} {rpckt : GtpPacket} {h : Heap}

theorem run_eq (hall : ∀ k, grants k = true) : (b.run grants rpckt h).2 = b.response := by
  obtain ⟨h₁, halloc, -⟩ := @gtpcAllocPacketIn_some grants b.type h (hall _)
  rw [response_eq, run, halloc]
  cases b.items with
  | none => rfl
  | some items =>
    rw [bind_some, ← @gtpcAppendItemsIn_eq grants hall items (gtpcAllocPacket b.type) h₁]
    dsimp only
    cases hrun : gtpcAppendItemsIn grants (gtpcAllocPacket b.type) items h₁ with
    | mk h₂ r => cases r <;> rfl

theorem run_gains_of_refused (hcall : grants h.calls = false) :
    h.Gains (b.run grants rpckt h).1 (-1) (-rpckt.items.length) := by
  obtain ⟨h₁, halloc, hsame⟩ := @gtpcAllocPacketIn_none grants b.type h hcall
  rw [run, halloc]
  exact (hsame.trans (h₁.gains_freePacket rpckt)).of_eq (by omega) (by omega)

/-- A builder that gives up frees the request and leaves the packet it got. -/
theorem run_packets_of_granted (hcall : grants h.calls = true)
    (herr : (b.run grants rpckt h).2 = none) : (b.run grants rpckt h).1.packets = h.packets := by
  obtain ⟨h₁, halloc, hgain⟩ := @gtpcAllocPacketIn_some grants b.type h hcall
  have hfree : ∀ h₂ : Heap, h₂.packets = h₁.packets →
      (h₂.freePacket rpckt).packets = h.packets := by
    intro h₂ heq
    rw [(h₂.gains_freePacket rpckt).1, heq, hgain.1]
    omega
  rw [run, halloc] at herr ⊢
  dsimp only at herr ⊢
  cases hitems : b.items with
  | none => exact hfree h₁ rfl
  | some items =>
    have happ := @gtpcAppendItemsIn_gains grants items (gtpcAllocPacket b.type) h₁
    rw [hitems] at herr
    dsimp only at herr ⊢
    cases hrun : gtpcAppendItemsIn grants (gtpcAllocPacket b.type) items h₁ with
    | mk h₂ r =>
      rw [hrun] at herr happ
      cases r with
      | none => exact hfree h₂ happ
      | some lpckt => cases herr

/-- A response that cannot be built is freed exactly if it was never allocated. -/
theorem run_frees_iff (herr : (b.run grants rpckt h).2 = none) :
    h.Gains (b.run grants rpckt h).1 (-1) (-rpckt.items.length) ↔ grants h.calls = false := by
  refine ⟨fun hgain => ?_, run_gains_of_refused⟩
  by_contra hcall
  have hleft := run_packets_of_granted (by simpa using hcall) herr
  rw [hgain.1] at hleft
  omega

end

end Builder

/-! ## 4. What is freed -/

/-- **Failed parsing and failed building, exactly.** The parser gives back all it took exactly
on the payloads without an item that overruns them; a builder that returns `ERR` has freed the
request and the response exactly if the response was never allocated. -/
theorem frees_iff (payload : Source) (len : Nat) (b : Builder) (rpckt : GtpPacket)
    (grants : Nat → Bool) (h : Heap) :
    ((∀ grants h, (gtpcAllocPacketFromPayloadIn grants payload len h).2 = none →
        h.SameLive (gtpcAllocPacketFromPayloadIn grants payload len h).1) ↔
      ¬ OverrunsPayload payload len) ∧
    ((b.run grants rpckt h).2 = none →
      (h.Gains (b.run grants rpckt h).1 (-1) (-rpckt.items.length) ↔ grants h.calls = false)) :=
  ⟨parse_frees_iff, Builder.run_frees_iff⟩

def overrunRequest : Source :=
  ⟨[0x48, 32, 0, 12, 0, 0, 0, 1, 0, 0, 1, 0, 3, 0, 16, 0], fun _ => 0⟩

def tenDotCs : GtpcParseState :=
  { GtpcParseState.zero with
    flag := fun f => decide (f = .pdn)
    db := { GtpcParseState.zero.db with ueIpvN := 0x0100000a } }

/-- No `malloc` fails, and a packet is left over in both cases. -/
theorem overrun_and_break_leave_a_packet :
    let h : Heap := ⟨0, 0, 0, 0⟩
    let parsed := gtpcAllocPacketFromPayloadIn (fun _ => true) overrunRequest 16 h
    let h' : Heap := ⟨1, 1, 0, 0⟩
    let built := (Builder.createSessionAccept ⟨none, 0, 0, 0⟩ tenDotCs).run (fun _ => true)
      (gtpcAllocPacket gtpcCreateSessionReq) h'
    (parsed.2 = none ∧ parsed.1 = ⟨2, 1, 0, 1⟩) ∧ built.2 = none ∧ built.1 = ⟨2, 2, 1, 0⟩ := by
  refine ⟨?_, ?_⟩
  · decide +kernel
  · decide +kernel

end MixiPgw.Ctrl
