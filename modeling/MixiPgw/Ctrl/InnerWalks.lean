/-
# The two inner walks and the bytes they touch

The loops over the items in a bearer context and in a PCO take the size of a step from the data and
hand over, or read, BEFORE they compare anything with the end.

* `bearer_walk_inside_iff`: `gtpc_iterate_bearer_ctx_item` stays in the declared body if and only if
  that is made of whole children, as far as the walk goes.
* `pco_walk_inside_iff`: the PCO loops are bounded by a length and not by what was copied, the
  options of an IPCP block not at all, and version 1 copies behind a header that its size check does
  not count.
-/
import MixiPgw.Ctrl.BearerContext
import MixiPgw.Ctrl.ItemOrder
import MixiPgw.Ctrl.PdpContext

namespace MixiPgw.Ctrl

open Bytes List Traced

/-- Memory behind a pointer, of which the first `n` bytes are ours. -/
def sourceAt (data : Nat → UInt8) (n : Nat) : Source := ⟨(range n).map data, data⟩

variable (data : Nat → UInt8)

@[simp] theorem length_sourceAt (n : Nat) : (sourceAt data n).bytes.length = n := by
  simp [sourceAt]

@[simp] theorem byte_sourceAt (n i : Nat) : (sourceAt data n).byte i = data i := by
  unfold Source.byte sourceAt
  by_cases hi : i < n
  · simp [hi]
  · rw [getD_eq_default _ _ (by simpa using hi)]

@[simp] theorem block_sourceAt (n i k : Nat) :
    (sourceAt data n).block i k = (range k).map fun j => data (i + j) := by
  simp [Source.block]

theorem byte_of_drop_getD {s : Source} {offset j : Nat} (h : offset + j < s.bytes.length) :
    s.byte (offset + j) = (s.bytes.drop offset).getD j 0 := by
  rw [Source.byte]
  simp only [getD_eq_getElem?_getD, getElem?_drop]
  rw [getElem?_eq_getElem h]
  rfl

/-! ## 1. Bearer contexts -/

/-- The loop of `gtpc_iterate_bearer_ctx_item`; on record are the headers and the ranges that the
callback gets. -/
def bearerCtxWalk (body : Source) (len : Nat) :
    Nat → Nat → GtpcParseState → Traced (GtpcParseState × Bool)
  | 0, _, cs => pure (cs, false)
  | n + 1, cur, cs =>
    if cur < len then do
      let head ← readBlock body cur 4
      let hlen := (be16 (head.getD 1 0) (head.getD 2 0) + 4) % 65536
      let child ← readBlock body cur hlen
      let cs' := onGtpcParseBearerContext (head.getD 0 0) (fun i => child.getD i 0) hlen cs
      let cur' := (cur + hlen) % 65536
      if cur' > len then pure (cs', false)
      else if cur' = len then pure (cs', true)
      else bearerCtxWalk body len n cur' cs'
    else pure (cs, false)

def declaredLength (data : Nat → UInt8) : Nat := be16 (data 1) (data 2)

def declaredBody (data : Nat → UInt8) : Source :=
  sourceAt (fun i => data (4 + i)) (declaredLength data)

/-- `gtpc_iterate_bearer_ctx_item` with its record, in offsets of the body. -/
def bearerCtxItemWalk (data : Nat → UInt8) (cs : GtpcParseState) : Traced (GtpcParseState × Bool) :=
  bearerCtxWalk (declaredBody data) (declaredLength data) gtpcCapabilityItemCount 0 cs

theorem onGtpcParseBearerContext_range (type : UInt8) (data : Nat → UInt8) (n : Nat)
    (cs : GtpcParseState) :
    onGtpcParseBearerContext type (fun i => ((range n).map data).getD i 0) n cs =
      onGtpcParseBearerContext type data n cs := by
  unfold onGtpcParseBearerContext
  cases bearerSlot type with
  | none => rfl
  | some s => exact store_range cs s data n

theorem val_bearerCtxWalk (k len : Nat) :
    ∀ (n cur : Nat) (cs : GtpcParseState),
      (bearerCtxWalk (sourceAt (fun i => data (4 + i)) k) len n cur cs).val =
        bearerCtxLoop data len n cur cs := by
  intro n
  induction n with
  | zero =>
    intro cur cs
    rfl
  | succ n ih =>
    intro cur cs
    have hadd : ∀ i, 4 + (cur + i) = 4 + cur + i := fun i => (Nat.add_assoc 4 cur i).symm
    have hhead : (range 4).map (fun j => data (4 + cur + j)) =
        [data (4 + cur + 0), data (4 + cur + 1), data (4 + cur + 2), data (4 + cur + 3)] := rfl
    rw [bearerCtxWalk, bearerCtxLoop]
    by_cases hcur : cur < len
    · simp only [val_bind, block_sourceAt, hadd, hhead, getD_cons_zero,
        getD_cons_succ, onGtpcParseBearerContext_range, val_ite, val_pure, ih]
    · rw [if_neg hcur, if_neg hcur]
      rfl

/-- The size that a child says it has, in 16 bits. -/
def childExtent (rest : List UInt8) : Nat := (be16 (rest.getD 1 0) (rest.getD 2 0) + 4) % 65536

/-- **Whole children**: the body starts with a header and ends no earlier than the child does, and
so on for at most `n` of them. -/
def nested : Nat → List UInt8 → Bool
  | 0, _ => true
  | n + 1, rest =>
    rest.isEmpty ||
      decide (4 ≤ rest.length) && decide (childExtent rest ≤ rest.length) &&
        nested n (rest.drop (childExtent rest))

@[simp] theorem nested_nil (n : Nat) : nested n [] = true := by
  cases n <;> rfl

theorem nested_succ {n : Nat} {rest : List UInt8} (hne : 0 < rest.length) :
    nested (n + 1) rest = true ↔
      4 ≤ rest.length ∧ childExtent rest ≤ rest.length ∧
        nested n (rest.drop (childExtent rest)) = true := by
  have hcons : rest.isEmpty = false := by
    cases rest with
    | nil => exact absurd hne (Nat.lt_irrefl 0)
    | cons a rest => rfl
  rw [nested, hcons, Bool.false_or, Bool.and_eq_true, Bool.and_eq_true, decide_eq_true_eq,
    decide_eq_true_eq, and_assoc]

/-- The walk stays inside a body of whole children, and only there. The cursor is still within
the body. -/
theorem within_bearerCtxWalk (body : Source) (hsmall : body.bytes.length < 65536) :
    ∀ (n cur : Nat) (cs : GtpcParseState), cur ≤ body.bytes.length →
      ((bearerCtxWalk body body.bytes.length n cur cs).Within body.bytes.length ↔
        nested n (body.bytes.drop cur) = true) := by
  intro n
  induction n with
  | zero =>
    intro cur cs _
    exact iff_of_true (within_pure _ _) rfl
  | succ n ih =>
    intro cur cs hle
    rw [bearerCtxWalk]
    by_cases hcur : cur < body.bytes.length
    · have hleft : (body.bytes.drop cur).length = body.bytes.length - cur := length_drop
      rw [if_pos hcur, within_bind, within_readBlock, nested_succ (by omega)]
      by_cases hhead : cur + 4 ≤ body.bytes.length
      · have hget : ∀ j < 4, (body.block cur 4).getD j 0 = (body.bytes.drop cur).getD j 0 := by
          intro j hj
          rw [Source.getD_block _ hj]
          exact byte_of_drop_getD (by omega)
        have hsize : (be16 ((body.bytes.drop cur).getD 1 0) ((body.bytes.drop cur).getD 2 0) + 4) %
            65536 = childExtent (body.bytes.drop cur) := rfl
        rw [hget 0 (by decide), hget 1 (by decide), hget 2 (by decide), hsize, within_bind,
          within_readBlock]
        generalize childExtent (body.bytes.drop cur) = hlen
        by_cases hchild : cur + hlen ≤ body.bytes.length
        · have hnowrap : (cur + hlen) % 65536 = cur + hlen := Nat.mod_eq_of_lt (by omega)
          rw [hnowrap, if_neg (by omega), drop_drop]
          by_cases hend : cur + hlen = body.bytes.length
          · rw [if_pos hend, hend, drop_length, nested_nil]
            exact iff_of_true ⟨Or.inr hhead, Or.inr (Nat.le_refl _), within_pure _ _⟩
              ⟨by omega, by omega, rfl⟩
          · rw [if_neg hend, ih _ _ hchild]
            exact ⟨fun h => ⟨by omega, by omega, h.2.2⟩,
              fun h => ⟨Or.inr hhead, Or.inr hchild, h.2.2⟩⟩
        · refine iff_of_false (fun h => ?_) (fun h => ?_)
          · rcases h.2.1 with hzero | hinside
            · omega
            · exact hchild hinside
          · exact hchild (by omega)
      · refine iff_of_false (fun h => ?_) (fun h => ?_)
        · rcases h.1 with hzero | hinside
          · cases hzero
          · exact hhead hinside
        · exact hhead (by omega)
    · rw [if_neg hcur, drop_of_length_le (by omega)]
      exact iff_of_true (within_pure _ _) rfl

def itemData (mem : ItemMemory) (pkt : GtpPacket) (it : GtpItem) (i : Nat) : UInt8 :=
  pkt.packet.getD (it.offset + i) (mem.heap (it.offset + i))

/-- **Bearer contexts, exactly.** For every item of every packet, what the walk reads and passes
on lies in the declared body if and only if the body is made of whole children. -/
theorem bearer_walk_inside_iff (mem : ItemMemory) (pkt : GtpPacket) (it : GtpItem)
    (cs : GtpcParseState) :
    (bearerCtxItemWalk (itemData mem pkt it) cs).val =
        gtpcIterateBearerCtxItem (itemData mem pkt it) cs ∧
      ((bearerCtxItemWalk (itemData mem pkt it) cs).Within (declaredLength (itemData mem pkt it)) ↔
        nested gtpcCapabilityItemCount (declaredBody (itemData mem pkt it)).bytes = true) := by
  generalize itemData mem pkt it = data
  refine ⟨val_bearerCtxWalk data _ _ _ _ _, ?_⟩
  have hlen : (declaredBody data).bytes.length = declaredLength data := length_sourceAt _ _
  have hsmall : (declaredBody data).bytes.length < 65536 := by
    rw [hlen]
    exact be16_lt _ _
  have hinside := within_bearerCtxWalk (declaredBody data) hsmall gtpcCapabilityItemCount 0 cs
    (Nat.zero_le _)
  rw [hlen] at hinside
  exact hinside

example : nested 255 (gtpcEbiSet 0 5 ++ gtpcCauseSet 16) = true := by decide

def shortBodyRequest : Source :=
  ⟨[0x48, 32, 0, 17, 0, 0, 0, 0, 0, 0, 0, 0, 93, 0, 5, 0, 73, 0, 2, 0, 5], fun _ => 0⟩

def overrunPacket : GtpPacket :=
  (gtpcAllocPacketFromPayload shortBodyRequest 21).val.getD (gtpcAllocPacket gtpcCreateSessionReq)

theorem bearer_child_overruns :
    (gtpcAllocPacketFromPayload shortBodyRequest 21).val = some overrunPacket ∧
      overrunPacket.items = [⟨gtpcTypeBearerCtx, 9, 12⟩] ∧
      declaredLength (itemData ⟨fun _ => 0, fun _ => 0⟩ overrunPacket ⟨gtpcTypeBearerCtx, 9, 12⟩) =
        5 ∧
      5 ∈ (bearerCtxItemWalk (itemData ⟨fun _ => 0, fun _ => 0⟩ overrunPacket
        ⟨gtpcTypeBearerCtx, 9, 12⟩) GtpcParseState.zero).reads ∧
      ¬ (bearerCtxItemWalk (itemData ⟨fun _ => 0, fun _ => 0⟩ overrunPacket
        ⟨gtpcTypeBearerCtx, 9, 12⟩) GtpcParseState.zero).Within 5 := by
  have hread : 5 ∈ (bearerCtxItemWalk (itemData ⟨fun _ => 0, fun _ => 0⟩ overrunPacket
      ⟨gtpcTypeBearerCtx, 9, 12⟩) GtpcParseState.zero).reads := by decide +kernel
  refine ⟨by decide +kernel, by decide +kernel, by decide +kernel, hread, fun hwithin => ?_⟩
  exact absurd (hwithin 5 hread) (Nat.lt_irrefl 5)

/-! ## 2. Protocol configuration options -/

/-- `gtpc_iterate_pco_ipcp_item` on the block at `at`, and what it reads of `pco.pco`. -/
def ipcpWalk (pco : Source) (start : Nat) (cs : GtpcParseState) :
    Traced (Option GtpcParseState) := do
  let hi ← read pco (start + 2)
  let lo ← read pco (start + 3)
  if be16 hi lo ≠ 16 then pure none
  else do
    let opt0 ← read pco (start + 4)
    let opt1 ← read pco (start + 10)
    pure (some (ipcpOption opt1 (ipcpOption opt0 cs)))

/-- The container loop of both parsers; `request` is what a container other than an IPCP block asks
for. -/
def pcoWalk (request : Nat → Nat → GtpcParseState → GtpcParseState) (pco : Source) (len : Nat) :
    Nat → Nat → GtpcParseState → Traced GtpcParseState
  | 0, _, cs => pure cs
  | n + 1, offset, cs =>
    if offset < len then do
      let pilen ← read pco (offset + 2)
      let hi ← read pco offset
      let lo ← read pco (offset + 1)
      let cs1 := request (be16 hi lo) pilen.toNat cs
      if be16 hi lo = 0x8021 then do
        match ← ipcpWalk pco (offset + 3) cs1 with
        | none => pure cs1
        | some cs2 => pcoWalk request pco len n (offset + 3 + pilen.toNat) cs2
      else pcoWalk request pco len n (offset + 3 + pilen.toNat) cs1
    else pure cs

variable (pco : Nat → UInt8)

theorem val_ipcpWalk (k start : Nat) (cs : GtpcParseState) :
    (ipcpWalk (sourceAt pco k) start cs).val =
      gtpcIteratePcoIpcpItem (fun i => pco (start + i)) cs := by
  simp only [ipcpWalk, gtpcIteratePcoIpcpItem, val_bind, byte_sourceAt, val_ite, val_pure]

theorem val_pcoWalk {request : Nat → Nat → GtpcParseState → GtpcParseState} {pco : Nat → UInt8}
    {len : Nat} {loop : Nat → Nat → GtpcParseState → GtpcParseState}
    (hloop : PcoLoop request pco len loop) (k : Nat) :
    ∀ (n offset : Nat) (cs : GtpcParseState),
      (pcoWalk request (sourceAt pco k) len n offset cs).val = loop n offset cs := by
  intro n
  induction n with
  | zero =>
    intro offset cs
    rw [hloop.zero]
    rfl
  | succ n ih =>
    intro offset cs
    rw [hloop.succ, pcoTurn, pcoWalk]
    simp only [val_ite, val_bind, byte_sourceAt, val_ipcpWalk, val_pure, ih]
    generalize request (be16 (pco offset) (pco (offset + 1))) (pco (offset + 2)).toNat cs = cs1
    cases gtpcIteratePcoIpcpItem (fun i => pco (offset + 3 + i)) cs1 with
    | none => rfl
    | some cs2 =>
      dsimp only
      rw [ih]

theorem val_pcoWalk_v2 (k len n offset : Nat) (cs : GtpcParseState) :
    (pcoWalk requestV2 (sourceAt pco k) len n offset cs).val = pcoLoop pco len n offset cs :=
  val_pcoWalk (pcoLoop_isLoop pco len) k n offset cs

theorem val_pcoWalk_v1 (k len n offset : Nat) (cs : GtpcParseState) :
    (pcoWalk requestV1 (sourceAt pco k) len n offset cs).val = pcoLoopV1 pco len n offset cs :=
  val_pcoWalk (pcoLoopV1_isLoop pco len) k n offset cs

/-- **Whole containers**: as far as the bound goes, the head of a container lies in the contents,
with the four bytes of the head of an IPCP block and, if that has its proper length, the types of
its two options. -/
def whole : Nat → List UInt8 → Nat → Bool
  | 0, _, _ => true
  | n + 1, content, bound =>
    decide (bound = 0) ||
      decide (3 ≤ content.length) &&
        let next := whole n (content.drop (3 + (content.getD 2 0).toNat))
          (bound - (3 + (content.getD 2 0).toNat))
        if be16 (content.getD 0 0) (content.getD 1 0) = 0x8021 then
          decide (7 ≤ content.length) &&
            (decide (be16 (content.getD 5 0) (content.getD 6 0) ≠ 16) ||
              decide (14 ≤ content.length) && next)
        else next

variable {pco : Source}

theorem within_ipcpWalk {start k : Nat} {cs : GtpcParseState} :
    (ipcpWalk pco start cs).Within k ↔
      start + 3 < k ∧
        (be16 (pco.byte (start + 2)) (pco.byte (start + 3)) = 16 → start + 10 < k) := by
  unfold ipcpWalk
  rw [within_bind, within_bind, within_read, within_read]
  dsimp only
  by_cases hlen : be16 (pco.byte (start + 2)) (pco.byte (start + 3)) = 16
  · rw [if_neg (not_not.mpr hlen), within_bind, within_bind, within_read, within_read]
    constructor
    · rintro ⟨-, hlast, -, hopt, -⟩
      exact ⟨hlast, fun _ => hopt⟩
    · rintro ⟨hlast, hopt⟩
      have hfar := hopt hlen
      exact ⟨by omega, hlast, by omega, hfar, within_pure _ _⟩
  · rw [if_pos hlen]
    constructor
    · rintro ⟨-, hlast, -⟩
      exact ⟨hlast, fun h => absurd h hlen⟩
    · rintro ⟨hlast, -⟩
      exact ⟨by omega, hlast, within_pure _ _⟩

theorem val_ipcpWalk_isNone {start : Nat} {cs : GtpcParseState} :
    (ipcpWalk pco start cs).val = none ↔
      be16 (pco.byte (start + 2)) (pco.byte (start + 3)) ≠ 16 := by
  unfold ipcpWalk
  simp only [val_bind, val_ite, val_pure]
  split <;> simp [*]

theorem within_ipcp_turn {offset : Nat} {cs : GtpcParseState}
    {next : GtpcParseState → Traced GtpcParseState} {Q : Prop}
    (hnext : ∀ cs', (next cs').Within pco.bytes.length ↔ Q) :
    (do
      match ← ipcpWalk pco (offset + 3) cs with
      | none => pure cs
      | some cs' => next cs' : Traced GtpcParseState).Within pco.bytes.length ↔
    7 ≤ pco.bytes.length - offset ∧
      (be16 ((pco.bytes.drop offset).getD 5 0) ((pco.bytes.drop offset).getD 6 0) = 16 →
        14 ≤ pco.bytes.length - offset ∧ Q) := by
  rw [within_bind, within_ipcpWalk]
  by_cases hhead : offset + 7 ≤ pco.bytes.length
  · have hfive : pco.byte (offset + 3 + 2) = (pco.bytes.drop offset).getD 5 0 :=
      @byte_of_drop_getD pco offset 5 (by omega)
    have hsix : pco.byte (offset + 3 + 3) = (pco.bytes.drop offset).getD 6 0 :=
      @byte_of_drop_getD pco offset 6 (by omega)
    have hnone := @val_ipcpWalk_isNone pco (offset + 3) cs
    rw [hfive, hsix] at hnone ⊢
    cases hval : (ipcpWalk pco (offset + 3) cs).val with
    | none =>
      have hshort := hnone.mp hval
      exact iff_of_true ⟨⟨by omega, fun h => absurd h hshort⟩, within_pure _ _⟩
        ⟨by omega, fun h => absurd h hshort⟩
    | some cs' =>
      have hfull : be16 ((pco.bytes.drop offset).getD 5 0) ((pco.bytes.drop offset).getD 6 0) =
          16 := by
        by_contra hne
        rw [hnone.mpr hne] at hval
        exact absurd hval (by simp)
      dsimp only
      rw [hnext cs']
      constructor
      · rintro ⟨⟨-, hopt⟩, hq⟩
        exact ⟨by omega, fun _ => ⟨by omega, hq⟩⟩
      · rintro ⟨-, hopt⟩
        obtain ⟨hfar, hq⟩ := hopt hfull
        exact ⟨⟨by omega, fun _ => by omega⟩, hq⟩
  · refine iff_of_false (fun h => ?_) (fun h => ?_)
    · have hlast := h.1.1
      exact hhead (by omega)
    · exact hhead (by omega)

theorem whole_succ {n bound : Nat} {content : List UInt8} (hbound : bound ≠ 0) :
    whole (n + 1) content bound = true ↔
      3 ≤ content.length ∧
        if be16 (content.getD 0 0) (content.getD 1 0) = 0x8021 then
          7 ≤ content.length ∧
            (be16 (content.getD 5 0) (content.getD 6 0) = 16 → 14 ≤ content.length ∧
              whole n (content.drop (3 + (content.getD 2 0).toNat))
                (bound - (3 + (content.getD 2 0).toNat)) = true)
        else whole n (content.drop (3 + (content.getD 2 0).toNat))
          (bound - (3 + (content.getD 2 0).toNat)) = true := by
  rw [whole, decide_eq_false hbound, Bool.false_or, Bool.and_eq_true, decide_eq_true_eq]
  dsimp only
  split
  · simp only [Bool.and_eq_true, Bool.or_eq_true, decide_eq_true_eq, ne_eq,
      Decidable.imp_iff_not_or]
  · rfl

theorem within_pcoWalk (request : Nat → Nat → GtpcParseState → GtpcParseState) (pco : Source)
    (len : Nat) :
    ∀ (n offset : Nat) (cs : GtpcParseState),
      (pcoWalk request pco len n offset cs).Within pco.bytes.length ↔
        whole n (pco.bytes.drop offset) (len - offset) = true := by
  intro n
  induction n with
  | zero =>
    intro offset cs
    exact iff_of_true (within_pure _ _) rfl
  | succ n ih =>
    intro offset cs
    rw [pcoWalk]
    by_cases hmore : offset < len
    · have hleft : (pco.bytes.drop offset).length = pco.bytes.length - offset := length_drop
      rw [if_pos hmore, whole_succ (by omega), within_bind, within_bind,
        within_bind, within_read, within_read, within_read, hleft]
      by_cases hhead : offset + 3 ≤ pco.bytes.length
      · have hbyte : ∀ j < 3, pco.byte (offset + j) = (pco.bytes.drop offset).getD j 0 :=
          fun j hj => byte_of_drop_getD (by omega)
        have hnext : ∀ cs', (pcoWalk request pco len n
              (offset + 3 + ((pco.bytes.drop offset).getD 2 0).toNat) cs').Within
              pco.bytes.length ↔
            whole n ((pco.bytes.drop offset).drop (3 + ((pco.bytes.drop offset).getD 2 0).toNat))
              (len - offset - (3 + ((pco.bytes.drop offset).getD 2 0).toNat)) = true := by
          intro cs'
          rw [ih, drop_drop, Nat.add_assoc, Nat.sub_sub]
        have hzero : pco.byte offset = (pco.bytes.drop offset).getD 0 0 := hbyte 0 (by decide)
        have hone := hbyte 1 (by decide)
        have htwo := hbyte 2 (by decide)
        generalize (pco.bytes.drop offset).getD 0 0 = b0 at hzero ⊢
        generalize (pco.bytes.drop offset).getD 1 0 = b1 at hone ⊢
        generalize (pco.bytes.drop offset).getD 2 0 = b2 at htwo hnext ⊢
        simp only [hzero, hone, htwo]
        have hturn : ∀ {P Q : Prop}, (P ↔ Q) →
            (offset + 2 < pco.bytes.length ∧ offset < pco.bytes.length ∧
                offset + 1 < pco.bytes.length ∧ P ↔ 3 ≤ pco.bytes.length - offset ∧ Q) := by
          intro P Q hPQ
          constructor
          · rintro ⟨-, -, -, hp⟩
            exact ⟨by omega, hPQ.mp hp⟩
          · rintro ⟨-, hq⟩
            exact ⟨by omega, by omega, by omega, hPQ.mpr hq⟩
        refine hturn ?_
        by_cases hipcp : be16 b0 b1 = 0x8021
        · rw [if_pos hipcp, if_pos hipcp]
          exact within_ipcp_turn hnext
        · rw [if_neg hipcp, if_neg hipcp]
          exact hnext _
      · refine iff_of_false (fun h => ?_) (fun h => ?_)
        · exact hhead (by omega)
        · exact hhead (by omega)
    · rw [if_neg hmore, Nat.sub_eq_zero_of_le (by omega)]
      refine iff_of_true (within_pure _ _) ?_
      rw [whole]
      rfl

/-- `len` of the PCO branch: a length field below 2 makes it huge. -/
def pcoBound (hi lo : UInt8) : Nat := (be16 hi lo + 2 ^ 64 - 2) % 2 ^ 64

theorem onPco_eq (stack : Nat → UInt8) (cs : GtpcParseState) :
    onPco stack cs = pcoLoop (pcoByte stack cs)
      (pcoBound ((cs.item .pco).getD 1 0) ((cs.item .pco).getD 2 0)) 255 0 cs := rfl

/-- A walk over `pco.pco` in indexes of the structure, behind what has been touched before. -/
def inPco (before : List Nat) (walk : Traced GtpcParseState) : Traced GtpcParseState :=
  ⟨walk.val, before ++ walk.reads.map (5 + ·)⟩

@[simp] theorem val_inPco (before : List Nat) (walk : Traced GtpcParseState) :
    (inPco before walk).val = walk.val := rfl

/-- The loop of the PCO branch over the copy of `datalen` bytes. -/
def pcoLoopWalk (stack : Nat → UInt8) (datalen : Nat) (cs : GtpcParseState) :
    Traced GtpcParseState :=
  pcoWalk requestV2 (sourceAt (pcoByte stack cs) (datalen - 5))
    (pcoBound ((cs.item .pco).getD 1 0) ((cs.item .pco).getD 2 0)) 255 0 cs

/-- The PCO branch of `on_gtpc_parse_root`, behind its size check, and the indexes of `cs->pco` that
it touches. -/
def onPcoWalk (stack data : Nat → UInt8) (datalen : Nat) (cs : GtpcParseState) :
    Traced GtpcParseState :=
  inPco (range datalen ++ [1, 2]) (pcoLoopWalk stack datalen (cs.store .pco data datalen))

/-- The fields `pco` and `paa` behind the copy of version 1. -/
def storePcoV1 (data : Nat → UInt8) (datalen : Nat) (cs : GtpcParseState) : GtpcParseState :=
  let fields := splice (cs.item .pco ++ cs.item .paa) 4 (ieBytes data 3 datalen)
  { cs with
    item := fun t =>
      if t = .pco then fields.take 258 else if t = .paa then fields.drop 258 else cs.item t }

variable (stack data : Nat → UInt8) (datalen : Nat) (cs : GtpcParseState)

theorem onPcoV1_eq :
    onPcoV1 stack data datalen cs = pcoLoopV1 (pcoByte stack (storePcoV1 data datalen cs))
      (datalen - 1) 255 0 (storePcoV1 data datalen cs) := rfl

def pcoLoopWalkV1 (stack : Nat → UInt8) (datalen : Nat) (cs : GtpcParseState) :
    Traced GtpcParseState :=
  pcoWalk requestV1 (sourceAt (pcoByte stack cs) (datalen - 1)) (datalen - 1) 255 0 cs

/-- The PCO branch of `on_gtpcv1_parse_root`; it copies to behind the header of `cs->pco`. -/
def onPcoV1Walk (stack data : Nat → UInt8) (datalen : Nat) (cs : GtpcParseState) :
    Traced GtpcParseState :=
  inPco (range' 4 datalen) (pcoLoopWalkV1 stack datalen (storePcoV1 data datalen cs))

theorem val_onPcoWalk :
    (onPcoWalk stack data datalen cs).val = onPco stack (cs.store .pco data datalen) := by
  rw [onPcoWalk, val_inPco, pcoLoopWalk, val_pcoWalk_v2, onPco_eq]

theorem val_onPcoV1Walk :
    (onPcoV1Walk stack data datalen cs).val = onPcoV1 stack data datalen cs := by
  rw [onPcoV1Walk, val_inPco, pcoLoopWalkV1, val_pcoWalk_v1, onPcoV1_eq]

/-- **What is touched is ours**: an index of the structure, among the `n` bytes received from
`first` on. -/
def TouchesOwn (first n : Nat) (x : Traced GtpcParseState) : Prop :=
  ∀ j ∈ x.reads, j < 258 ∧ first ≤ j ∧ j < first + n

theorem pco_reads_inside {first n k : Nat} {reads : List Nat} (hfirst : first ≤ 5)
    (hk : ∀ i, i < k ↔ 5 + i < first + n) (hsize : first + n ≤ 258) :
    (∀ j ∈ reads.map (5 + ·), j < 258 ∧ first ≤ j ∧ j < first + n) ↔ ∀ i ∈ reads, i < k := by
  constructor
  · intro h i hi
    exact (hk i).mpr (h (5 + i) (mem_map_of_mem hi)).2.2
  · intro h j hj
    obtain ⟨i, hi, rfl⟩ := mem_map.mp hj
    have hin := (hk i).mp (h i hi)
    exact ⟨by omega, by omega, hin⟩

theorem touchesOwn_v2_iff {datalen : Nat} (cs : GtpcParseState) (hfits : datalen < 258) :
    TouchesOwn 0 datalen (onPcoWalk stack data datalen cs) ↔
      3 ≤ datalen ∧ whole 255 ((range (datalen - 5)).map fun i => data (5 + i))
        (pcoBound (data 1) (data 2)) = true := by
  have hcopied : ∀ j < datalen, ((cs.store .pco data datalen).item .pco).getD j 0 = data j := by
    intro j hj
    have hstored : Slot.pco.fits datalen = true := decide_eq_true hfits
    rw [store_item hstored, getD_overwrite _ _ hj]
  unfold TouchesOwn onPcoWalk inPco
  generalize cs.store .pco data datalen = cs1 at hcopied ⊢
  simp only [forall_mem_append]
  by_cases hhead : 3 ≤ datalen
  · have hcontent : (range (datalen - 5)).map (pcoByte stack cs1) =
        (range (datalen - 5)).map fun i => data (5 + i) := by
      refine map_congr_left fun i hi => ?_
      have hi' := mem_range.mp hi
      rw [pcoByte, if_pos (by omega), hcopied _ (by omega)]
    have hwalk := within_pcoWalk requestV2 (sourceAt (pcoByte stack cs1) (datalen - 5))
      (pcoBound (data 1) (data 2)) 255 0 cs1
    rw [length_sourceAt, drop_zero, Nat.sub_zero, sourceAt, hcontent] at hwalk
    rw [pcoLoopWalk, hcopied 1 (by omega), hcopied 2 (by omega),
      pco_reads_inside (by decide) (fun i => by omega : ∀ i, i < datalen - 5 ↔ _) (by omega),
      ← hwalk, sourceAt, hcontent]
    constructor
    · rintro ⟨-, hreads⟩
      exact ⟨hhead, hreads⟩
    · rintro ⟨-, hreads⟩
      refine ⟨⟨fun j hj => ?_, fun j hj => ?_⟩, hreads⟩
      · have hj' := mem_range.mp hj
        exact ⟨by omega, Nat.zero_le j, by omega⟩
      · simp only [mem_cons, not_mem_nil, or_false] at hj
        exact ⟨by omega, Nat.zero_le j, by omega⟩
  · refine iff_of_false (fun h => ?_) (fun h => hhead h.1)
    have htwo := (h.1.2 2 (by simp)).2.2
    omega

theorem pcoByte_storePcoV1 {stack data : Nat → UInt8} {datalen i : Nat} {cs : GtpcParseState}
    (hsize : (cs.item .pco).length = 258) (hroom : datalen ≤ 254) (hi : i < datalen - 1) :
    pcoByte stack (storePcoV1 data datalen cs) i = data (4 + i) := by
  have hcopy : (ieBytes data 3 datalen).length = datalen := by simp [ieBytes]
  have hfits : 4 + (ieBytes data 3 datalen).length ≤ (cs.item .pco ++ cs.item .paa).length := by
    rw [length_append, hsize, hcopy]
    omega
  have hitem : (storePcoV1 data datalen cs).item .pco =
      (splice (cs.item .pco ++ cs.item .paa) 4 (ieBytes data 3 datalen)).take 258 := rfl
  have htake : ∀ (l : List UInt8), (l.take 258).getD (4 + (1 + i)) 0 = l.getD (4 + (1 + i)) 0 := by
    intro l
    rw [getD_eq_getElem?_getD, getD_eq_getElem?_getD, getElem?_take_of_lt (by omega)]
  rw [pcoByte, if_pos (by omega), hitem, show 5 + i = 4 + (1 + i) by omega, htake,
    getD_splice_mid hfits (by omega)]
  have hget : 1 + i < datalen := by omega
  simp only [ieBytes, getD_eq_getElem?_getD, getElem?_map, getElem?_range hget,
    Option.map_some, Option.getD_some]
  congr 1
  omega

theorem touchesOwn_v1_iff {datalen : Nat} (cs : GtpcParseState)
    (hsize : (cs.item .pco).length = 258) :
    TouchesOwn 4 datalen (onPcoV1Walk stack data datalen cs) ↔
      datalen ≤ 254 ∧ whole 255 ((range (datalen - 1)).map fun i => data (4 + i))
        (datalen - 1) = true := by
  have hbyte : datalen ≤ 254 → ∀ i < datalen - 1,
      pcoByte stack (storePcoV1 data datalen cs) i = data (4 + i) :=
    fun hroom i hi => pcoByte_storePcoV1 hsize hroom hi
  unfold TouchesOwn onPcoV1Walk inPco
  generalize storePcoV1 data datalen cs = cs1 at hbyte ⊢
  simp only [forall_mem_append]
  by_cases hroom : datalen ≤ 254
  · have hcontent : (range (datalen - 1)).map (pcoByte stack cs1) =
        (range (datalen - 1)).map fun i => data (4 + i) :=
      map_congr_left fun i hi => hbyte hroom i (mem_range.mp hi)
    have hwalk := within_pcoWalk requestV1 (sourceAt (pcoByte stack cs1) (datalen - 1))
      (datalen - 1) 255 0 cs1
    rw [length_sourceAt, drop_zero, Nat.sub_zero, sourceAt, hcontent] at hwalk
    rw [pcoLoopWalkV1, pco_reads_inside (by decide) (fun i => by omega : ∀ i,
      i < datalen - 1 ↔ _) (by omega), ← hwalk, sourceAt, hcontent]
    constructor
    · rintro ⟨-, hreads⟩
      exact ⟨hroom, hreads⟩
    · rintro ⟨-, hreads⟩
      refine ⟨fun j hj => ?_, hreads⟩
      have hj' := mem_range'_1.mp hj
      exact ⟨by omega, hj'.1, hj'.2⟩
  · refine iff_of_false (fun h => ?_) (fun h => hroom h.1)
    have hlast := (h.1 (4 + (datalen - 1)) (mem_range'_1.mpr ⟨by omega, by omega⟩)).1
    omega

/-- **PCO walking, exactly.** Version 2 touches only bytes of the structure that belong to the
item if and only if the item has its length field and whole containers up to what that field
says; version 1 if and only if the contents fit behind the header and have whole containers. -/
theorem pco_walk_inside_iff (stack data : Nat → UInt8) (datalen : Nat) (cs : GtpcParseState)
    (hfits : datalen < 258) (hsize : (cs.item .pco).length = 258) :
    (onGtpcParseRoot stack gtpcTypePco data datalen cs =
        ((onPcoWalk stack data datalen cs).val, true) ∧
      (TouchesOwn 0 datalen (onPcoWalk stack data datalen cs) ↔
        3 ≤ datalen ∧ whole 255 ((range (datalen - 5)).map fun i => data (5 + i))
          (pcoBound (data 1) (data 2)) = true)) ∧
    (datalen ≠ 0 →
      onGtpcv1ParseRoot stack gtpcV1IePco data datalen cs =
          ((onPcoV1Walk stack data datalen ((cs.haveV1 .v1).haveV1 .v1Pco)).val, true) ∧
        (TouchesOwn 4 datalen (onPcoV1Walk stack data datalen ((cs.haveV1 .v1).haveV1 .v1Pco)) ↔
          datalen ≤ 254 ∧ whole 255 ((range (datalen - 1)).map fun i => data (4 + i))
            (datalen - 1) = true)) := by
  refine ⟨⟨?_, touchesOwn_v2_iff stack data cs hfits⟩, fun hpos => ⟨?_, ?_⟩⟩
  · have hslot : Slot.pco.fits datalen = true := decide_eq_true hfits
    have hroot : rootSlot gtpcTypePco = some .pco := rfl
    unfold onGtpcParseRoot
    rw [val_onPcoWalk, hroot]
    dsimp only
    rw [if_pos hslot]
  · have hcopy : copyRule (cs.haveV1 .v1) gtpcV1IePco = none := rfl
    unfold onGtpcv1ParseRoot
    rw [val_onPcoV1Walk, if_neg hpos]
    dsimp only
    rw [hcopy]
    unfold onOtherElement
    dsimp only
    rw [if_neg (by decide), if_neg (by decide), if_neg (by decide), if_pos rfl, if_neg (by omega)]
  · exact touchesOwn_v1_iff stack data _ hsize

def bytesAt (bytes : List UInt8) : Nat → UInt8 := fun i => bytes.getD i 0

theorem pco_walk_inside_dns :
    TouchesOwn 0 8
        (onPcoWalk (fun _ => 0) (bytesAt [78, 0, 4, 0, 0x80, 0x00, 0x0d, 0]) 8
          GtpcParseState.zero) ∧
      TouchesOwn 4 4 (onPcoV1Walk (fun _ => 0) (bytesAt [132, 0, 4, 0x80, 0x00, 0x0d, 0]) 4
        ((GtpcParseState.zero.haveV1 .v1).haveV1 .v1Pco)) :=
  ⟨(pco_walk_inside_iff (fun _ => 0) (bytesAt [78, 0, 4, 0, 0x80, 0x00, 0x0d, 0]) 8
      GtpcParseState.zero (by decide) length_replicate).1.2.mpr ⟨by decide, by decide +kernel⟩,
    ((pco_walk_inside_iff (fun _ => 0) (bytesAt [132, 0, 4, 0x80, 0x00, 0x0d, 0]) 4
      GtpcParseState.zero (by decide) length_replicate).2 (by decide)).2.mpr
        ⟨by decide, by decide +kernel⟩⟩

/-- A version-2 item whose last container is cut behind its type; a version-1 element of 255 bytes,
the last of which goes behind the structure. -/
theorem pco_walk_leaves :
    7 < 258 ∧
      ¬ TouchesOwn 0 7
        (onPcoWalk (fun _ => 0) (bytesAt [78, 0, 3, 0, 0x80, 0x00, 0x0d]) 7 GtpcParseState.zero) ∧
      255 < 258 ∧
      ¬ TouchesOwn 4 255 (onPcoV1Walk (fun _ => 0) (bytesAt [132, 0, 255, 0x80]) 255
        ((GtpcParseState.zero.haveV1 .v1).haveV1 .v1Pco)) := by
  refine ⟨by decide, fun h => ?_, by decide, fun h => ?_⟩
  · have hread : 7 ∈ (onPcoWalk (fun _ => 0) (bytesAt [78, 0, 3, 0, 0x80, 0x00, 0x0d]) 7
        GtpcParseState.zero).reads := by decide +kernel
    exact absurd (h 7 hread).2.2 (by decide)
  · have hwritten : 258 ∈ (onPcoV1Walk (fun _ => 0) (bytesAt [132, 0, 255, 0x80]) 255
        ((GtpcParseState.zero.haveV1 .v1).haveV1 .v1Pco)).reads :=
      mem_append_left _ (mem_range'_1.mpr ⟨by decide, by decide⟩)
    exact absurd (h 258 hwritten).1 (by decide)

end MixiPgw.Ctrl
