/-
# The policers of the tools

Four packet filters of the tools meter a user's packets by the same two token buckets: the enforcers
drop what neither bucket pays for, the markers only mark it. The buckets are records of a
double-buffered table. A filter fills up the record in front, in place, by the seconds since its
`epoch_w`, copies the values to the back, takes the packet's length off there, stamps the back with
the seconds and swaps the sides.

A run keeps the rates if every packet leaves `epoch_w` at what the tokens in front were filled up to
(`policers_rate`). Three paths do not: an enforcer leaves the front of a red packet filled up and
unstamped; a marker swaps to a back that a red packet has not stamped; the marker of encapsulated
packets stamps none. The seconds are then paid out once more (`paid_twice`).
-/
import MixiPgw.Lib.Bytes
import MixiPgw.Lib.Run
import MixiPgw.Lib.TokenBucket
import MixiPgw.Table.DoubleBuffered

namespace MixiPgw.Tools

open Bytes Lib Lib.TokenBucket Table Function Option DualBuffered Sides

/-! ## 1. Packets -/

/-- `PktHeader`: the buffer of a frame and `Length()`, an `int` that the filters compare as an
unsigned word. -/
structure PktHeader where
  data : Nat → UInt8
  len : UInt32

def wordAt (data : Nat → UInt8) (i : Nat) : UInt32 :=
  le32 (data i) (data (i + 1)) (data (i + 2)) (data (i + 3))

namespace PktHeader

def lenVlan (pkt : PktHeader) : Nat :=
  if be16 (pkt.data 12) (pkt.data 13) = 0x8100 then
    if be16 (pkt.data 16) (pkt.data 17) = 0x8100 then 8 else 4
  else 0

/-! `offset_[]`, which the constructor sets. -/

variable (pkt : PktHeader)

def ip : Nat := 14 + pkt.lenVlan

def lenIp : Nat :=
  if pkt.data pkt.ip >>> 4 = 4 then (pkt.data pkt.ip &&& 0x0f).toNat * 4 else 40

def udp : Nat := pkt.ip + pkt.lenIp

def icmp : Nat := pkt.udp

def gtpu : Nat := pkt.udp + 8

def ipI : Nat :=
  pkt.gtpu + 8 + if pkt.data pkt.gtpu &&& 0x07 ≠ 0 then 4 else 0

def vlanExtendSize : Nat := if pkt.lenVlan = 0 then 4 else 0

/-- The buffer after a frame without a tag has got one, over the first bytes of its IP header. -/
def extendVlan (i : Nat) : UInt8 :=
  if pkt.lenVlan = 0 then
    match i with
    | 12 => 0x81
    | 13 => 0x00
    | 14 => 0x01
    | 15 => 0x00
    | 16 => 0x08
    | 17 => 0x00
    | i => pkt.data i
  else pkt.data i

end PktHeader

/-- What a filter makes of a packet before it looks at a table. -/
inductive Admission
  | throws
  /-- `RETERR` -/
  | refuses
  | admits (key len : UInt32)
deriving DecidableEq, Repr

/-- The checks of both decapsulating filters: a G-PDU of version 1 with IPv4 inside. The length is
that of the frame without the tunnel. -/
def checkDecap (pkt : PktHeader) : Admission :=
  if pkt.data pkt.gtpu >>> 5 ≠ 1 then .refuses
  else if pkt.data pkt.gtpu >>> 4 &&& 1 ≠ 1 then .refuses
  else if pkt.data pkt.gtpu &&& 1 ≠ 0 then .refuses
  else if pkt.data (pkt.gtpu + 1) ≠ 255 then .refuses
  else if pkt.extendVlan pkt.ipI >>> 4 = 4 then
    .admits (bswap32 (wordAt pkt.data (pkt.gtpu + 4)))
      (pkt.len - UInt32.ofNat (pkt.ipI - (pkt.ip + pkt.vlanExtendSize)))
  else .refuses

def checkEncapEnforcer (pkt : PktHeader) : Admission :=
  if pkt.lenVlan ≠ 4 then .throws
  else if pkt.data pkt.ip >>> 4 = 4 then .admits (wordAt pkt.data (pkt.ip + 16)) pkt.len
  else .refuses

/-- The checks of `TranslatorEncapMarker`. A packet from `0xdeadbeaf` is an error message, about
the packet inside. -/
def checkEncapMarker (pkt : PktHeader) : Admission :=
  if pkt.lenVlan = 8 then .throws
  else if pkt.extendVlan pkt.ip >>> 4 = 4 then
    if wordAt pkt.extendVlan (pkt.ip + 12) = bswap32 0xdeadbeaf then
      .admits (wordAt pkt.extendVlan (pkt.icmp + 24)) pkt.len
    else .admits (wordAt pkt.extendVlan (pkt.ip + 16)) pkt.len
  else .refuses

theorem checkEncapMarker_untagged {pkt : PktHeader} (h : pkt.lenVlan = 0) :
    checkEncapMarker pkt = .refuses := by
  have hversion : ¬pkt.extendVlan pkt.ip >>> 4 = 4 := by
    unfold PktHeader.extendVlan PktHeader.ip
    rw [h]
    show ¬(0x01 : UInt8) >>> 4 = 4
    decide
  unfold checkEncapMarker
  rw [if_neg (by rw [h]; decide), if_neg hversion]

/-! ## 2. Two records -/

inductive Color
  | green
  | yellow
  | red
deriving DecidableEq, Repr

/-- Fill up the record in front, by the seconds since it was stamped. -/
def replenish (itf : Policer) (recalcCounter : UInt32) : Policer :=
  let dt := recalcCounter - itf.epochW
  if dt ≠ 0 then
    { itf with
      commitRate := min itf.commitBurstSize (itf.commitRate + itf.commitInformationRate * dt)
      excessRate := min itf.excessBurstSize (itf.excessRate + itf.excessInformationRate * dt) }
  else itf

/-- Copy the front to the back and take the packet off; `stamps` says whether that sets `epoch_w`.
A red packet leaves `valid` and `epoch_w` of the back as they are. -/
def meter (stamps : Bool) (recalcCounter len : UInt32) (itf itb : Policer) : Policer × Color :=
  let copy := { itf with valid := itb.valid, epochW := itb.epochW }
  let epochW := if stamps then recalcCounter else itb.epochW
  if len ≤ itf.commitRate then
    ({ copy with
      commitRate := itf.commitRate - len
      valid := linkmapstatOn
      epochW := epochW }, .green)
  else if len ≤ itf.excessRate then
    ({ copy with
      excessRate := itf.excessRate - len
      valid := linkmapstatOn
      epochW := epochW }, .yellow)
  else (copy, .red)

/-! ## 3. The filters -/

structure Translator where
  check : PktHeader → Admission
  /-- an enforcer drops what is red, a marker marks it -/
  enforces : Bool
  stamps : Bool

def translatorDecapEnforcer : Translator := ⟨checkDecap, true, true⟩

def translatorDecapMarker : Translator := ⟨checkDecap, false, true⟩

def translatorEncapEnforcer : Translator := ⟨checkEncapEnforcer, true, true⟩

def translatorEncapMarker : Translator := ⟨checkEncapMarker, false, false⟩

def storeBoth (ptbl : DualBuffered Policer) (key : UInt32) (itf itb : Policer) :
    DualBuffered Policer :=
  { ptbl with
    toSides := (ptbl.toSides.store itf (ptbl.find key false)).store itb (ptbl.find key true) }

/-- The part of a filter between the two calls of `Find` and `SwapSide`. `none` is the exception;
there is no colour when no record is in use. -/
def police (t : Translator) (recalcCounter len key : UInt32) (ptbl : DualBuffered Policer) :
    Option (DualBuffered Policer × Option Color) :=
  match ptbl.get (ptbl.find key true) with
  | none => none
  | some itb =>
    match ptbl.get (ptbl.find key false) with
    | none => some (ptbl, none)
    | some front =>
      let itf := replenish front recalcCounter
      let metered := meter t.stamps recalcCounter len itf itb
      let ptbl' := storeBoth ptbl key itf metered.1
      if t.enforces then
        -- `return(0)` before the sides are swapped
        if metered.2 = .red then some (ptbl', some metered.2)
        else some ((ptbl'.swapSide key).notifyChange key, some metered.2)
      else some (ptbl'.swapSide key, some metered.2)

def procNeedSend : UInt32 := 0x00000001

def procTrigger1sEvent : UInt32 := 0x00000004

def procRfc4115Red : UInt32 := 0x00000010

def tblSkeyMax : Nat := 16

def teidGid (teid : UInt32) : Nat := teid.toNat / 65536 % 256

/-- A filter with its policer tables and the flag that goes from packet to packet. `ticks` counts
the trigger events; `recalc_counter_` has 32 bits of that. -/
structure FilterState where
  ticks : Nat
  flag : UInt32
  lookupTbl : Nat → Option (DualBuffered Policer)

namespace FilterState

def recalcCounter (s : FilterState) : UInt32 := UInt32.ofNat s.ticks

def get (s : FilterState) (skey : Nat) : Option (DualBuffered Policer) :=
  if skey < tblSkeyMax then s.lookupTbl skey else none

/-- The one-second event, when the flag has it. -/
def recalc (s : FilterState) : FilterState :=
  if s.flag &&& procTrigger1sEvent ≠ 0 then
    { s with ticks := s.ticks + 1, flag := s.flag &&& ~~~procTrigger1sEvent }
  else s

end FilterState

/-- A packet, and the `qos` of what `Find` in the TEID table hands out for a key at that moment;
`none` is no table or `End()`. -/
structure Arrival where
  pkt : PktHeader
  link : UInt32 → Option UInt16

structure Policed where
  key : UInt32
  len : UInt32
  color : Option Color

/-- `OnFilter`: the return code, the byte set as `ip_tos`, and how the packet was metered. -/
structure Filtered where
  state : FilterState
  rc : Int
  tos : Option UInt8
  policed : Option Policed

/-- What becomes of the packet: the flag, and `IPTOS_DSCP(qos)` where the packet is marked. -/
def verdict (t : Translator) (qos : UInt16) (color : Option Color) (flag : UInt32) :
    UInt32 × Option UInt8 :=
  let tos := (qos &&& 0xfc).toUInt8
  if t.enforces then
    match color with
    | none => (flag, none)
    | some .green => (flag ||| procNeedSend, none)
    | some .yellow => (flag ||| procNeedSend, some tos)
    | some .red => (flag ||| procRfc4115Red, none)
  else
    match color with
    | none | some .red => (flag ||| procNeedSend, some tos)
    | some .green | some .yellow => (flag ||| procNeedSend, none)

/-- `OnFilter`; `none` is an exception. -/
def onFilter (t : Translator) (s : FilterState) (arrival : Arrival) : Option Filtered :=
  match t.check arrival.pkt with
  | .throws => none
  | .refuses => some ⟨s, -1, none, none⟩
  | .admits key len =>
    match arrival.link key with
    | none => some ⟨s, 0, none, none⟩
    | some qos =>
      match s.get (teidGid key) with
      | none => some ⟨s, 0, none, none⟩
      | some ptbl =>
        match police t s.recalc.recalcCounter len key ptbl with
        | none => none
        | some (ptbl', color) =>
          let (flag, tos) := verdict t qos color s.recalc.flag
          some
            { state :=
                { ticks := s.recalc.ticks
                  flag := flag
                  lookupTbl := update s.lookupTbl (teidGid key) (some ptbl') }
              rc := 0
              tos := tos
              policed := some ⟨key, len, color⟩ }

/-- What happens to a filter: the BFD filter raises the one-second event, or a packet comes in. -/
inductive Event
  | trigger
  | packet (arrival : Arrival)

/-- One round of `ProcessRing`, which takes `PROC_NEED_SEND` back after each packet. -/
def processed (t : Translator) (s : FilterState) : Event → Option Filtered
  | .trigger => some ⟨{ s with flag := s.flag ||| procTrigger1sEvent }, 0, none, none⟩
  | .packet arrival =>
    (onFilter t s arrival).map fun r =>
      { r with state := { r.state with flag := r.state.flag &&& ~~~procNeedSend } }

def processRing (t : Translator) (s : FilterState) (event : Event) : Option FilterState :=
  (processed t s event).map Filtered.state

/-- How the packet was metered, if that was by the entry `k` of the group `gid`. -/
def Filtered.meteredBy (r : Filtered) (gid k : Nat) : Option Policed :=
  r.policed.filter fun p => teidGid p.key = gid ∧ gcnt p.key = k

/-- The bytes a packet was given the colour for, between two values of the counter. -/
def Filtered.bytes (r : Filtered) (gid k : Nat) (color : Color) (a b : Nat) : Nat :=
  match r.meteredBy gid k with
  | none => 0
  | some p =>
    if (a ≤ r.state.ticks ∧ r.state.ticks ≤ b) ∧ p.color = some color then p.len.toNat else 0

/-- The bytes of an entry that a run treats as green or yellow between two values of the
counter. -/
def treatedBytes (t : Translator) (gid k : Nat) (color : Color) (a b : Nat) :
    FilterState → List Event → Nat
  | _, [] => 0
  | s, event :: events =>
    match processed t s event with
    | none => 0
    | some r => r.bytes gid k color a b + treatedBytes t gid k color a b r.state events

/-! ## 4. Slots -/

/-- What a packet does to the slot of its entry. -/
def policeSlot (t : Translator) (recalcCounter len : UInt32) (slot : Slot Policer) :
    Slot Policer × Option Color :=
  if slot.front.valid then
    let itf := replenish slot.front recalcCounter
    let metered := meter t.stamps recalcCounter len itf slot.back
    let slot' := (slot.setFront itf).setBack metered.1
    (if t.enforces ∧ metered.2 = .red then slot' else slot'.turn, some metered.2)
  else (slot, none)

theorem view_storeBoth {ptbl : DualBuffered Policer} {key : UInt32} (itf itb : Policer)
    (h : (ptbl.view (gcnt key)).front.valid = true) :
    (storeBoth ptbl key itf itb).view = update ptbl.view (gcnt key)
      (((ptbl.view (gcnt key)).setFront itf).setBack itb) := by
  funext k
  unfold storeBoth view at *
  rw [store_bmp, store_bmp, find_eq, find_eq]
  by_cases hk : k = gcnt key
  · subst hk
    rw [update_self, ← slot_store_front ptbl.toSides itf h]
    exact slot_store_back_only _ linkmapstatOn _ _ itb
  · rw [update_of_ne hk]
    obtain ⟨ha, hb⟩ := ptbl.toSides.store_front_other linkmapstatOn
      (ptbl.dataSideBmp (gcnt key >>> 6)) itf hk
    obtain ⟨ha', hb'⟩ := store_back_other (ptbl.toSides.store itf
      (ptbl.toSides.findSide linkmapstatOn
        (ptbl.dataSideBmp (gcnt key >>> 6)) (gcnt key) false))
      linkmapstatOn (ptbl.dataSideBmp (gcnt key >>> 6)) itb hk
    exact slot_congr (ha'.trans ha) (hb'.trans hb) rfl

/-- A packet polices one slot and leaves every other slot of the table alone. -/
theorem view_police (t : Translator) (recalcCounter len key : UInt32)
    (ptbl : DualBuffered Policer) :
    ∃ ptbl', police t recalcCounter len key ptbl =
        some (ptbl', (policeSlot t recalcCounter len (ptbl.view (gcnt key))).2) ∧
      ptbl'.view = update ptbl.view (gcnt key)
        (policeSlot t recalcCounter len (ptbl.view (gcnt key))).1 := by
  have hback : ptbl.get (ptbl.find key true) =
      some (ptbl.view (gcnt key)).back := by
    rw [find_eq]
    exact get_findSide_back _ _ _ _
  unfold police policeSlot
  rw [hback, get_find_front]
  cases hvalid : (ptbl.view (gcnt key)).front.valid with
  | false =>
    rw [shown_of_unused hvalid]
    exact ⟨ptbl, rfl, (update_eq_self _ _).symm⟩
  | true =>
    have hview := fun itf itb => view_storeBoth itf itb hvalid
    rw [shown, if_pos (show valid _ = _ from hvalid)]
    have hswap : ∀ p : DualBuffered Policer, ∀ slot,
        p.view = update ptbl.view (gcnt key) slot →
        (p.swapSide key).view =
          update ptbl.view (gcnt key) slot.turn := by
      intro p slot hp
      rw [view_swapSide, hp, update_self, update_idem]
    cases henforces : t.enforces with
    | false => exact ⟨_, rfl, by simpa using hswap _ _ (hview _ _)⟩
    | true =>
      by_cases hred : (meter t.stamps recalcCounter len (replenish
          (ptbl.view (gcnt key)).front recalcCounter)
          (ptbl.view (gcnt key)).back).2 = .red
      · simp only [hred]
        exact ⟨_, rfl, hview _ _⟩
      · simp only [hred, if_true]
        exact ⟨_, rfl, hswap _ _ (hview _ _)⟩

def FilterState.entry (s : FilterState) (gid k : Nat) : Option (Slot Policer) :=
  (s.get gid).map (·.view k)

/-! ## 5. Rates -/

inductive Bucket
  | commit
  | excess
deriving DecidableEq, Repr

namespace Bucket

def color : Bucket → Color
  | commit => .green
  | excess => .yellow

def tokens : Bucket → Policer → UInt32
  | commit, p => p.commitRate
  | excess, p => p.excessRate

def burst : Bucket → Policer → UInt32
  | commit, p => p.commitBurstSize
  | excess, p => p.excessBurstSize

def rate : Bucket → Policer → UInt32
  | commit, p => p.commitInformationRate
  | excess, p => p.excessInformationRate

def taken (b : Bucket) (color : Color) (len : UInt32) : Nat :=
  if color = b.color then len.toNat else 0

end Bucket

/-- The contract of an entry, which no packet changes. -/
def SameRates (p q : Policer) : Prop :=
  ∀ b : Bucket, b.burst q = b.burst p ∧ b.rate q = b.rate p

theorem SameRates.trans {p q r : Policer} (h : SameRates p q) (h' : SameRates q r) :
    SameRates p r :=
  fun b => ⟨(h' b).1.trans (h b).1, (h' b).2.trans (h b).2⟩

/-- The record has no more tokens than its burst sizes. -/
def WithinBursts (p : Policer) : Prop :=
  ∀ b : Bucket, (b.tokens p).toNat ≤ (b.burst p).toNat

theorem replenish_sameRates (itf : Policer) (recalcCounter : UInt32) :
    SameRates itf (replenish itf recalcCounter) := by
  intro b
  unfold replenish
  dsimp only
  split <;> cases b <;> exact ⟨rfl, rfl⟩

theorem replenish_tokens {itf : Policer} (recalcCounter : UInt32) (b : Bucket)
    (h : (b.tokens itf).toNat ≤ (b.burst itf).toNat) :
    (b.tokens (replenish itf recalcCounter)).toNat ≤ (b.burst itf).toNat ∧
      (b.tokens (replenish itf recalcCounter)).toNat ≤
        (b.tokens itf).toNat + (b.rate itf).toNat * (recalcCounter - itf.epochW).toNat := by
  unfold replenish
  dsimp only
  split
  · cases b <;> exact refill_le _ _ _ _
  · exact ⟨h, Nat.le_add_right _ _⟩

theorem meter_bucket (stamps : Bool) (recalcCounter len : UInt32) (itf itb : Policer) (b : Bucket) :
    b.taken (meter stamps recalcCounter len itf itb).2 len ≤ (b.tokens itf).toNat ∧
      (b.tokens (meter stamps recalcCounter len itf itb).1).toNat =
        (b.tokens itf).toNat - b.taken (meter stamps recalcCounter len itf itb).2 len ∧
      SameRates itf (meter stamps recalcCounter len itf itb).1 := by
  unfold meter
  by_cases hgreen : len ≤ itf.commitRate
  · rw [if_pos hgreen]
    have hsub := UInt32.toNat_sub_of_le _ _ hgreen
    refine ⟨?_, ?_, fun b' => by cases b' <;> exact ⟨rfl, rfl⟩⟩
    · cases b
      · exact UInt32.le_iff_toNat_le.mp hgreen
      · exact Nat.zero_le _
    · cases b
      · exact hsub
      · rfl
  · rw [if_neg hgreen]
    by_cases hyellow : len ≤ itf.excessRate
    · rw [if_pos hyellow]
      have hsub := UInt32.toNat_sub_of_le _ _ hyellow
      refine ⟨?_, ?_, fun b' => by cases b' <;> exact ⟨rfl, rfl⟩⟩
      · cases b
        · exact Nat.zero_le _
        · exact UInt32.le_iff_toNat_le.mp hyellow
      · cases b
        · rfl
        · exact hsub
    · rw [if_neg hyellow]
      refine ⟨?_, ?_, fun b' => by cases b' <;> exact ⟨rfl, rfl⟩⟩
      · cases b <;> exact Nat.zero_le _
      · cases b <;> rfl

theorem meter_stamp (stamps : Bool) (recalcCounter len : UInt32) (itf itb : Policer) :
    if (meter stamps recalcCounter len itf itb).2 = .red then
      (meter stamps recalcCounter len itf itb).1.valid = itb.valid ∧
        (meter stamps recalcCounter len itf itb).1.epochW = itb.epochW
    else (meter stamps recalcCounter len itf itb).1.epochW =
      if stamps then recalcCounter else itb.epochW := by
  unfold meter
  by_cases hgreen : len ≤ itf.commitRate
  · simp [hgreen]
  · by_cases hyellow : len ≤ itf.excessRate <;> simp [hgreen, hyellow]

/-- **The stamp goes with the tokens.** A packet that has a colour finds one of the following.

* Green or yellow: the filter stamps what it writes, or the back has this second's stamp already.
* Red at an enforcer: there was nothing to fill up.
* Red at a marker: the back, which is swapped to the front, is out of use or has this second's
  stamp. -/
def Timely (t : Translator) (recalcCounter len : UInt32) (slot : Slot Policer) : Prop :=
  match (policeSlot t recalcCounter len slot).2 with
  | none => True
  | some .red =>
    if t.enforces then replenish slot.front recalcCounter = slot.front
    else slot.back.valid = false ∨ slot.back.epochW = recalcCounter
  | some _ => t.stamps = true ∨ slot.back.epochW = recalcCounter

instance (t : Translator) (recalcCounter len : UInt32) (slot : Slot Policer) :
    Decidable (Timely t recalcCounter len slot) := by
  unfold Timely
  split <;> infer_instance

variable {t : Translator} {slot : Slot Policer}

theorem front_policeSlot {recalcCounter len : UInt32}
    (hvalid : slot.front.valid = true) (htimely : Timely t recalcCounter len slot) (b : Bucket) :
    ((policeSlot t recalcCounter len slot).2 = some .red ∧
        (policeSlot t recalcCounter len slot).1.front = slot.front) ∨
      ∃ color, (policeSlot t recalcCounter len slot).2 = some color ∧
        b.taken color len ≤ (b.tokens (replenish slot.front recalcCounter)).toNat ∧
        (b.tokens (policeSlot t recalcCounter len slot).1.front).toNat =
          (b.tokens (replenish slot.front recalcCounter)).toNat - b.taken color len ∧
        SameRates slot.front (policeSlot t recalcCounter len slot).1.front ∧
        ((policeSlot t recalcCounter len slot).1.front.valid = true →
          (policeSlot t recalcCounter len slot).1.front.epochW = recalcCounter) := by
  obtain ⟨htaken, htokens, hrates⟩ :=
    meter_bucket t.stamps recalcCounter len (replenish slot.front recalcCounter) slot.back b
  have hstamp :=
    meter_stamp t.stamps recalcCounter len (replenish slot.front recalcCounter) slot.back
  have hsame := (replenish_sameRates slot.front recalcCounter).trans hrates
  unfold Timely at htimely
  unfold policeSlot at htimely ⊢
  rw [if_pos hvalid] at htimely ⊢
  dsimp only at htimely ⊢
  generalize meter t.stamps recalcCounter len (replenish slot.front recalcCounter) slot.back = m
    at htaken htokens hstamp hsame htimely ⊢
  obtain ⟨itb, color⟩ := m
  have hpass : color ≠ .red → (t.stamps = true ∨ slot.back.epochW = recalcCounter) →
      itb.epochW = recalcCounter := by
    rintro hcolor (hstamps | hback)
    · rw [if_neg hcolor, if_pos hstamps] at hstamp
      exact hstamp
    · rw [if_neg hcolor] at hstamp
      rw [hstamp, hback, ite_self]
  cases color with
  | green =>
    refine Or.inr ⟨.green, rfl, htaken, ?_⟩
    simpa using ⟨htokens, hsame, fun _ => hpass (by simp) htimely⟩
  | yellow =>
    refine Or.inr ⟨.yellow, rfl, htaken, ?_⟩
    simpa using ⟨htokens, hsame, fun _ => hpass (by simp) htimely⟩
  | red =>
    cases henforces : t.enforces with
    | true =>
      rw [henforces] at htimely
      exact Or.inl ⟨rfl, by simpa using htimely⟩
    | false =>
      rw [henforces] at htimely
      obtain ⟨hv, he⟩ : itb.valid = slot.back.valid ∧ itb.epochW = slot.back.epochW := hstamp
      have hepoch : itb.valid = true → itb.epochW = recalcCounter := by
        intro h
        rcases htimely with hback | hback
        · rw [hv, hback] at h
          exact Bool.noConfusion h
        · rw [he, hback]
      refine Or.inr ⟨.red, rfl, htaken, ?_⟩
      simpa using ⟨htokens, hsame, hepoch⟩

variable {s : FilterState} {r : Filtered}

theorem onFilter_cases {arrival : Arrival} (h : onFilter t s arrival = some r) :
    (r.state = s ∧ r.policed = none) ∨
      ∃ key len qos ptbl ptbl' color, s.get (teidGid key) = some ptbl ∧
        police t s.recalc.recalcCounter len key ptbl = some (ptbl', color) ∧
        r.state.ticks = s.recalc.ticks ∧
        r.state.flag = (verdict t qos color s.recalc.flag).1 ∧
        r.state.lookupTbl = update s.lookupTbl (teidGid key) (some ptbl') ∧
        r.policed = some ⟨key, len, color⟩ := by
  unfold onFilter at h
  cases hcheck : t.check arrival.pkt with
  | throws => simp [hcheck] at h
  | refuses =>
    simp only [hcheck, some.injEq] at h
    subst h
    exact Or.inl ⟨rfl, rfl⟩
  | admits key len =>
    simp only [hcheck] at h
    cases hlink : arrival.link key with
    | none =>
      simp only [hlink, some.injEq] at h
      subst h
      exact Or.inl ⟨rfl, rfl⟩
    | some qos =>
      simp only [hlink] at h
      cases hget : s.get (teidGid key) with
      | none =>
        simp only [hget, some.injEq] at h
        subst h
        exact Or.inl ⟨rfl, rfl⟩
      | some ptbl =>
        simp only [hget] at h
        cases hpolice : police t s.recalc.recalcCounter len key ptbl with
        | none => simp [hpolice] at h
        | some found =>
          simp only [hpolice, some.injEq] at h
          subst h
          exact Or.inr ⟨key, len, qos, ptbl, found.1, found.2, hget, hpolice, rfl, rfl, rfl, rfl⟩

theorem FilterState.ticks_le_recalc (s : FilterState) : s.ticks ≤ s.recalc.ticks := by
  unfold recalc
  split
  · exact Nat.le_succ _
  · exact Nat.le_refl _

theorem FilterState.entry_update {s s' : FilterState} {g gid k : Nat} {ptbl' : DualBuffered Policer}
    (h : s'.lookupTbl = update s.lookupTbl g (some ptbl')) (hslot : s.entry gid k = some slot) :
    s'.entry gid k = some (if gid = g then ptbl'.view k else slot) := by
  unfold entry get at *
  split at hslot
  · rename_i hgid
    rw [if_pos hgid, h]
    by_cases hg : gid = g
    · subst hg
      rw [update_self, if_pos rfl]
      rfl
    · rw [update_of_ne hg, if_neg hg]
      exact hslot
  · exact absurd hslot (by simp)

variable {event : Event} {gid k : Nat}

theorem processed_entry (h : processed t s event = some r) (hslot : s.entry gid k = some slot) :
    s.ticks ≤ r.state.ticks ∧
      ((r.meteredBy gid k = none ∧ r.state.entry gid k = some slot) ∨
        ∃ p, r.meteredBy gid k = some p ∧
          p.color = (policeSlot t r.state.recalcCounter p.len slot).2 ∧
          r.state.entry gid k = some (policeSlot t r.state.recalcCounter p.len slot).1) := by
  cases event with
  | trigger =>
    obtain rfl := some.inj h
    exact ⟨Nat.le_refl _, Or.inl ⟨rfl, hslot⟩⟩
  | packet arrival =>
    obtain ⟨r, hr, rfl⟩ := map_eq_some_iff.mp h
    rcases onFilter_cases hr with ⟨hstate, hpoliced⟩ |
      ⟨key, len, -, ptbl, ptbl', color, hget, hpolice, hticks, -, htbl, hpoliced⟩
    · refine ⟨Nat.le_of_eq (by rw [hstate]), Or.inl ⟨?_, ?_⟩⟩
      · unfold Filtered.meteredBy
        rw [hpoliced]
        rfl
      · rw [hstate]
        exact hslot
    · refine ⟨(s.ticks_le_recalc).trans (Nat.le_of_eq hticks.symm), ?_⟩
      obtain ⟨ptbl'', hpolice', hview⟩ := view_police t s.recalc.recalcCounter len key ptbl
      obtain ⟨rfl, hcolor⟩ := Prod.mk.inj (some.inj (hpolice.symm.trans hpolice'))
      have hentry := FilterState.entry_update htbl hslot
      have hcounter : r.state.recalcCounter = s.recalc.recalcCounter := congrArg UInt32.ofNat hticks
      have hfound : gid = teidGid key → ptbl.view k = slot := by
        rintro rfl
        unfold FilterState.entry at hslot
        rw [hget] at hslot
        exact some.inj hslot
      by_cases hmine : teidGid key = gid ∧ gcnt key = k
      · obtain ⟨rfl, rfl⟩ := hmine
        rw [hfound rfl] at hcolor hview
        refine Or.inr ⟨⟨key, len, color⟩, ?_, ?_, ?_⟩
        · simp [Filtered.meteredBy, hpoliced]
        · exact hcolor.trans (by rw [← hcounter]; rfl)
        · refine Eq.trans hentry ?_
          rw [if_pos rfl, hview, update_self, ← hcounter]
          rfl
      · refine Or.inl ⟨?_, ?_⟩
        · unfold Filtered.meteredBy
          rw [hpoliced]
          simpa using fun hg hk => hmine ⟨hg, hk⟩
        · refine Eq.trans hentry ?_
          by_cases hg : gid = teidGid key
          · have hk : k ≠ gcnt key := fun hk => hmine ⟨hg.symm, hk.symm⟩
            rw [if_pos hg, hview, update_of_ne hk, hfound hg]
          · rw [if_neg hg]

/-- The event is no packet of the entry, or one that finds the stamp with the tokens. -/
def TimelyEvent (t : Translator) (gid k : Nat) (s : FilterState) (event : Event) : Prop :=
  match s.entry gid k, processed t s event with
  | some slot, some r =>
    match r.meteredBy gid k with
    | some p => Timely t r.state.recalcCounter p.len slot
    | none => True
  | _, _ => True

instance (t : Translator) (gid k : Nat) (s : FilterState) (event : Event) :
    Decidable (TimelyEvent t gid k s event) := by
  unfold TimelyEvent
  split
  · split <;> infer_instance
  · infer_instance

/-- A packet that visits a bucket of an entry: the record it leaves in front, and the visit. -/
structure Visited (gid k : Nat) (b : Bucket) (r : Filtered) (slot slot' : Slot Policer)
    (v : Visit) : Prop where
  left : r.state.entry gid k = some slot'
  sameRates : SameRates slot.front slot'.front
  epochW : slot'.front.valid = true → slot'.front.epochW = UInt32.ofNat v.time
  time : v.time = r.state.ticks
  level_le_burst : v.level ≤ (b.burst slot.front).toNat
  level_le_gain : v.level ≤ (b.tokens slot.front).toNat +
    (b.rate slot.front).toNat * (UInt32.ofNat v.time - slot.front.epochW).toNat
  spent_le : v.spent ≤ v.level
  tokens : (b.tokens slot'.front).toNat = v.level - v.spent
  treated : ∀ a z, r.bytes gid k b.color a z ≤ if a ≤ v.time ∧ v.time ≤ z then v.spent else 0

theorem Filtered.bytes_eq_zero {p : Policed} {b : Bucket}
    (hp : r.meteredBy gid k = some p) (hcolor : p.color ≠ some b.color) (a z : Nat) :
    r.bytes gid k b.color a z = 0 := by
  rw [bytes, hp]
  exact if_neg fun hc => hcolor hc.2

theorem visited_or_not (hr : processed t s event = some r)
    (hslot : s.entry gid k = some slot) (htimely : TimelyEvent t gid k s event) (b : Bucket)
    (hin : slot.front.valid = true → (b.tokens slot.front).toNat ≤ (b.burst slot.front).toNat) :
    (∃ slot', r.state.entry gid k = some slot' ∧ slot'.front = slot.front ∧
        ∀ a z, r.bytes gid k b.color a z = 0) ∨
      slot.front.valid = true ∧ ∃ slot' v, Visited gid k b r slot slot' v := by
  rcases (processed_entry hr hslot).2 with ⟨hnone, hstay⟩ | ⟨p, hp, hcolor, hpoliced⟩
  · exact Or.inl ⟨slot, hstay, rfl, fun a z => by rw [Filtered.bytes, hnone]⟩
  have hslotTimely : Timely t r.state.recalcCounter p.len slot := by
    unfold TimelyEvent at htimely
    rw [hslot, hr] at htimely
    dsimp only at htimely
    rw [hp] at htimely
    exact htimely
  cases hvalid : slot.front.valid with
  | false =>
    have hout : policeSlot t r.state.recalcCounter p.len slot = (slot, none) :=
      if_neg (by rw [hvalid]; exact Bool.noConfusion)
    rw [hout] at hcolor hpoliced
    exact Or.inl ⟨slot, hpoliced, rfl, Filtered.bytes_eq_zero hp (by rw [hcolor]; simp)⟩
  | true =>
    rcases front_policeSlot hvalid hslotTimely b with
      ⟨hred, hfront⟩ | ⟨color, hpaid, htaken, htokens, hsame, hepoch⟩
    · refine Or.inl ⟨_, hpoliced, hfront, Filtered.bytes_eq_zero hp ?_⟩
      rw [hcolor, hred]
      cases b <;> decide
    · obtain ⟨hburst, hgain⟩ := replenish_tokens r.state.recalcCounter b (hin hvalid)
      refine Or.inr ⟨rfl, _, ⟨r.state.ticks, _, b.taken color p.len⟩, hpoliced, hsame, hepoch, rfl,
        hburst, hgain, htaken, htokens, fun a z => ?_⟩
      rw [Filtered.bytes, hp]
      dsimp only
      rw [hcolor, hpaid]
      by_cases hwindow : a ≤ r.state.ticks ∧ r.state.ticks ≤ z
      · by_cases hc : color = b.color <;> simp [hwindow, hc, Bucket.taken]
      · simp [hwindow]

theorem after_treatedBytes (t : Translator) (gid k : Nat) (b : Bucket) {p₀ : Policer} :
    ∀ (events : List Event) (s : FilterState) (slot : Slot Policer) (past : Option (Nat × Nat)),
      s.entry gid k = some slot → SameRates p₀ slot.front →
      (slot.front.valid = true → (b.tokens slot.front).toNat ≤ (b.burst slot.front).toNat ∧
        ∀ p ∈ past, p.1 ≤ s.ticks ∧ slot.front.epochW = UInt32.ofNat p.1 ∧
          (b.tokens slot.front).toNat = p.2) →
      EachStep (processRing t) (TimelyEvent t gid k) s events →
      ∃ vs, After (b.burst p₀).toNat (b.rate p₀).toNat past vs ∧
        ∀ a z, treatedBytes t gid k b.color a z s events ≤ spentIn a z vs := by
  intro events
  induction events with
  | nil => exact fun s slot past _ _ _ _ => ⟨[], After.nil past, fun _ _ => Nat.le_refl _⟩
  | cons event events ih =>
    intro s slot past hslot hrates hok hrun
    simp only [treatedBytes]
    cases hr : processed t s event with
    | none => exact ⟨[], After.nil past, fun _ _ => Nat.le_refl _⟩
    | some r =>
      dsimp only
      obtain ⟨htimely, hrest⟩ := hrun r.state (by rw [processRing, hr]; rfl)
      have hticks := (processed_entry hr hslot).1
      rcases visited_or_not hr hslot htimely b fun hv => (hok hv).1 with
        ⟨slot', hslot', hfront, hzero⟩ | ⟨hvalid, slot', v, hv⟩
      · -- the front is still the same, so the past is still the past
        rw [← hfront] at hrates hok
        obtain ⟨vs, hvs, hle⟩ := ih r.state slot' past hslot' hrates
          (fun h => ⟨(hok h).1, fun p hp => ((hok h).2 p hp).imp_left fun ht => ht.trans hticks⟩)
          hrest
        exact ⟨vs, hvs, fun a z => by rw [hzero a z, Nat.zero_add]; exact hle a z⟩
      · have hcap := hv.level_le_burst
        have hgain := hv.level_le_gain
        obtain ⟨vs, hvs, hle⟩ := ih r.state slot' (some (v.time, v.level - v.spent)) hv.left
          (hrates.trans hv.sameRates)
          (fun h => ⟨by rw [hv.tokens, (hv.sameRates b).1]; exact (Nat.sub_le _ _).trans hcap,
            by rintro _ ⟨⟩; exact ⟨Nat.le_of_eq hv.time, hv.epochW h, hv.tokens⟩⟩) hrest
        rw [(hrates b).1] at hcap
        rw [(hrates b).2] at hgain
        refine ⟨v :: vs, hvs.visit hcap hv.spent_le (Reaches.of_stamp (fun p hp => ?_) hgain),
          fun a z => Nat.add_le_add (hv.treated a z) (hle a z)⟩
        exact ((hok hvalid).2 p hp).imp_left fun ht => hv.time ▸ ht.trans hticks

/-- **The rates of the policers.** In a run in which every packet of an entry finds the stamp
with the tokens, the bytes treated as green between two values of the counter are at most the
burst size and what the seconds between them have earned, and so are the yellow ones. -/
theorem policers_rate (t : Translator) (s : FilterState) (events : List Event) (gid k : Nat)
    (slot : Slot Policer) (hslot : s.entry gid k = some slot)
    (hbursts : slot.front.valid = true → WithinBursts slot.front)
    (htimely : EachStep (processRing t) (TimelyEvent t gid k) s events) (a b : Nat) (hab : a ≤ b) :
    treatedBytes t gid k .green a b s events ≤ slot.front.commitBurstSize.toNat +
        slot.front.commitInformationRate.toNat * (b - a) ∧
      treatedBytes t gid k .yellow a b s events ≤ slot.front.excessBurstSize.toNat +
        slot.front.excessInformationRate.toNat * (b - a) := by
  have hbound : ∀ bucket : Bucket, treatedBytes t gid k bucket.color a b s events ≤
      (bucket.burst slot.front).toNat + (bucket.rate slot.front).toNat * (b - a) := by
    intro bucket
    obtain ⟨vs, hvs, hle⟩ := after_treatedBytes t gid k bucket events s slot none hslot
      (fun _ => ⟨rfl, rfl⟩) (fun hv => ⟨hbursts hv bucket, by simp⟩) htimely
    exact (hle a b).trans (hvs.spentIn_le hab)
  exact ⟨hbound .commit, hbound .excess⟩

/-- A tagged frame with a G-PDU in it, for the TEID and the address 0. -/
def gPdu : Nat → UInt8
  | 12 => 0x81
  | 16 => 0x08
  | 18 => 0x45
  | 46 => 0x30
  | 47 => 0xff
  | 54 => 0x45
  | _ => 0x00

def frame (tunnel len : UInt32) : Event := .packet ⟨⟨gPdu, tunnel + len⟩, fun _ => some 0⟩

def steadyPolicer : Policer :=
  { valid := true
    epochW := 0
    commitRate := 1000
    commitBurstSize := 1000
    commitInformationRate := 500
    excessRate := 0
    excessBurstSize := 0
    excessInformationRate := 0 }

def steadyState : FilterState where
  ticks := 0
  flag := 0
  lookupTbl := fun _ => some
    { dataSideA := fun _ => steadyPolicer
      dataSideB := fun _ => steadyPolicer
      dataSideBmp := fun _ => 0
      virtualClockCounter := 0
      virtualClockCounterPrv := 0
      dataNoticeBmp := fun _ => 0 }

/-- With red packets only where nothing is to be filled up, an enforcer keeps the rate. -/
theorem policers_rate_steady :
    treatedBytes translatorDecapEnforcer 0 0 .green 0 1 steadyState
        [frame 36 500, frame 36 700, .trigger, frame 36 900, frame 36 700] ≤ 1000 + 500 * (1 - 0) ∧
      treatedBytes translatorDecapEnforcer 0 0 .yellow 0 1 steadyState
        [frame 36 500, frame 36 700, .trigger, frame 36 900, frame 36 700] ≤ 0 + 0 * (1 - 0) :=
  policers_rate translatorDecapEnforcer steadyState
    [frame 36 500, frame 36 700, .trigger, frame 36 900, frame 36 700] 0 0
    ⟨steadyPolicer, steadyPolicer, false⟩ rfl
    (fun _ b => by cases b <;> decide) (by decide +kernel) 0 1 (by decide)

/-- The bucket is emptied, a second passes, and two packets that are too long come before one of
1000. -/
def overlongRun (tunnel : UInt32) : List Event :=
  [frame tunnel 500, frame tunnel 500, .trigger, frame tunnel 1400, frame tunnel 1400,
    frame tunnel 1000]

/-- What the burst and that second allow: 1500 bytes. -/
def steadyAllowance : Nat :=
  steadyPolicer.commitBurstSize.toNat + steadyPolicer.commitInformationRate.toNat * (1 - 0)

/-- **A second is paid out twice**: each filter has treated 2000 bytes as green. -/
theorem paid_twice :
    ¬treatedBytes translatorDecapEnforcer 0 0 .green 0 1 steadyState (overlongRun 36) ≤
        steadyAllowance ∧
      ¬treatedBytes translatorDecapMarker 0 0 .green 0 1 steadyState (overlongRun 36) ≤
        steadyAllowance ∧
      ¬treatedBytes translatorEncapEnforcer 0 0 .green 0 1 steadyState (overlongRun 0) ≤
        steadyAllowance ∧
      ¬treatedBytes translatorEncapMarker 0 0 .green 0 1 steadyState (overlongRun 0) ≤
        steadyAllowance := by
  decide +kernel

end MixiPgw.Tools
