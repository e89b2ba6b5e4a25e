/-
# The usage counters of the tools

`CounterIngress` and `CounterEgress` count the bytes and packets of the tunnels. What is counted
lies in two arrays of the filter and is published, each time the bytes reach the next megabyte, in
the counter table of the TEID's group.

THE ARRAYS HAVE ONE PLACE FOR THE LOWER 16 BITS OF A TEID, the tables one for each group of them.
Two tunnels whose TEIDs differ in the group only are counted together, and the sum is published for
both (`usage_per_teid_iff`).
-/
import Mathlib.Data.Set.Function
import MixiPgw.Tools.Encap

namespace MixiPgw.Tools.CounterFilter

open Bytes Lib Table List Function Option DualBuffered PktHeader

/-! ## 1. Packets -/

structure CounterLink where
  sgwTeidU : UInt32
  sgwIpv4 : UInt32

/-- What the TEID table of a group answers. -/
inductive Lookup
  /-- there is no table -/
  | missing
  /-- `End()` -/
  | fin
  | found (link : CounterLink)

/-- A packet, the TEID tables at that moment, and the time. A slot of the ring has room for 2048
bytes. -/
structure Arrival where
  pkt : PktHeader
  link : UInt32 → Lookup
  now : UInt32
  len_le : pkt.len.toNat ≤ 2048

/-- `GTPU(pkt)->tid`, in host byte order. -/
def teidIn (pkt : PktHeader) : UInt32 := bswap32 (wordAt pkt.data (pkt.gtpu + 4))

/-- `process_param_->Get(TBL_TEID, …)` and `Find`. -/
def Arrival.find (a : Arrival) : Lookup :=
  if teidGid (teidIn a.pkt) < tblSkeyMax then a.link (teidIn a.pkt) else .missing

def resum (data : Nat → UInt8) (ip : Nat) : Nat → UInt8 :=
  let cleared := writeAt data (ip + 10) [0, 0]
  writeAt cleared (ip + 10)
    (be16Bytes (Misc.wrapsum (Misc.checksum (fun i => cleared (ip + i)) 20 0)).toNat)

/-- The packet that `CounterEgress` sends to the SGW. -/
def toSgw (pkt : PktHeader) (nexthop : UInt32) (link : CounterLink) : PktHeader :=
  let tid := writeAt pkt.data (pkt.gtpu + 4) (bytesOf (bswap32 link.sgwTeidU))
  let src := writeAt tid (pkt.ip + 12) (bytesOf nexthop)
  let dst := writeAt src (pkt.ip + 16) (bytesOf link.sgwIpv4)
  ⟨swapMac (writeAt (resum dst pkt.ip) (pkt.udp + 6) [0, 0]), pkt.len⟩

/-- The packet that `CounterIngress` sends on. -/
def toTranslator (pkt : PktHeader) (nexthop : UInt32) : PktHeader :=
  ⟨swapMac (resum (writeAt pkt.data (pkt.ip + 16) (bytesOf nexthop)) pkt.ip), pkt.len⟩

/-- The error indication that `CounterIngress` answers a packet with if its TEID is not found. -/
def errorIndication (pkt : PktHeader) : PktHeader :=
  let tlen := pkt.gtpu + 12
  let ipDst := wordAt pkt.data (pkt.ip + 16)
  let dst := writeAt pkt.data (pkt.ip + 16) (bytesOf (wordAt pkt.data (pkt.ip + 12)))
  let src := writeAt dst (pkt.ip + 12) (bytesOf ipDst)
  let ip := resum (writeAt src (pkt.ip + 2) (be16Bytes ((tlen - 14) % 65536))) pkt.ip
  let dport := writeAt ip (pkt.udp + 2) [ip pkt.udp, ip (pkt.udp + 1)]
  let sport := writeAt dport pkt.udp [ip (pkt.udp + 2), ip (pkt.udp + 3)]
  let ulen := writeAt sport (pkt.udp + 4) (be16Bytes ((tlen - 14 - 20) % 65536))
  let udp := writeAt ulen (pkt.udp + 6) [0, 0]
  let teid := writeAt udp pkt.ipI (16 :: bytesOf (wordAt udp (pkt.gtpu + 4)))
  let peer := writeAt teid (pkt.ipI + 5) (133 :: be16Bytes 4 ++ bytesOf ipDst)
  let length := writeAt peer (pkt.gtpu + 2) (be16Bytes ((tlen - 14 - 20 - 8 - 4) % 65536))
  ⟨swapMac length, UInt32.ofNat tlen⟩

/-! ## 2. Counting -/

/-- `teid_counter_t`, without the fields that the filters do not write. -/
structure TeidCounter where
  valid : Bool
  epochW : UInt16
  sizeIngress : UInt64
  sizeEgress : UInt64
  countIngress : UInt64
  countEgress : UInt64
deriving DecidableEq, Repr

instance : Stat TeidCounter where
  valid := TeidCounter.valid
  setValid r v := { r with valid := v }
  zero := ⟨false, 0, 0, 0, 0, 0⟩
  valid_setValid _ _ := rfl
  valid_zero := rfl

inductive Direction
  /-- `CounterIngress` -/
  | ingress
  /-- `CounterEgress` -/
  | egress
deriving DecidableEq, Repr

structure Usage where
  bytes : Nat
  count : Nat
deriving DecidableEq, Repr

namespace Direction

/-- What a filter writes into the record at the back. -/
def record (size count : UInt64) (epoch : UInt16) : Direction → TeidCounter → TeidCounter
  | ingress, itb =>
    { itb with
      sizeIngress := size
      countIngress := count
      valid := linkmapstatOn
      epochW := epoch }
  | egress, itb =>
    { itb with
      sizeEgress := size
      countEgress := count
      epochW := epoch
      valid := linkmapstatOn }

def usage : Direction → TeidCounter → Usage
  | ingress, r => ⟨r.sizeIngress.toNat, r.countIngress.toNat⟩
  | egress, r => ⟨r.sizeEgress.toNat, r.countEgress.toNat⟩

@[simp] theorem usage_record (d : Direction) (size count : UInt64) (epoch : UInt16)
    (r : TeidCounter) : d.usage (d.record size count epoch r) = ⟨size.toNat, count.toNat⟩ := by
  cases d <;> rfl

@[simp] theorem valid_record (d : Direction) (size count : UInt64) (epoch : UInt16)
    (r : TeidCounter) : valid (d.record size count epoch r) = linkmapstatOn := by
  cases d <;> rfl

end Direction

/-- A filter with the counter tables of its direction, and the flag. -/
structure State where
  calcBuffer : Nat → UInt64
  countBuffer : Nat → UInt64
  lookupTbl : Nat → Option (DualBuffered TeidCounter)
  flag : UInt32

def State.get (s : State) (skey : Nat) : Option (DualBuffered TeidCounter) :=
  if skey < tblSkeyMax then s.lookupTbl skey else none

/-- `OnInitFilter`, with the tables that exist still empty. -/
def State.init (exist : Nat → Bool) : State where
  calcBuffer := fun _ => 0
  countBuffer := fun _ => 0
  lookupTbl := fun gid => if exist gid then some DualBuffered.clear else none
  flag := 0

def boundary (prevSize currSize : UInt64) : Bool :=
  0 < prevSize && 0 < currSize && prevSize >>> 20 < currSize >>> 20

/-- The end of both filters: count the packet and say whether it was published; `none` is the
exception. -/
def count (d : Direction) (s : State) (teid len now : UInt32) : Option (State × Bool) :=
  let gcnt := gcnt teid
  let prevSize := s.calcBuffer gcnt
  let currSize := prevSize + len.toUInt64
  let currCount := s.countBuffer gcnt + 1
  let counted :=
    { s with
      calcBuffer := update s.calcBuffer gcnt currSize
      countBuffer := update s.countBuffer gcnt currCount }
  if boundary prevSize currSize then
    match s.get (teidGid teid) with
    | none => some (counted, false)
    | some ptbl =>
      (ptbl.write teid (d.record currSize currCount now.toUInt16)).map fun ptbl' =>
        ({ counted with
          lookupTbl := update s.lookupTbl (teidGid teid) (some ptbl') }, true)
  else some (counted, false)

/-! ## 3. The filters -/

/-- A G-PDU, as `CounterIngress` checks it. -/
def isGpdu (pkt : PktHeader) : Bool :=
  pkt.data pkt.gtpu >>> 5 = 1 && pkt.data pkt.gtpu >>> 4 &&& 1 = 1 && pkt.data pkt.gtpu &&& 1 = 0 &&
    pkt.data (pkt.gtpu + 1) = 255

/-- `OnFilter`: the return code, the packet as it is afterwards, and whether it was published. -/
structure Counted where
  state : State
  rc : Int
  pkt : PktHeader
  published : Bool

def send (d : Direction) (s : State) (teid now : UInt32) (pkt : PktHeader) : Option Counted :=
  (count d { s with flag := s.flag ||| procNeedSend } teid pkt.len now).map fun r =>
    ⟨r.1, 0, pkt, r.2⟩

/-- `OnFilter`; `none` is an exception. -/
def onFilter (d : Direction) (nexthop : UInt32) (s : State) (a : Arrival) : Option Counted :=
  match d with
  | .egress =>
    match a.find with
    | .missing | .fin => some ⟨s, 0, a.pkt, false⟩
    | .found link => send d s (teidIn a.pkt) a.now (toSgw a.pkt nexthop link)
  | .ingress =>
    if isGpdu a.pkt = false then some ⟨s, -1, a.pkt, false⟩
    else if teidIn a.pkt = 0 then some ⟨s, -1, a.pkt, false⟩
    else
      match a.find with
      | .missing => some ⟨s, 0, a.pkt, false⟩
      | .fin => send d s (teidIn a.pkt) a.now (errorIndication a.pkt)
      | .found _ => send d s (teidIn a.pkt) a.now (toTranslator a.pkt nexthop)

def State.published (s : State) (d : Direction) (teid : UInt32) : Option Usage :=
  (s.get (teidGid teid)).bind fun ptbl => (ptbl.get (ptbl.find teid false)).map d.usage

/-! ## 4. Accounts -/

structure Account where
  own : Usage
  latest : Option Usage
deriving DecidableEq, Repr

def Account.publishedBytes (c : Account) : Nat := (c.latest.map Usage.bytes).getD 0

def Account.add (c : Account) (len : Nat) (published : Bool) : Account :=
  let own := ⟨c.own.bytes + len, c.own.count + 1⟩
  ⟨own, if published then some own else c.latest⟩

structure Monitor where
  state : State
  account : UInt32 → Account

def Monitor.init (exist : Nat → Bool) : Monitor := ⟨.init exist, fun _ => ⟨⟨0, 0⟩, none⟩⟩

def Monitor.step (d : Direction) (nexthop : UInt32) (m : Monitor) (a : Arrival) : Option Monitor :=
  (onFilter d nexthop m.state a).map fun r =>
    { state := { r.state with flag := r.state.flag &&& ~~~procNeedSend }
      account := update m.account (teidIn a.pkt)
        ((m.account (teidIn a.pkt)).add a.pkt.len.toNat r.published) }

def publicationThreshold : Nat := 2 ^ 20

/-- The TEID is published as its own packets came to, and not too late. -/
def Monitor.Exact (d : Direction) (m : Monitor) (teid : UInt32) : Prop :=
  m.state.published d teid = (m.account teid).latest ∧
    (m.account teid).own.bytes ≤ (m.account teid).publishedBytes + publicationThreshold

/-- The packet is a G-PDU of a TEID that is found, and what that has come to fits 64 bits. -/
structure Arrives (teids : Set UInt32) (m : Monitor) (a : Arrival) : Prop where
  gpdu : isGpdu a.pkt = true
  mem : teidIn a.pkt ∈ teids
  found : ∃ link, a.find = .found link
  bytes_lt : (m.account (teidIn a.pkt)).own.bytes + a.pkt.len.toNat < 2 ^ 64
  count_lt : (m.account (teidIn a.pkt)).own.count + 1 < 2 ^ 64

/-- **Usage is per TEID**: on every run of such packets, each TEID is published exactly. -/
def PerTeid (d : Direction) (nexthop : UInt32) (exist : Nat → Bool) (teids : Set UInt32) : Prop :=
  ∀ arrivals, EachStep (Monitor.step d nexthop) (Arrives teids) (.init exist) arrivals →
    Throughout (Monitor.step d nexthop) (fun m => ∀ teid ∈ teids, m.Exact d teid) (.init exist)
      arrivals

/-! ## 5. One packet -/

theorem State.published_eq (s : State) (d : Direction) (teid : UInt32) :
    s.published d teid = (s.get (teidGid teid)).bind fun ptbl => Option.map d.usage
      (shown linkmapstatOn (ptbl.view (gcnt teid)).front) := by
  unfold published
  congr 1
  funext ptbl
  rw [get_find_front]

def SameRecord (t t' : UInt32) : Prop :=
  teidGid t = teidGid t' ∧ gcnt t = gcnt t'

instance (t t' : UInt32) : Decidable (SameRecord t t') :=
  inferInstanceAs (Decidable (_ ∧ _))

structure Effect (d : Direction) (s : State) (teid len : UInt32) (s' : State) (published : Bool) :
    Prop where
  sizes : s'.calcBuffer = update s.calcBuffer (gcnt teid)
    (s.calcBuffer (gcnt teid) + len.toUInt64)
  counts : s'.countBuffer = update s.countBuffer (gcnt teid)
    (s.countBuffer (gcnt teid) + 1)
  exist : ∀ gid, (s'.get gid).isSome = (s.get gid).isSome
  when : published = (boundary (s.calcBuffer (gcnt teid))
    (s.calcBuffer (gcnt teid) + len.toUInt64) && (s.get (teidGid teid)).isSome)
  shows : ∀ t, s'.published d t =
    if published = true ∧ SameRecord t teid then
      some ⟨(s.calcBuffer (gcnt teid) + len.toUInt64).toNat, (s.countBuffer (gcnt teid) + 1).toNat⟩
    else s.published d t

variable {d : Direction} {teid len : UInt32}

theorem Effect.unpublished {s : State} (h : (boundary (s.calcBuffer (gcnt teid))
      (s.calcBuffer (gcnt teid) + len.toUInt64) &&
        (s.get (teidGid teid)).isSome) = false) :
    Effect d s teid len
      { s with
        calcBuffer := update s.calcBuffer (gcnt teid)
          (s.calcBuffer (gcnt teid) + len.toUInt64)
        countBuffer := update s.countBuffer (gcnt teid)
          (s.countBuffer (gcnt teid) + 1) } false :=
  ⟨rfl, rfl, fun _ => rfl, h.symm, fun _ => (if_neg fun hpub => Bool.noConfusion hpub.1).symm⟩

theorem shows_write {s s' : State} {size cnt : UInt64} {epoch : UInt16}
    {ptbl ptbl' : DualBuffered TeidCounter} (hget : s.get (teidGid teid) = some ptbl)
    (hview : ptbl'.view = putAt ptbl.view (gcnt teid) (d.record size cnt epoch))
    (htbl : ∀ gid, s'.get gid = if gid = teidGid teid then some ptbl' else s.get gid) (t : UInt32) :
    s'.published d t =
      if SameRecord t teid then some ⟨size.toNat, cnt.toNat⟩ else s.published d t := by
  rw [State.published_eq, State.published_eq, htbl]
  by_cases hgid : teidGid t = teidGid teid
  · rw [if_pos hgid, hgid, hget, bind_some, bind_some, hview, putAt_front]
    by_cases hgcnt : gcnt t = gcnt teid
    · rw [if_pos hgcnt, if_pos (show SameRecord t teid from ⟨hgid, hgcnt⟩), shown,
        if_pos (d.valid_record _ _ _ _), map_some, d.usage_record]
    · rw [if_neg hgcnt, if_neg fun h : SameRecord t teid => hgcnt h.2]
  · rw [if_neg hgid, if_neg fun h : SameRecord t teid => hgid h.1]

theorem count_effect (d : Direction) (s : State) (teid len now : UInt32) :
    ∃ s' published, count d s teid len now = some (s', published) ∧
      Effect d s teid len s' published := by
  unfold count
  dsimp only
  cases hboundary : boundary (s.calcBuffer (gcnt teid))
      (s.calcBuffer (gcnt teid) + len.toUInt64) with
  | false => exact ⟨_, _, rfl, .unpublished (by rw [hboundary, Bool.false_and])⟩
  | true =>
    cases hget : s.get (teidGid teid) with
    | none => exact ⟨_, _, rfl, .unpublished (by rw [hget, isSome_none, Bool.and_false])⟩
    | some ptbl =>
      obtain ⟨ptbl', hwrite, hview⟩ := ptbl.view_write teid
        (d.record (s.calcBuffer (gcnt teid) + len.toUInt64)
          (s.countBuffer (gcnt teid) + 1) now.toUInt16)
      have hgid : teidGid teid < tblSkeyMax := by
        by_contra hgid
        rw [State.get, if_neg hgid] at hget
        cases hget
      simp only [hwrite]
      refine ⟨_, _, rfl, rfl, rfl, fun gid => ?_, by rw [hboundary, hget]; rfl, fun t => ?_⟩
      · by_cases hg : gid = teidGid teid
        · subst hg
          rw [hget]
          simp [State.get, hgid]
        · simp [State.get, hg]
      · simp only [true_and]
        refine shows_write hget hview (fun gid => ?_) t
        by_cases hg : gid = teidGid teid
        · subst hg
          simp [State.get, hgid]
        · simp [State.get, hg]

def Direction.Refuses (d : Direction) (teid : UInt32) : Prop := d = .ingress ∧ teid = 0

variable {a : Arrival}

theorem onFilter_counted (nexthop : UInt32) (s : State) (hgpdu : isGpdu a.pkt = true)
    (hfound : ∃ link, a.find = .found link) (hteid : ¬d.Refuses (teidIn a.pkt)) :
    ∃ r, onFilter d nexthop s a = some r ∧
      Effect d s (teidIn a.pkt) a.pkt.len r.state r.published := by
  obtain ⟨link, hlink⟩ := hfound
  have hsend : ∀ pkt : PktHeader, pkt.len = a.pkt.len →
      ∃ r, send d s (teidIn a.pkt) a.now pkt = some r ∧
        Effect d s (teidIn a.pkt) a.pkt.len r.state r.published := by
    intro pkt hlen
    obtain ⟨s', published, hcount, heffect⟩ :=
      count_effect d { s with flag := s.flag ||| procNeedSend } (teidIn a.pkt) pkt.len a.now
    rw [hlen] at heffect
    refine ⟨⟨s', 0, pkt, published⟩, ?_, ⟨heffect.sizes, heffect.counts, heffect.exist,
      heffect.when, heffect.shows⟩⟩
    rw [send, hcount]
    rfl
  cases d with
  | egress =>
    obtain ⟨r, hr, heffect⟩ := hsend (toSgw a.pkt nexthop link) rfl
    refine ⟨r, ?_, heffect⟩
    rw [← hr]
    simp only [onFilter, hlink]
  | ingress =>
    obtain ⟨r, hr, heffect⟩ := hsend (toTranslator a.pkt nexthop) rfl
    refine ⟨r, ?_, heffect⟩
    have hnonzero : ¬teidIn a.pkt = 0 := fun h => hteid ⟨rfl, h⟩
    rw [← hr]
    simp [onFilter, hlink, hgpdu, hnonzero]

theorem step_counted (nexthop : UInt32) (m : Monitor) (hgpdu : isGpdu a.pkt = true)
    (hfound : ∃ link, a.find = .found link) (hteid : ¬d.Refuses (teidIn a.pkt)) :
    ∃ m' published, m.step d nexthop a = some m' ∧
      Effect d m.state (teidIn a.pkt) a.pkt.len m'.state published ∧
      m'.account = update m.account (teidIn a.pkt)
        ((m.account (teidIn a.pkt)).add a.pkt.len.toNat published) := by
  obtain ⟨r, hr, heffect⟩ := onFilter_counted nexthop m.state hgpdu hfound hteid
  refine ⟨_, r.published, by rw [Monitor.step, hr]; rfl, ?_, rfl⟩
  exact ⟨heffect.sizes, heffect.counts, heffect.exist, heffect.when, heffect.shows⟩

/-! ## 6. The books -/

theorem boundary_iff {prev : UInt64} (hlen : len.toNat ≤ 2048)
    (hfits : prev.toNat + len.toNat < 2 ^ 64) :
    (prev + len.toUInt64).toNat = prev.toNat + len.toNat ∧
      (boundary prev (prev + len.toUInt64) = true ↔
        prev.toNat / 2 ^ 20 < (prev.toNat + len.toNat) / 2 ^ 20) := by
  have hsum : (prev + len.toUInt64).toNat = prev.toNat + len.toNat := by
    rw [UInt64.toNat_add, UInt32.toNat_toUInt64, Nat.mod_eq_of_lt hfits]
  refine ⟨hsum, ?_⟩
  have hshift : ∀ x : UInt64, (x >>> 20).toNat = x.toNat / 2 ^ 20 := by
    intro x
    rw [UInt64.toNat_shiftRight, show (20 : UInt64).toNat % 64 = 20 from rfl,
      Nat.shiftRight_eq_div_pow]
  unfold boundary
  simp only [Bool.and_eq_true, decide_eq_true_eq, UInt64.lt_iff_toNat_lt, hshift, hsum,
    UInt64.toNat_zero]
  omega

theorem Effect.own {s s' : State} {published : Bool}
    {size cnt : Nat} (h : Effect d s teid len s' published) (hlen : len.toNat ≤ 2048)
    (hexist : (s.get (teidGid teid)).isSome = true)
    (hsize : (s.calcBuffer (gcnt teid)).toNat = size)
    (hcnt : (s.countBuffer (gcnt teid)).toNat = cnt)
    (hbytes : size + len.toNat < 2 ^ 64) (hcount : cnt + 1 < 2 ^ 64) :
    (s'.calcBuffer (gcnt teid)).toNat = size + len.toNat ∧
      (s'.countBuffer (gcnt teid)).toNat = cnt + 1 ∧
      (published = true ↔ size / 2 ^ 20 < (size + len.toNat) / 2 ^ 20) ∧
      s'.published d teid =
        if published then some ⟨size + len.toNat, cnt + 1⟩ else s.published d teid := by
  subst hsize hcnt
  obtain ⟨hsum, hboundary⟩ := boundary_iff hlen hbytes
  have hnext : (s.countBuffer (gcnt teid) + 1).toNat =
      (s.countBuffer (gcnt teid)).toNat + 1 := by
    exact Nat.mod_eq_of_lt hcount
  refine ⟨?_, ?_, ?_, ?_⟩
  · rw [h.sizes, update_self, hsum]
  · rw [h.counts, update_self, hnext]
  · rw [h.when, hexist, Bool.and_true, hboundary]
  · rw [h.shows, hsum, hnext]
    cases published <;> simp [SameRecord]

structure Booked (d : Direction) (m : Monitor) (t : UInt32) : Prop where
  exist : (m.state.get (teidGid t)).isSome = true
  sizes : (m.state.calcBuffer (gcnt t)).toNat = (m.account t).own.bytes
  counts : (m.state.countBuffer (gcnt t)).toNat = (m.account t).own.count
  shows : m.state.published d t = (m.account t).latest
  le : (m.account t).publishedBytes ≤ (m.account t).own.bytes
  megabyte : (m.account t).own.bytes / 2 ^ 20 = (m.account t).publishedBytes / 2 ^ 20

theorem Account.publishedBytes_add (c : Account) (len : Nat) (published : Bool) :
    (c.add len published).publishedBytes =
      if published then c.own.bytes + len else c.publishedBytes := by
  cases published <;> rfl

namespace Booked

variable {d : Direction} {m m' : Monitor} {a : Arrival} {published : Bool}

variable {t : UInt32}

theorem exact (h : Booked d m t) : m.Exact d t := by
  have hmegabyte := h.megabyte
  refine ⟨h.shows, ?_⟩
  unfold publicationThreshold
  omega

theorem init {exist : Nat → Bool} (hgroup : teidGid t < tblSkeyMax)
    (hexist : exist (teidGid t) = true) : Booked d (.init exist) t := by
  have hget : (State.init exist).get (teidGid t) = some DualBuffered.clear := by
    simp [State.init, State.get, hgroup, hexist]
  have hunused : valid (DualBuffered.clear.view (gcnt t) : Slot TeidCounter).front =
      !linkmapstatOn := by
    unfold Slot.front
    split <;> rfl
  refine ⟨?_, rfl, rfl, ?_, Nat.le_refl _, rfl⟩
  · exact congrArg Option.isSome hget
  · rw [State.published_eq]
    show ((State.init exist).get _).bind _ = none
    rw [hget, bind_some, shown_of_unused hunused]
    rfl

theorem own (h : Booked d m (teidIn a.pkt))
    (hbytes : (m.account (teidIn a.pkt)).own.bytes + a.pkt.len.toNat < 2 ^ 64)
    (hcount : (m.account (teidIn a.pkt)).own.count + 1 < 2 ^ 64)
    (heffect : Effect d m.state (teidIn a.pkt) a.pkt.len m'.state published)
    (haccount : m'.account = update m.account (teidIn a.pkt)
      ((m.account (teidIn a.pkt)).add a.pkt.len.toNat published)) :
    Booked d m' (teidIn a.pkt) := by
  obtain ⟨hsizes, hcounts, hwhen, hshows⟩ :=
    heffect.own a.len_le h.exist h.sizes h.counts hbytes hcount
  have hle := h.le
  have hmegabyte := h.megabyte
  have hmine : m'.account (teidIn a.pkt) =
      (m.account (teidIn a.pkt)).add a.pkt.len.toNat published := by
    rw [haccount, update_self]
  have hown : (m'.account (teidIn a.pkt)).own = ⟨(m.account (teidIn a.pkt)).own.bytes +
      a.pkt.len.toNat, (m.account (teidIn a.pkt)).own.count + 1⟩ := congrArg Account.own hmine
  have hpublished : (m'.account (teidIn a.pkt)).publishedBytes = _ :=
    (congrArg Account.publishedBytes hmine).trans (Account.publishedBytes_add _ _ _)
  refine ⟨by rw [heffect.exist, h.exist], ?_, ?_, ?_, ?_, ?_⟩
  · rw [hsizes, hown]
  · rw [hcounts, hown]
  · rw [hshows, hmine, h.shows]
    rfl
  · rw [hpublished, hown]
    dsimp only
    split <;> omega
  · rw [hpublished, hown]
    dsimp only
    cases published with
    | true => rfl
    | false =>
      have hsame := hwhen.not.mp Bool.false_ne_true
      simp only [Bool.false_eq_true, if_false]
      omega

theorem other (h : Booked d m t) (hgcnt : gcnt t ≠ gcnt (teidIn a.pkt))
    (heffect : Effect d m.state (teidIn a.pkt) a.pkt.len m'.state published)
    (haccount : m'.account = update m.account (teidIn a.pkt)
      ((m.account (teidIn a.pkt)).add a.pkt.len.toNat published)) : Booked d m' t := by
  have hsame : m'.account t = m.account t := by
    rw [haccount, update_of_ne fun hteid => hgcnt (by rw [hteid])]
  have hshows : m'.state.published d t = m.state.published d t := by
    rw [heffect.shows, if_neg fun hrecord => hgcnt hrecord.2.2]
  refine ⟨by rw [heffect.exist, h.exist], ?_, ?_, ?_, ?_, ?_⟩
  · rw [heffect.sizes, update_of_ne hgcnt, hsame, h.sizes]
  · rw [heffect.counts, update_of_ne hgcnt, hsame, h.counts]
  · rw [hshows, hsame, h.shows]
  · rw [hsame]
    exact h.le
  · rw [hsame]
    exact h.megabyte

theorem step {teids : Set UInt32} {nexthop : UInt32} (hinj : Set.InjOn gcnt teids)
    (hteid : ∀ t ∈ teids, ¬d.Refuses t) (h : ∀ t ∈ teids, Booked d m t) (ha : Arrives teids m a)
    (hstep : m.step d nexthop a = some m') : ∀ t ∈ teids, Booked d m' t := by
  obtain ⟨m₁, published, hm₁, heffect, haccount⟩ :=
    step_counted nexthop m ha.gpdu ha.found (hteid _ ha.mem)
  obtain rfl : m₁ = m' := Option.some.inj (hm₁.symm.trans hstep)
  intro t ht
  by_cases hmine : t = teidIn a.pkt
  · subst hmine
    exact (h _ ht).own ha.bytes_lt ha.count_lt heffect haccount
  · exact (h t ht).other (fun hgcnt => hmine (hinj ht ha.mem hgcnt)) heffect haccount

end Booked

/-! ## 7. What breaks them -/

/-- A G-PDU of 2048 bytes: IPv4 from port 2152 to port 2152, behind an Ethernet header without a
tag. -/
def gpduData (teid : UInt32) : Nat → UInt8
  | 12 => 0x08
  | 14 => 0x45
  | 16 => 0x07
  | 17 => 0xf2
  | 23 => 17
  | 34 => 0x08
  | 35 => 0x68
  | 36 => 0x08
  | 37 => 0x68
  | 38 => 0x07
  | 39 => 0xde
  | 42 => 0x30
  | 43 => 0xff
  | 44 => 0x07
  | 45 => 0xce
  | 46 => byteOf teid 3
  | 47 => byteOf teid 2
  | 48 => byteOf teid 1
  | 49 => byteOf teid 0
  | _ => 0x00

def gpduArrival (teid : UInt32) : Arrival where
  pkt := ⟨gpduData teid, 2048⟩
  link := fun _ => .found ⟨0, 0⟩
  now := 0
  len_le := Nat.le_refl _

theorem gtpu_gpduArrival (teid : UInt32) : (gpduArrival teid).pkt.gtpu = 42 := by
  have hvlan : (gpduArrival teid).pkt.lenVlan = 0 :=
    if_neg (show ¬be16 0x08 0x00 = 0x8100 by decide)
  have hip : (gpduArrival teid).pkt.ip = 14 := by rw [ip, hvlan]
  have hversion : (gpduArrival teid).pkt.data 14 = 0x45 := rfl
  have hlenIp : (gpduArrival teid).pkt.lenIp = 20 := by
    rw [lenIp, hip, hversion]
    decide
  rw [gtpu, udp, hip, hlenIp]

@[simp] theorem teidIn_gpduArrival (teid : UInt32) : teidIn (gpduArrival teid).pkt = teid := by
  have hword : wordAt (gpduArrival teid).pkt.data 46 =
    le32 (byteOf teid 3) (byteOf teid 2) (byteOf teid 1) (byteOf teid 0) := rfl
  rw [teidIn, gtpu_gpduArrival, hword, bswap32_le32, le32_byteOf]

theorem isGpdu_gpduArrival (teid : UInt32) : isGpdu (gpduArrival teid).pkt = true := by
  have hflags : (gpduArrival teid).pkt.data 42 = 0x30 := rfl
  have htype : (gpduArrival teid).pkt.data 43 = 0xff := rfl
  rw [isGpdu, gtpu_gpduArrival, hflags, htype]
  decide

theorem len_gpduArrival (teid : UInt32) : (gpduArrival teid).pkt.len.toNat = 2048 := rfl

theorem found_gpduArrival (h : teidGid teid < tblSkeyMax) :
    ∃ link, (gpduArrival teid).find = .found link := by
  refine ⟨⟨0, 0⟩, ?_⟩
  rw [Arrival.find, teidIn_gpduArrival, if_pos h]
  rfl

section

variable {d : Direction} {nexthop : UInt32} {teids : Set UInt32}

theorem eachStep_arrives (hgroups : ∀ t ∈ teids, teidGid t < tblSkeyMax) :
    ∀ (ts : List UInt32) (m : Monitor) (n : Nat), (∀ t ∈ ts, t ∈ teids) →
      (∀ t, (m.account t).own.bytes ≤ 2048 * n ∧ (m.account t).own.count ≤ n) →
      n + ts.length < 2 ^ 52 →
      EachStep (Monitor.step d nexthop) (Arrives teids) m (ts.map gpduArrival) := by
  intro ts
  induction ts with
  | nil => exact fun _ _ _ _ _ => trivial
  | cons t ts ih =>
    intro m n hts hown hn m' hm'
    have ht : t ∈ teids := hts t mem_cons_self
    obtain ⟨hbytes, hcount⟩ := hown t
    rw [length_cons] at hn
    constructor
    · refine ⟨isGpdu_gpduArrival t, ?_, found_gpduArrival (hgroups t ht), ?_, ?_⟩
      · rw [teidIn_gpduArrival]
        exact ht
      · rw [teidIn_gpduArrival, len_gpduArrival]
        omega
      · rw [teidIn_gpduArrival]
        omega
    · refine ih m' (n + 1) (fun t' ht' => hts t' (mem_cons_of_mem _ ht')) ?_ (by omega)
      obtain ⟨r, -, rfl⟩ := map_eq_some_iff.mp hm'
      intro t'
      rw [teidIn_gpduArrival, len_gpduArrival]
      dsimp only
      by_cases hmine : t' = t
      · subst hmine
        rw [update_self]
        dsimp only [Account.add]
        omega
      · obtain ⟨hbytes', hcount'⟩ := hown t'
        rw [update_of_ne hmine]
        omega

variable {exist : Nat → Bool} {m : Monitor} {t : UInt32}

theorem PerTeid.last (h : PerTeid d nexthop exist teids)
    (hgroups : ∀ t ∈ teids, teidGid t < tblSkeyMax) {ts : List UInt32} (hts : ∀ t ∈ ts, t ∈ teids)
    (hlen : ts.length < 2 ^ 52)
    (hrun : (ts.map gpduArrival).foldlM (Monitor.step d nexthop) (.init exist) = some m)
    (ht : t ∈ teids) : m.Exact d t :=
  (h _ (eachStep_arrives hgroups ts _ 0 hts (fun _ => ⟨Nat.le_refl _, Nat.le_refl _⟩)
    (by omega))).last hrun t ht

/-- The TEID is never published: its packets are refused, or its group has no table. -/
def Mute (d : Direction) (s : State) (t : UInt32) : Prop :=
  d.Refuses t ∨ s.get (teidGid t) = none

theorem mute_step (hgroup : teidGid t < tblSkeyMax) (hmute : Mute d m.state t) :
    ∃ m', m.step d nexthop (gpduArrival t) = some m' ∧ Mute d m'.state t ∧
      m'.account t = (m.account t).add 2048 false := by
  by_cases hteid : d.Refuses t
  · obtain ⟨rfl, rfl⟩ := hteid
    have hrefused : onFilter .ingress nexthop m.state (gpduArrival 0) =
        some ⟨m.state, -1, (gpduArrival 0).pkt, false⟩ := by
      unfold onFilter
      rw [if_neg (by rw [isGpdu_gpduArrival]; decide), if_pos (teidIn_gpduArrival 0)]
    refine ⟨_, by rw [Monitor.step, hrefused]; rfl, Or.inl ⟨rfl, rfl⟩, ?_⟩
    dsimp only
    rw [teidIn_gpduArrival, update_self]
    rfl
  · obtain hnone := hmute.resolve_left hteid
    obtain ⟨m', published, hm', heffect, haccount⟩ := step_counted nexthop m (isGpdu_gpduArrival t)
      (found_gpduArrival hgroup) (by rwa [teidIn_gpduArrival])
    rw [teidIn_gpduArrival] at heffect haccount
    obtain rfl : published = false := by
      rw [heffect.when, hnone]
      exact Bool.and_false _
    refine ⟨m', hm', Or.inr ?_, ?_⟩
    · have hexist := heffect.exist (teidGid t)
      rw [hnone] at hexist
      exact isNone_iff_eq_none.mp (by simpa using hexist)
    · rw [haccount, update_self]
      rfl

theorem PerTeid.not_mute (h : PerTeid d nexthop exist teids)
    (hgroups : ∀ t ∈ teids, teidGid t < tblSkeyMax) (ht : t ∈ teids) :
    ¬Mute d (State.init exist) t := by
  intro hmute
  obtain ⟨m, hrun, -, haccount⟩ : ∃ m, (replicate 513 (gpduArrival t)).foldlM
      (Monitor.step d nexthop) (.init exist) = some m ∧
      Mute d m.state t ∧ m.account t = ⟨⟨2048 * 513, 513⟩, none⟩ := by
    refine foldlM_replicate (n := 513)
      (P := fun k (m : Monitor) => Mute d m.state t ∧ m.account t = ⟨⟨2048 * k, k⟩, none⟩)
      (fun k _ m hm => ?_) 513 (Nat.le_refl _) (Monitor.init exist) ⟨hmute, rfl⟩
    obtain ⟨m', hm', hmute', haccount⟩ := mute_step (hgroups t ht) hm.1
    refine ⟨m', hm', hmute', ?_⟩
    rw [haccount, hm.2]
    rfl
  rw [← map_replicate] at hrun
  have hexact := h.last hgroups (fun t' ht' => by rwa [eq_of_mem_replicate ht'])
    (by rw [length_replicate]; decide) hrun ht
  have hbytes := hexact.2
  rw [haccount] at hbytes
  exact absurd hbytes (show ¬2048 * 513 ≤ 0 + 2 ^ 20 by decide)

/-- The packets of one TEID, as long as no megabyte is reached. -/
structure Quiet (t : UInt32) (size cnt k : Nat) (m : Monitor) : Prop where
  exist : (m.state.get (teidGid t)).isSome = true
  sizes : (m.state.calcBuffer (gcnt t)).toNat = size + 2048 * k
  counts : (m.state.countBuffer (gcnt t)).toNat = cnt + k
  own : (m.account t).own = ⟨2048 * k, k⟩

theorem Quiet.step {size cnt k : Nat} (nexthop : UInt32) (hgroup : teidGid t < tblSkeyMax)
    (hteid : ¬d.Refuses t) (hsize : size + 2048 * (k + 1) < 2 ^ 64) (hcnt : cnt + (k + 1) < 2 ^ 64)
    (h : Quiet t size cnt k m) :
    ∃ m', m.step d nexthop (gpduArrival t) = some m' ∧ Quiet t size cnt (k + 1) m' ∧
      ((size + 2048 * k) / 2 ^ 20 < (size + 2048 * (k + 1)) / 2 ^ 20 →
        m'.state.published d t = some ⟨size + 2048 * (k + 1), cnt + (k + 1)⟩ ∧
          (m'.account t).latest = some ⟨2048 * (k + 1), k + 1⟩) := by
  obtain ⟨m', published, hm', heffect, haccount⟩ := step_counted nexthop m (isGpdu_gpduArrival t)
    (found_gpduArrival hgroup) (by rwa [teidIn_gpduArrival])
  rw [teidIn_gpduArrival] at heffect haccount
  have hstep : size + 2048 * k + (gpduArrival t).pkt.len.toNat = size + 2048 * (k + 1) := by
    rw [len_gpduArrival, Nat.add_assoc, ← Nat.mul_succ]
  have hfits : size + 2048 * k + (gpduArrival t).pkt.len.toNat < 2 ^ 64 := by
    rw [hstep]
    exact hsize
  obtain ⟨hsizes, hcounts, hwhen, hshows⟩ :=
    heffect.own (gpduArrival t).len_le h.exist h.sizes h.counts hfits hcnt
  rw [hstep] at hsizes hwhen hshows
  have hadd : m'.account t = (m.account t).add 2048 published := by
    rw [haccount, update_self]
    rfl
  have hown : (m'.account t).own = ⟨2048 * (k + 1), k + 1⟩ := by
    rw [hadd]
    dsimp only [Account.add]
    rw [h.own]
    rfl
  refine ⟨m', hm', ⟨by rw [heffect.exist, h.exist], hsizes, hcounts, hown⟩, fun hreached => ?_⟩
  obtain rfl := hwhen.mpr hreached
  constructor
  · rw [hshows]
    rfl
  · rw [← hown, hadd]
    rfl

def sharedRun (t₁ t₂ : UInt32) : List UInt32 := t₁ :: replicate 511 t₂

/-- Two TEIDs in one place: the first megabyte is published for the second TEID. -/
theorem shared_place (d : Direction) (nexthop : UInt32) (exist : Nat → Bool) {t₁ t₂ : UInt32}
    (hne : t₁ ≠ t₂) (hgcnt : gcnt t₁ = gcnt t₂)
    (hgroup₁ : teidGid t₁ < tblSkeyMax) (hgroup₂ : teidGid t₂ < tblSkeyMax)
    (hexist : exist (teidGid t₂) = true) (hteid₁ : ¬d.Refuses t₁) (hteid₂ : ¬d.Refuses t₂) :
    ∃ m, ((sharedRun t₁ t₂).map gpduArrival).foldlM (Monitor.step d nexthop) (.init exist) =
        some m ∧
      m.state.published d t₂ = some ⟨2 ^ 20, 512⟩ ∧
      (m.account t₂).latest = some ⟨2 ^ 20 - 2048, 511⟩ := by
  obtain ⟨m₁, published, hm₁, heffect, haccount⟩ := step_counted nexthop (.init exist)
    (isGpdu_gpduArrival t₁) (found_gpduArrival hgroup₁) (by rwa [teidIn_gpduArrival])
  rw [teidIn_gpduArrival] at heffect haccount
  have hstart : Quiet t₂ 2048 1 0 m₁ := by
    refine ⟨?_, ?_, ?_, ?_⟩
    · rw [heffect.exist]
      exact (Booked.init (d := d) hgroup₂ hexist).exist
    · rw [heffect.sizes, hgcnt, update_self]
      show ((0 : UInt64) + (2048 : UInt32).toUInt64).toNat = 2048
      decide
    · rw [heffect.counts, hgcnt, update_self]
      rfl
    · rw [haccount, update_of_ne hne.symm]
      rfl
  obtain ⟨m, hrun, hm⟩ := foldlM_replicate (n := 511)
    (P := fun k m => Quiet t₂ 2048 1 k m ∧ (k = 511 →
      m.state.published d t₂ = some ⟨2 ^ 20, 512⟩ ∧
        (m.account t₂).latest = some ⟨2 ^ 20 - 2048, 511⟩))
    (fun k hk m hm => by
      obtain ⟨m', hm', hquiet, hpublished⟩ := hm.1.step nexthop hgroup₂ hteid₂ (by omega) (by omega)
      refine ⟨m', hm', hquiet, fun hlast => ?_⟩
      obtain rfl : k = 510 := by omega
      exact hpublished (by decide))
    511 (Nat.le_refl _) m₁ ⟨hstart, fun h => absurd h (by decide)⟩
  refine ⟨m, ?_, hm.2 rfl⟩
  rw [sharedRun, map_cons, map_replicate, foldlM_cons, hm₁]
  exact hrun

end

/-- **Usage is per TEID exactly for TEIDs that differ in their lower 16 bits**, whose groups have a
counter table, and that are not 0 at the ingress. -/
theorem usage_per_teid_iff (d : Direction) (nexthop : UInt32) (exist : Nat → Bool)
    (teids : Set UInt32) (hgroups : ∀ t ∈ teids, teidGid t < tblSkeyMax) :
    PerTeid d nexthop exist teids ↔
      Set.InjOn gcnt teids ∧ (∀ t ∈ teids, exist (teidGid t) = true) ∧
        (d = .ingress → 0 ∉ teids) := by
  constructor
  · intro h
    have hteid : ∀ t ∈ teids, ¬d.Refuses t :=
      fun t ht hrefuses => h.not_mute hgroups ht (Or.inl hrefuses)
    have hexist : ∀ t ∈ teids, exist (teidGid t) = true := by
      intro t ht
      by_contra hno
      refine h.not_mute hgroups ht (Or.inr ?_)
      simp [State.get, State.init, hno]
    refine ⟨?_, hexist, fun hd h0 => hteid 0 h0 ⟨hd, rfl⟩⟩
    intro t₁ ht₁ t₂ ht₂ hgcnt
    by_contra hne
    obtain ⟨m, hrun, hshown, hlatest⟩ := shared_place d nexthop exist hne hgcnt
      (hgroups t₁ ht₁) (hgroups t₂ ht₂) (hexist t₂ ht₂) (hteid t₁ ht₁) (hteid t₂ ht₂)
    have hmem : ∀ t ∈ sharedRun t₁ t₂, t ∈ teids := by
      intro t ht
      rcases mem_cons.mp ht with rfl | ht
      · exact ht₁
      · rwa [eq_of_mem_replicate ht]
    have hlen : (sharedRun t₁ t₂).length < 2 ^ 52 := by
      rw [sharedRun, length_cons, length_replicate]
      decide
    have hexact := (h.last hgroups hmem hlen hrun ht₂).1
    rw [hshown, hlatest] at hexact
    exact absurd hexact (by decide)
  · rintro ⟨hinj, hexist, hzero⟩ arrivals harrives
    have hteid : ∀ t ∈ teids, ¬d.Refuses t := by
      rintro t ht ⟨hd, rfl⟩
      exact hzero hd ht
    have hbooked := throughout_of_eachStep
      (fun m a m' hm ha hm' => Booked.step hinj hteid hm ha hm')
      (fun t ht => Booked.init (hgroups t ht) (hexist t ht)) harrives
    exact hbooked.mono fun m hm t ht => (hm t ht).exact

theorem usage_per_teid_one_group : PerTeid .ingress 0 (fun _ => true) {0x00010005, 0x00010006} := by
  have hgroups : ∀ t ∈ ({0x00010005, 0x00010006} : Set UInt32), teidGid t < tblSkeyMax := by
    rintro t (rfl | rfl) <;> decide
  refine (usage_per_teid_iff .ingress 0 (fun _ => true) _ hgroups).mpr
    ⟨?_, fun _ _ => rfl, fun _ h => ?_⟩
  · rintro _ (rfl | rfl) _ (rfl | rfl) h
    · rfl
    · cases h
    · cases h
    · rfl
  · rcases h with h | h <;> exact absurd h (by decide)

/-- **Two TEIDs of different groups are counted together**: one packet of 2048 bytes of the TEID
`0x00010005` and 511 of `0x00020005`. -/
theorem two_groups_counted_together :
    ∃ m m', (((sharedRun 0x00010005 0x00020005).map gpduArrival).foldlM (Monitor.step .ingress 0)
          (.init fun _ => true) = some m ∧
        m.state.published .ingress 0x00020005 = some ⟨2 ^ 20, 512⟩ ∧
        (m.account 0x00020005).latest = some ⟨2 ^ 20 - 2048, 511⟩) ∧
      ((sharedRun 0x00010005 0x00020005).map gpduArrival).foldlM (Monitor.step .egress 0)
          (.init fun _ => true) = some m' ∧
        m'.state.published .egress 0x00020005 = some ⟨2 ^ 20, 512⟩ ∧
        (m'.account 0x00020005).latest = some ⟨2 ^ 20 - 2048, 511⟩ := by
  have hne : (0x00010005 : UInt32) ≠ 0x00020005 := by decide
  obtain ⟨m, hm⟩ := shared_place .ingress 0 (fun _ => true) hne
    (by decide) (by decide) (by decide) rfl (by rintro ⟨-, h⟩; exact absurd h (by decide))
    (by rintro ⟨-, h⟩; exact absurd h (by decide))
  obtain ⟨m', hm'⟩ := shared_place .egress 0 (fun _ => true) hne
    (by decide) (by decide) (by decide) rfl (by rintro ⟨h, -⟩; exact absurd h (by decide))
    (by rintro ⟨h, -⟩; exact absurd h (by decide))
  exact ⟨m, m', hm, hm'⟩

end MixiPgw.Tools.CounterFilter
