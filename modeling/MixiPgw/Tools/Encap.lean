/-
# The header template of the encapsulating filters

`TranslatorEncapEnforcer` and `TranslatorEncapMarker` keep one outer header, `encap_`, from packet
to packet. It is allocated without being cleared, `OnInitFilter` sets some of it, and each packet
overwrites what the filter computes for it before the header is copied in front of the packet.
`Tools/Policers` has how these filters meter a packet; this module has the bytes.

Two histories are told apart by one byte. `ip_tos` is written for a packet that is marked and never
taken back, so a packet that is not marked goes out with the mark of another subscriber
(`encap_alike_iff`). The flag word remembers as well: nothing ever clears `PROC_RFC4115_RED`.
-/
import MixiPgw.Data.Mbuf
import MixiPgw.Tools.Policers

namespace MixiPgw.Tools

open Bytes Lib Table Option List PktHeader Filtered FilterState Slot

/-! ## 1. Buffers -/

def swapMac (data : Nat → UInt8) (i : Nat) : UInt8 :=
  if i < 6 then data (i + 6) else if i < 12 then data (i - 6) else data i

/-- `Misc::Checksum`, which has the body of the dataplane's. -/
def Misc.checksum (data : Nat → UInt8) (len sum : Nat) : Nat := Data.checksum data len sum

/-- `Misc::Wrapsum`, as the number that is stored in network byte order. -/
def Misc.wrapsum (sum : Nat) : UInt16 := UInt16.ofNat (sum % 65536)

def makeNextHop (c f : UInt32) : UInt32 := (c &&& 0xff00ffff) ||| (f &&& 0xff) <<< (16 : UInt32)

def fidReflect : UInt32 := 0x04

/-! ## 2. The header -/

/-- The `ip_enc`, `udp_enc` and `gtp_enc` of an `encap_header_t`: numbers of 16 bits, which lie
there in network byte order, and words as the host reads them. -/
structure EncapHeader where
  ipVhl : UInt8
  ipTos : UInt8
  ipLen : UInt16
  ipId : UInt16
  ipOff : UInt16
  ipTtl : UInt8
  ipP : UInt8
  ipSum : UInt16
  ipSrc : UInt32
  ipDst : UInt32
  uhSport : UInt16
  uhDport : UInt16
  uhUlen : UInt16
  uhSum : UInt16
  gtpFlags : UInt8
  gtpType : UInt8
  gtpLength : UInt16
  tid : UInt32
deriving DecidableEq, Repr

/-- What the process parameters say about the next hop. -/
structure NextHop where
  /-- `USG_NEXT_HOP_IPV4` -/
  ipv4 : UInt32
  /-- `USG_NEXT_HOP_VLANID` -/
  vlanid : UInt32

/-- `sizeof(encap_header_t)`: the Ethernet header, the tag, and the three headers in it. -/
def encapHeaderSize : Nat := 14 + 4 + 20 + 8 + 8

def PktHeader.tlen (pkt : PktHeader) : UInt32 :=
  pkt.len - UInt32.ofNat pkt.lenVlan + UInt32.ofNat (encapHeaderSize - 14)

namespace EncapHeader

def ipEnc (e : EncapHeader) : List UInt8 :=
  [e.ipVhl, e.ipTos] ++ be16Bytes e.ipLen.toNat ++ be16Bytes e.ipId.toNat ++
    be16Bytes e.ipOff.toNat ++ [e.ipTtl, e.ipP] ++ be16Bytes e.ipSum.toNat ++ bytesOf e.ipSrc ++
    bytesOf e.ipDst

def udpEnc (e : EncapHeader) : List UInt8 :=
  be16Bytes e.uhSport.toNat ++ be16Bytes e.uhDport.toNat ++ be16Bytes e.uhUlen.toNat ++
    be16Bytes e.uhSum.toNat

def gtpEnc (e : EncapHeader) : List UInt8 :=
  [e.gtpFlags, e.gtpType] ++ be16Bytes e.gtpLength.toNat ++ bytesOf e.tid

variable (e : EncapHeader)

@[simp] theorem length_ipEnc : e.ipEnc.length = 20 := rfl

@[simp] theorem length_udpEnc : e.udpEnc.length = 8 := rfl

@[simp] theorem length_gtpEnc : e.gtpEnc.length = 8 := rfl

/-- `OnInitFilter`, on the memory that `malloc` returns. Of the flags it leaves three bits as they
are. -/
def onInitFilter (heap : EncapHeader) : EncapHeader :=
  { heap with
    uhSport := 2152
    uhDport := 2152
    gtpFlags := (heap.gtpFlags &&& 0x0e) ||| 0x30
    gtpType := 255 }

/-- What `OnFilter` writes before it looks at the IP version. -/
def setup (e : EncapHeader) (tlen : UInt32) : EncapHeader :=
  { e with
    ipLen := (tlen - 18).toUInt16
    ipVhl := 0x45
    uhSum := 0
    uhUlen := (tlen - 18 - 20).toUInt16
    gtpLength := (tlen - 18 - 20 - 8 - 8).toUInt16
    tid := 0
    gtpFlags := e.gtpFlags &&& 0xfd }

/-- What `OnFilter` writes before it copies the header: the addresses, and the checksum last. `ip`
is where the packet's own header is. -/
def address (e : EncapHeader) (hop : NextHop) (data : Nat → UInt8) (ip : Nat) : EncapHeader :=
  let addressed :=
    { e with
      ipId := UInt16.ofNat (be16 (data (ip + 4)) (data (ip + 5)))
      ipOff := UInt16.ofNat (be16 (data (ip + 6)) (data (ip + 7)))
      ipDst := hop.ipv4
      ipSrc := wordAt data (ip + 16)
      ipP := 17
      ipSum := 0 }
  { addressed with
    ipSum := Misc.wrapsum (Misc.checksum (fun i => addressed.ipEnc.getD i 0) 20 0) }

end EncapHeader

/-- The loop that moves the packet behind the headers, in steps of eight bytes and from its end. -/
def copyPayload (ip : Nat) : Nat → (Nat → UInt8) → Nat → UInt8
  | 0, data => data
  | n + 1, data =>
    copyPayload ip n (writeAt data (encapHeaderSize + 8 * n)
      ((range 8).map fun j => data (ip + 8 * n + j)))

/-- `iplen`, an `unsigned short`, after it has been rounded up. -/
def roundedIplen (iplen : Nat) : Nat := (iplen + (8 - iplen % 8)) % 65536

/-- The frame that goes out. The UDP and GTP-U headers are copied to where the PACKET's IP header
says that they are. -/
def encapsulated (pkt : PktHeader) (data : Nat → UInt8) (e : EncapHeader) (hop : NextHop) :
    PktHeader :=
  let iplen := roundedIplen (be16 (data (pkt.ip + 2)) (data (pkt.ip + 3)))
  let payload := copyPayload pkt.ip (iplen / 8) data
  let ip := writeAt payload (pkt.ip + pkt.vlanExtendSize) e.ipEnc
  let udp := writeAt ip (pkt.udp + pkt.vlanExtendSize) e.udpEnc
  let gtpu := writeAt udp (pkt.gtpu + pkt.vlanExtendSize) e.gtpEnc
  let vlan := writeAt gtpu 14 (be16Bytes (hop.vlanid.toNat % 65536))
  ⟨swapMac vlan, pkt.tlen⟩

/-! ## 3. The filters -/

/-- The fields of a `link_t` that the filters read. -/
structure LinkT where
  pgwTeidUc : UInt32
  qos : UInt16
deriving DecidableEq, Repr

/-- A packet, and what `Find` in the TEID table hands out for a key at that moment; `none` is no
table or `End()`. -/
structure EncapArrival where
  pkt : PktHeader
  link : UInt32 → Option LinkT

def EncapArrival.toArrival (a : EncapArrival) : Arrival :=
  ⟨a.pkt, fun key => (a.link key).map (·.qos)⟩

/-- A filter with its policer tables, and `encap_`. -/
structure EncapState where
  filter : FilterState
  encap : EncapHeader

/-- `OnFilter`: the return code and the packet as it is afterwards. -/
structure Encapped where
  state : EncapState
  rc : Int
  pkt : PktHeader

/-- The bits of the flag that metering a packet raises. -/
def Translator.raises (t : Translator) (color : Option Color) : UInt32 := (verdict t 0 color 0).1

/-- The packet gets as far as `PROC_NEED_SEND`. -/
def Filtered.sent (r : Filtered) (t : Translator) : Bool :=
  match r.policed with
  | none => false
  | some p => t.raises p.color = procNeedSend

inductive EncapFilter
  /-- `TranslatorEncapEnforcer` -/
  | enforcer
  /-- `TranslatorEncapMarker` -/
  | marker
deriving DecidableEq, Repr

namespace EncapFilter

def translator : EncapFilter → Translator
  | enforcer => translatorEncapEnforcer
  | marker => translatorEncapMarker

/-- What a filter writes into the packet before it looks at a table. The marker adds a tag, and
gives an error message, which comes from `0xdeadbeaf`, a source address. -/
def prepare (pkt : PktHeader) : EncapFilter → Nat → UInt8
  | enforcer => pkt.data
  | marker =>
    if wordAt pkt.extendVlan (pkt.ip + 12) = bswap32 0xdeadbeaf then
      writeAt pkt.extendVlan (pkt.ip + 12)
        (bytesOf (makeNextHop (wordAt pkt.extendVlan (pkt.ip + 16)) fidReflect))
    else pkt.extendVlan

variable (f : EncapFilter)

def tunnel (a : EncapArrival) : Option LinkT :=
  match f.translator.check a.pkt with
  | .admits key _ => a.link key
  | _ => none

/-- The header as the packet leaves it if it is not sent. -/
def started (e : EncapHeader) (a : EncapArrival) (tos : Option UInt8) : EncapHeader :=
  { e.setup a.pkt.tlen with
    tid := ((f.tunnel a).map fun link => bswap32 link.pgwTeidUc).getD 0
    ipTos := tos.getD e.ipTos }

def fill (hop : NextHop) (e : EncapHeader) (a : EncapArrival) (tos : Option UInt8) : EncapHeader :=
  (f.started e a tos).address hop (f.prepare a.pkt) a.pkt.ip

variable (hop : NextHop) (s : EncapState) (a : EncapArrival)

/-- The rest of `OnFilter`, for a packet that has been metered. -/
def finish (r : Filtered) : Encapped :=
  if r.sent f.translator then
    { state := ⟨r.state, f.fill hop s.encap a r.tos⟩
      rc := r.rc
      pkt := encapsulated a.pkt (f.prepare a.pkt) (f.fill hop s.encap a r.tos) hop }
  else
    { state := ⟨r.state, f.started s.encap a r.tos⟩
      rc := r.rc
      pkt := ⟨f.prepare a.pkt, a.pkt.len⟩ }

/-- `OnFilter`; `none` is an exception. -/
def onFilter : Option Encapped :=
  (Tools.onFilter f.translator s.filter a.toArrival).map (f.finish hop s a)

end EncapFilter

/-- What happens to a filter: the one-second event, another thread's writes to the policer tables,
or a packet. -/
inductive EncapEvent
  | trigger
  | tables (lookupTbl : Nat → Option (DualBuffered Policer))
  | packet (a : EncapArrival)

namespace EncapFilter

variable (f : EncapFilter) (hop : NextHop) (s : EncapState)

def processRing :
    EncapEvent → Option EncapState
  | .trigger =>
    some { s with filter := { s.filter with flag := s.filter.flag ||| procTrigger1sEvent } }
  | .tables lookupTbl => some { s with filter := { s.filter with lookupTbl := lookupTbl } }
  | .packet a =>
    (f.onFilter hop s a).map fun r =>
      { r.state with
        filter := { r.state.filter with flag := r.state.filter.flag &&& ~~~procNeedSend } }

def run (history : List EncapEvent) : Option EncapState :=
  history.foldlM (f.processRing hop) s

end EncapFilter

def EncapState.init (lookupTbl : Nat → Option (DualBuffered Policer)) (heap : EncapHeader) :
    EncapState :=
  ⟨⟨0, 0, lookupTbl⟩, heap.onInitFilter⟩

/-! ## 4. Metering -/

structure Metering where
  rc : Int
  tos : Option UInt8
  policed : Option Policed

def Filtered.metering (r : Filtered) : Metering := ⟨r.rc, r.tos, r.policed⟩

/-- How a packet is metered by the entries of its key: `link` is the TEID table's and `entry` the
policer table's. -/
def meterBy (t : Translator) (recalcCounter : UInt32) (pkt : PktHeader)
    (link : UInt32 → Option UInt16) (entry : UInt32 → Option (Slot Policer)) : Option Metering :=
  match t.check pkt with
  | .throws => none
  | .refuses => some ⟨-1, none, none⟩
  | .admits key len =>
    match link key, entry key with
    | some qos, some slot =>
      let color := (policeSlot t recalcCounter len slot).2
      some ⟨0, (verdict t qos color 0).2, some ⟨key, len, color⟩⟩
    | _, _ => some ⟨0, none, none⟩

variable (t : Translator)

theorem verdict_eq (qos : UInt16) (color : Option Color) (flag : UInt32) :
    verdict t qos color flag = (flag ||| t.raises color, (verdict t qos color 0).2) := by
  unfold Translator.raises verdict
  cases t.enforces <;> rcases color with _ | _ | _ | _ <;> simp

def FilterState.entryOf (s : FilterState) (key : UInt32) : Option (Slot Policer) :=
  s.entry (teidGid key) (DualBuffered.gcnt key)

theorem onFilter_metering (s : FilterState) (a : Arrival) : (onFilter t s a).map metering =
      meterBy t s.recalc.recalcCounter a.pkt a.link s.entryOf := by
  unfold onFilter meterBy
  cases t.check a.pkt with
  | throws => rfl
  | refuses => rfl
  | admits key len =>
    dsimp only
    cases a.link key with
    | none => rfl
    | some qos =>
      unfold entryOf entry
      cases s.get (teidGid key) with
      | none => rfl
      | some ptbl =>
        obtain ⟨ptbl', hpolice, -⟩ := view_police t s.recalc.recalcCounter len key ptbl
        dsimp only [map_some]
        rw [hpolice]
        dsimp only
        rw [verdict_eq]
        rfl

/-- The bits of the flag that a packet writes itself. -/
def Metering.written (m : Metering) (t : Translator) : UInt32 :=
  match m.policed with
  | none => 0
  | some p => procTrigger1sEvent ||| t.raises p.color

theorem FilterState.recalc_flag (s : FilterState) :
    s.recalc.flag = s.flag &&& ~~~procTrigger1sEvent := by
  unfold recalc
  split
  · rfl
  · rename_i h
    exact (and_not_of_and_eq_zero (not_not.mp h)).symm

theorem onFilter_flag {t : Translator} {s : FilterState} {a : Arrival} {r : Filtered}
    (h : onFilter t s a = some r) :
    r.state.flag = match r.policed with
      | none => s.flag
      | some p => (s.flag &&& ~~~procTrigger1sEvent) ||| t.raises p.color := by
  rcases onFilter_cases h with ⟨hstate, hpoliced⟩ |
    ⟨key, len, qos, ptbl, ptbl', color, -, -, -, hflag, -, hpoliced⟩
  · rw [hpoliced, hstate]
  · rw [hpoliced, hflag, verdict_eq, s.recalc_flag]

theorem policeSlot_color (recalcCounter len : UInt32) {slot slot' : Slot Policer}
    (h : slot.front = slot'.front) :
    (policeSlot t recalcCounter len slot).2 = (policeSlot t recalcCounter len slot').2 := by
  have hmeter : ∀ itf itb itb' : Policer,
      (meter t.stamps recalcCounter len itf itb).2 =
        (meter t.stamps recalcCounter len itf itb').2 := by
    intro itf itb itb'
    unfold meter
    dsimp only
    split
    · rfl
    · split <;> rfl
  unfold policeSlot
  rw [h]
  split
  · exact congrArg some (hmeter _ _ _)
  · rfl

theorem meterBy_congr (recalcCounter : UInt32) (pkt : PktHeader)
    {link link' : UInt32 → Option UInt16} {entry entry' : UInt32 → Option (Slot Policer)}
    (h : ∀ key len, t.check pkt = .admits key len → link key = link' key ∧
      (entry key).map front = (entry' key).map front) :
    meterBy t recalcCounter pkt link entry = meterBy t recalcCounter pkt link' entry' := by
  unfold meterBy
  cases hcheck : t.check pkt with
  | throws => rfl
  | refuses => rfl
  | admits key len =>
    obtain ⟨hlink, hentry⟩ := h key len hcheck
    dsimp only
    rw [hlink]
    cases link' key with
    | none => rfl
    | some qos =>
      cases hslot : entry key with
      | none =>
        rw [hslot] at hentry
        rw [map_eq_none_iff.mp hentry.symm]
      | some slot =>
        rw [hslot] at hentry
        obtain ⟨slot', hslot', hfront⟩ := map_eq_some_iff.mp hentry.symm
        rw [hslot']
        dsimp only
        rw [policeSlot_color t recalcCounter len hfront.symm]

/-! ## 5. What a packet takes from the header -/

/-- What no packet changes: of the flags all but the bit for a sequence number, which each packet
clears. -/
def EncapHeader.kept (e : EncapHeader) : UInt8 × UInt16 × UInt16 × UInt8 × UInt8 :=
  (e.ipTtl, e.uhSport, e.uhDport, e.gtpFlags &&& 0xfd, e.gtpType)

namespace EncapFilter

variable {f : EncapFilter} {hop : NextHop} {e e₁ e₂ : EncapHeader} {a a₁ a₂ : EncapArrival}
  {tos : Option UInt8}

theorem kept_started : (f.started e a tos).kept = e.kept := by
  have hflags : e.gtpFlags &&& 0xfd &&& 0xfd = e.gtpFlags &&& 0xfd := by
    rw [UInt8.and_assoc, UInt8.and_self]
  unfold EncapHeader.kept started EncapHeader.setup
  dsimp only
  rw [hflags]

theorem kept_fill : (f.fill hop e a tos).kept = e.kept := by
  have hstarted : (f.started e a tos).kept = e.kept := kept_started
  exact hstarted

theorem ipTos_fill : (f.fill hop e a tos).ipTos = tos.getD e.ipTos := rfl

/-- All but `ip_tos` of the header comes from what no packet changes and from the packet
itself. -/
theorem fill_eq (hop : NextHop) (tos : Option UInt8) (hkept : e₁.kept = e₂.kept)
    (hpkt : a₁.pkt = a₂.pkt) (htunnel : f.tunnel a₁ = f.tunnel a₂) :
    (tos.getD e₁.ipTos = tos.getD e₂.ipTos → f.fill hop e₁ a₁ tos = f.fill hop e₂ a₂ tos) ∧
      (f.fill hop e₁ a₁ tos).udpEnc = (f.fill hop e₂ a₂ tos).udpEnc ∧
      (f.fill hop e₁ a₁ tos).gtpEnc = (f.fill hop e₂ a₂ tos).gtpEnc ∧
      (f.fill hop e₁ a₁ tos).ipDst = (f.fill hop e₂ a₂ tos).ipDst := by
  obtain ⟨httl, hsport, hdport, hflags, htype⟩ :
      e₁.ipTtl = e₂.ipTtl ∧ e₁.uhSport = e₂.uhSport ∧ e₁.uhDport = e₂.uhDport ∧
        e₁.gtpFlags &&& 0xfd = e₂.gtpFlags &&& 0xfd ∧ e₁.gtpType = e₂.gtpType := by
    simpa only [EncapHeader.kept, Prod.mk.injEq] using hkept
  unfold fill started EncapHeader.address EncapHeader.setup
  rw [hpkt, htunnel]
  dsimp only [EncapHeader.udpEnc, EncapHeader.gtpEnc]
  rw [httl, hsport, hdport, hflags, htype]
  refine ⟨fun htos => ?_, rfl, rfl, rfl⟩
  rw [htos]

end EncapFilter

variable {pkt : PktHeader}

theorem PktHeader.four_le_lenIp (h : pkt.lenIp ≠ 0) : 4 ≤ pkt.lenIp := by
  unfold lenIp at h ⊢
  split at h
  · rename_i hversion
    rw [if_pos hversion]
    omega
  · rename_i hversion
    rw [if_neg hversion]
    decide

variable (data : Nat → UInt8)

theorem swapMac_behind {i : Nat} (h : 12 ≤ i) : swapMac data i = data i := by
  unfold swapMac
  rw [if_neg (by omega), if_neg (by omega)]

/-- `ip_tos` of the frame that goes out, unless the packet's IP header claims to have no bytes. -/
theorem encapsulated_tos (e : EncapHeader) (hop : NextHop)
    (hvlan : pkt.lenVlan = 4) (hip : pkt.lenIp ≠ 0) :
    (encapsulated pkt data e hop).data 19 = e.ipTos := by
  have hlen := four_le_lenIp hip
  have hextend : pkt.vlanExtendSize = 0 := by
    unfold vlanExtendSize
    rw [if_neg (by omega)]
  have hat : pkt.ip = 18 := by
    unfold ip
    omega
  have hudp : 22 ≤ pkt.udp := by
    unfold udp
    omega
  have hgtpu : 22 ≤ pkt.gtpu := by
    unfold gtpu
    omega
  unfold encapsulated
  dsimp only
  rw [hextend, hat, swapMac_behind _ (by decide), writeAt_outside (by simp),
    writeAt_outside (by omega), writeAt_outside (by omega), writeAt_inside (by decide) (by simp)]
  rfl

theorem encapsulated_hidden {e₁ e₂ : EncapHeader} (hop : NextHop) (hip : pkt.lenIp = 0)
    (hudp : e₁.udpEnc = e₂.udpEnc) (hgtp : e₁.gtpEnc = e₂.gtpEnc) (hdst : e₁.ipDst = e₂.ipDst) :
    encapsulated pkt data e₁ hop = encapsulated pkt data e₂ hop := by
  have htail : ∀ k, 16 ≤ k → e₁.ipEnc.getD k 0 = e₂.ipEnc.getD k 0 := by
    intro k hk
    obtain ⟨k, rfl⟩ := Nat.exists_eq_add_of_le' hk
    show (bytesOf e₁.ipDst).getD k 0 = (bytesOf e₂.ipDst).getD k 0
    rw [hdst]
  have hbytes : ∀ (d : Nat → UInt8) (ip : Nat),
      writeAt (writeAt (writeAt d ip e₁.ipEnc) ip e₁.udpEnc) (ip + 8) e₁.gtpEnc =
        writeAt (writeAt (writeAt d ip e₂.ipEnc) ip e₂.udpEnc) (ip + 8) e₂.gtpEnc := by
    intro d ip
    rw [hudp, hgtp]
    funext i
    apply writeAt_congr
    intro hgtpu
    apply writeAt_congr
    intro hhead
    rw [EncapHeader.length_gtpEnc] at hgtpu
    rw [EncapHeader.length_udpEnc] at hhead
    by_cases hrest : i < ip ∨ ip + 20 ≤ i
    · rw [writeAt_outside hrest, writeAt_outside hrest]
    · have hin : i < ip + 20 := by omega
      rw [writeAt_inside (by omega) hin, writeAt_inside (by omega) hin, htail (i - ip) (by omega)]
  have hwhere : pkt.udp = pkt.ip ∧ pkt.gtpu = pkt.ip + 8 := by
    unfold gtpu udp
    omega
  obtain ⟨hu, hg⟩ := hwhere
  unfold encapsulated
  dsimp only
  rw [hg, hu, Nat.add_right_comm pkt.ip 8, hbytes]

/-! ## 6. Histories -/

namespace EncapFilter

variable {f : EncapFilter}

theorem lenVlan_of_admits {pkt : PktHeader} {key len : UInt32}
    (h : f.translator.check pkt = .admits key len) : pkt.lenVlan = 4 := by
  have hlens : pkt.lenVlan = 0 ∨ pkt.lenVlan = 4 ∨ pkt.lenVlan = 8 := by
    unfold lenVlan
    split
    · split
      · exact Or.inr (Or.inr rfl)
      · exact Or.inr (Or.inl rfl)
    · exact Or.inl rfl
  cases f with
  | enforcer =>
    by_contra hvlan
    have hthrows : checkEncapEnforcer pkt = .throws := if_pos hvlan
    exact Admission.noConfusion (hthrows.symm.trans h)
  | marker =>
    rcases hlens with hnone | hone | htwo
    · exact Admission.noConfusion ((checkEncapMarker_untagged hnone).symm.trans h)
    · exact hone
    · have hthrows : checkEncapMarker pkt = .throws := if_pos htwo
      exact Admission.noConfusion (hthrows.symm.trans h)

/-- The mark that an event writes into the header. -/
def mark (f : EncapFilter) (s : EncapState) : EncapEvent → Option UInt8
  | .packet a => (Tools.onFilter f.translator s.filter a.toArrival).bind tos
  | _ => none

/-- The marks of a history, of every subscriber's packets. -/
def marks (f : EncapFilter) (hop : NextHop) : EncapState → List EncapEvent → List UInt8
  | _, [] => []
  | s, event :: history =>
    match f.processRing hop s event with
    | none => []
    | some s' => (f.mark s event).toList ++ f.marks hop s' history

variable {hop : NextHop}

theorem processRing_encap {s s' : EncapState}
    {event : EncapEvent} (h : f.processRing hop s event = some s') :
    s'.encap.kept = s.encap.kept ∧ s'.encap.ipTos = (f.mark s event).getD s.encap.ipTos := by
  cases event with
  | trigger =>
    obtain rfl := some.inj h
    exact ⟨rfl, rfl⟩
  | tables lookupTbl =>
    obtain rfl := some.inj h
    exact ⟨rfl, rfl⟩
  | packet a =>
    obtain ⟨encapped, hencapped, rfl⟩ := map_eq_some_iff.mp h
    obtain ⟨r, hr, rfl⟩ := map_eq_some_iff.mp hencapped
    have hmark : f.mark s (.packet a) = r.tos := congrArg (Option.bind · tos) hr
    rw [hmark]
    dsimp only [finish]
    cases r.sent f.translator with
    | true => exact ⟨kept_fill, ipTos_fill⟩
    | false => exact ⟨kept_started, rfl⟩

theorem run_kept {s s' : EncapState}
    {history : List EncapEvent} (h : f.run hop s history = some s') :
    s'.encap.kept = s.encap.kept :=
  foldlM_invariant (fun _ _ _ hs hstep => (processRing_encap hstep).1.trans hs) rfl h

theorem run_tos :
    ∀ {history : List EncapEvent} {s s' : EncapState}, f.run hop s history = some s' →
      s'.encap.ipTos = (f.marks hop s history).getLastD s.encap.ipTos := by
  intro history
  induction history with
  | nil =>
    intro s s' h
    obtain rfl := some.inj h
    rfl
  | cons event history ih =>
    intro s s' h
    obtain ⟨s₁, hs₁, hrest⟩ := bind_eq_some_iff.mp (foldlM_cons.symm.trans h)
    have htos := (processRing_encap hs₁).2
    rw [ih hrest, htos]
    simp only [marks, hs₁]
    cases f.mark s event with
    | none => rfl
    | some tos => exact getLastD_cons.symm

/-! ## 7. Two histories -/

end EncapFilter

/-- A filter that is handed a flag, with the next packet. -/
def EncapState.handed (s : EncapState) (flag : UInt32) : EncapState :=
  { s with filter := { s.filter with flag := flag } }

@[simp] theorem EncapState.encap_handed (s : EncapState) (flag : UInt32) :
    (s.handed flag).encap = s.encap := rfl

namespace EncapFilter

theorem recalcCounter_handed {s₁ s₂ : EncapState} {flag₁ flag₂ : UInt32}
    (hcounter : s₁.filter.recalcCounter = s₂.filter.recalcCounter)
    (htrigger : flag₁ &&& procTrigger1sEvent = flag₂ &&& procTrigger1sEvent) :
    (s₁.handed flag₁).filter.recalc.recalcCounter =
      (s₂.handed flag₂).filter.recalc.recalcCounter := by
  have hrecalc : ∀ (s : EncapState) (flag : UInt32),
      (s.handed flag).filter.recalc.recalcCounter = s.filter.recalcCounter +
        if flag &&& procTrigger1sEvent ≠ 0 then 1 else 0 := by
    intro s flag
    unfold recalc recalcCounter EncapState.handed
    dsimp only
    split
    · exact UInt32.ofNat_add _ _
    · exact (UInt32.add_zero _).symm
  rw [hrecalc, hrecalc, hcounter, htrigger]

/-- What a packet leaves: the return code, the frame and the flag. -/
structure Output where
  rc : Int
  pkt : PktHeader
  flag : UInt32

def output (f : EncapFilter) (hop : NextHop) (s : EncapState) (a : EncapArrival) : Option Output :=
  (f.onFilter hop s a).map fun r => ⟨r.rc, r.pkt, r.state.filter.flag⟩

/-- Both tables show the same for the key of the packet. -/
def SameEntries (f : EncapFilter) (pkt : PktHeader) (s₁ : EncapState)
    (link₁ : UInt32 → Option LinkT) (s₂ : EncapState) (link₂ : UInt32 → Option LinkT) : Prop :=
  ∀ key len, f.translator.check pkt = .admits key len →
    link₁ key = link₂ key ∧
      (s₁.filter.entryOf key).map front = (s₂.filter.entryOf key).map front

variable {f : EncapFilter} {hop : NextHop} {pkt : PktHeader} {s₁ s₂ : EncapState}
  {link₁ link₂ : UInt32 → Option LinkT}

theorem SameEntries.tunnel (h : f.SameEntries pkt s₁ link₁ s₂ link₂) :
    f.tunnel ⟨pkt, link₁⟩ = f.tunnel ⟨pkt, link₂⟩ := by
  unfold EncapFilter.tunnel
  dsimp only
  cases hcheck : f.translator.check pkt with
  | throws => rfl
  | refuses => rfl
  | admits key len => exact (h key len hcheck).1

theorem SameEntries.metering (h : f.SameEntries pkt s₁ link₁ s₂ link₂)
    (hcounter : s₁.filter.recalc.recalcCounter = s₂.filter.recalc.recalcCounter) :
    (Tools.onFilter f.translator s₁.filter (EncapArrival.toArrival ⟨pkt, link₁⟩)).map
        metering =
      (Tools.onFilter f.translator s₂.filter (EncapArrival.toArrival ⟨pkt, link₂⟩)).map
        metering := by
  rw [onFilter_metering, onFilter_metering, hcounter]
  refine meterBy_congr _ _ _ fun key len hcheck => ?_
  obtain ⟨hlink, hentry⟩ := h key len hcheck
  exact ⟨congrArg (Option.map LinkT.qos) hlink, hentry⟩

variable {r₁ r₂ : Filtered}

theorem flag_eq_iff {t : Translator} {s₁ s₂ : FilterState} {a₁ a₂ : Arrival}
    (h₁ : Tools.onFilter t s₁ a₁ = some r₁) (h₂ : Tools.onFilter t s₂ a₂ = some r₂)
    (hmetering : r₁.metering = r₂.metering) :
    r₁.state.flag = r₂.state.flag ↔
      s₁.flag ||| r₁.metering.written t = s₂.flag ||| r₁.metering.written t := by
  have hpoliced : r₁.policed = r₂.policed := congrArg Metering.policed hmetering
  have hwritten : r₁.metering.written t = match r₁.policed with
      | none => 0
      | some p => procTrigger1sEvent ||| t.raises p.color := rfl
  rw [onFilter_flag h₁, onFilter_flag h₂, hwritten, ← hpoliced]
  cases r₁.policed with
  | none => simp only [UInt32.or_zero]
  | some p => exact and_not_or_eq_iff _ _ _ _

theorem lenVlan_of_sent {s : FilterState} {link : UInt32 → Option LinkT} {r : Filtered}
    (h : Tools.onFilter f.translator s (EncapArrival.toArrival ⟨pkt, link⟩) = some r)
    (hsent : r.sent f.translator = true) : pkt.lenVlan = 4 := by
  have hm := onFilter_metering f.translator s (EncapArrival.toArrival ⟨pkt, link⟩)
  rw [h] at hm
  dsimp only [EncapArrival.toArrival] at hm
  cases hcheck : f.translator.check pkt with
  | throws => simp [meterBy, hcheck] at hm
  | refuses =>
    have hpoliced : r.policed = none := by
      have hnone : r.metering = ⟨-1, none, none⟩ := by simpa [meterBy, hcheck] using hm
      exact congrArg Metering.policed hnone
    simp [sent, hpoliced] at hsent
  | admits key len => exact lenVlan_of_admits hcheck

variable (s : EncapState) (a : EncapArrival) (r : Filtered)

theorem finish_rc : (f.finish hop s a r).rc = r.rc := by
  unfold finish
  split <;> rfl

theorem finish_filter : (f.finish hop s a r).state.filter = r.state := by
  unfold finish
  split <;> rfl

/-- The frames of two histories differ where a packet that is not marked shows `ip_tos`. -/
theorem finish_pkt_eq_iff (hop : NextHop) (hkept : s₁.encap.kept = s₂.encap.kept)
    (htunnel : f.tunnel ⟨pkt, link₁⟩ = f.tunnel ⟨pkt, link₂⟩)
    (hmetering : r₁.metering = r₂.metering)
    (hvlan : r₁.sent f.translator = true → pkt.lenVlan = 4) :
    (f.finish hop s₁ ⟨pkt, link₁⟩ r₁).pkt = (f.finish hop s₂ ⟨pkt, link₂⟩ r₂).pkt ↔
      (r₁.sent f.translator = true → r₁.tos = none → pkt.lenIp ≠ 0 →
        s₁.encap.ipTos = s₂.encap.ipTos) := by
  have hpoliced : r₁.policed = r₂.policed := congrArg Metering.policed hmetering
  have htos : r₁.tos = r₂.tos := congrArg Metering.tos hmetering
  have hsame : r₂.sent f.translator = r₁.sent f.translator := by
    unfold sent
    rw [hpoliced]
  unfold finish
  rw [hsame, ← htos]
  cases hsent : r₁.sent f.translator with
  | false => simp
  | true =>
    have hpkts : (⟨pkt, link₁⟩ : EncapArrival).pkt = (⟨pkt, link₂⟩ : EncapArrival).pkt := rfl
    obtain ⟨hfill, hudp, hgtp, hdst⟩ := fill_eq hop r₁.tos hkept hpkts htunnel
    simp only [if_true, forall_const]
    constructor
    · intro hpkt hunmarked hip
      have hbyte := congrArg (fun p : PktHeader => p.data 19) hpkt
      rw [encapsulated_tos _ _ _ (hvlan hsent) hip, encapsulated_tos _ _ _ (hvlan hsent) hip,
        ipTos_fill, ipTos_fill, hunmarked] at hbyte
      exact hbyte
    · intro h
      by_cases hip : pkt.lenIp = 0
      · exact encapsulated_hidden _ _ hip hudp hgtp hdst
      · rw [hfill]
        cases htos' : r₁.tos with
        | none => exact h htos' hip
        | some tos => rfl

/-- **What a filter remembers.** Behind two histories that show the same entries for the key of a
packet, the packet leaves the same return code, frame and flag if and only if, unless it throws,
* the two flags agree on the bits that the packet does not write itself, and
* it is dropped, or marked, or its IP header claims to have no bytes, or the last marks that the
  two histories gave to ANY packet are the same. -/
theorem encap_alike_iff (f : EncapFilter) (hop : NextHop)
    (lookupTbl : Nat → Option (DualBuffered Policer)) (heap : EncapHeader)
    (history₁ history₂ : List EncapEvent) (s₁ s₂ : EncapState)
    (h₁ : f.run hop (.init lookupTbl heap) history₁ = some s₁)
    (h₂ : f.run hop (.init lookupTbl heap) history₂ = some s₂) (pkt : PktHeader)
    (link₁ link₂ : UInt32 → Option LinkT) (hentries : f.SameEntries pkt s₁ link₁ s₂ link₂)
    (hcounter : s₁.filter.recalcCounter = s₂.filter.recalcCounter) (flag₁ flag₂ : UInt32)
    (htrigger : flag₁ &&& procTrigger1sEvent = flag₂ &&& procTrigger1sEvent) :
    f.output hop (s₁.handed flag₁) ⟨pkt, link₁⟩ = f.output hop (s₂.handed flag₂) ⟨pkt, link₂⟩ ↔
      ∀ r, Tools.onFilter f.translator (s₁.handed flag₁).filter
          (EncapArrival.toArrival ⟨pkt, link₁⟩) = some r →
        flag₁ ||| r.metering.written f.translator = flag₂ ||| r.metering.written f.translator ∧
          (r.sent f.translator = true → r.tos = none → pkt.lenIp ≠ 0 →
            (f.marks hop (.init lookupTbl heap) history₁).getLastD heap.ipTos =
              (f.marks hop (.init lookupTbl heap) history₂).getLastD heap.ipTos) := by
  have htos₁ : s₁.encap.ipTos =
      (f.marks hop (.init lookupTbl heap) history₁).getLastD heap.ipTos := run_tos h₁
  have htos₂ : s₂.encap.ipTos =
      (f.marks hop (.init lookupTbl heap) history₂).getLastD heap.ipTos := run_tos h₂
  have hkept : (s₁.handed flag₁).encap.kept = (s₂.handed flag₂).encap.kept :=
    (run_kept h₁).trans (run_kept h₂).symm
  have hsame : f.SameEntries pkt (s₁.handed flag₁) link₁ (s₂.handed flag₂) link₂ := hentries
  have hmetering := hsame.metering (recalcCounter_handed hcounter htrigger)
  cases hr₁ : Tools.onFilter f.translator (s₁.handed flag₁).filter
      (EncapArrival.toArrival ⟨pkt, link₁⟩) with
  | none =>
    rw [hr₁] at hmetering
    have hr₂ := map_eq_none_iff.mp hmetering.symm
    simp [output, onFilter, hr₁, hr₂]
  | some r₁ =>
    rw [hr₁] at hmetering
    obtain ⟨r₂, hr₂, hr⟩ := map_eq_some_iff.mp hmetering.symm
    have hflag := flag_eq_iff hr₁ hr₂ hr.symm
    have hpkt := finish_pkt_eq_iff (f := f) hop hkept hsame.tunnel hr.symm (lenVlan_of_sent hr₁)
    have hrc : r₁.rc = r₂.rc := (congrArg Metering.rc hr).symm
    simp only [output, onFilter, hr₁, hr₂, map_some, some.injEq, Output.mk.injEq,
      finish_rc, finish_filter, hrc, true_and, forall_eq']
    rw [EncapState.encap_handed, EncapState.encap_handed, htos₁, htos₂] at hpkt
    exact (and_congr hpkt hflag).trans and_comm

theorem SameEntries.of_check {key len : UInt32} (hcheck : f.translator.check pkt = .admits key len)
    (hlink : link₁ key = link₂ key)
    (hentry : (s₁.filter.entryOf key).map front = (s₂.filter.entryOf key).map front) :
    f.SameEntries pkt s₁ link₁ s₂ link₂ := by
  intro key' len' hcheck'
  obtain ⟨rfl, rfl⟩ := Admission.admits.inj (hcheck.symm.trans hcheck')
  exact ⟨hlink, hentry⟩

end EncapFilter

def frameTo (host : UInt8) : PktHeader where
  data
    | 12 => 0x81
    | 16 => 0x08
    | 18 => 0x45
    | 34 => host
    | _ => 0x00
  len := 100

def expedited : UInt32 → Option LinkT := fun _ => some ⟨0x07, 0xb8⟩

/-- Subscriber 1 has tokens to borrow, subscriber 2 has tokens of its own, and all others none. -/
def threeSubscribers : Nat → Option (DualBuffered Policer) := fun _ =>
  let policer : Nat → Policer
    | 1 => { steadyPolicer with commitRate := 0, excessRate := 500, excessBurstSize := 500 }
    | 2 => steadyPolicer
    | _ => { steadyPolicer with commitRate := 0 }
  some
    { dataSideA := policer
      dataSideB := policer
      dataSideBmp := fun _ => 0
      virtualClockCounter := 0
      virtualClockCounterPrv := 0
      dataNoticeBmp := fun _ => 0 }

def zeroHeap : EncapHeader :=
  { ipVhl := 0, ipTos := 0, ipLen := 0, ipId := 0, ipOff := 0, ipTtl := 0, ipP := 0, ipSum := 0
    ipSrc := 0, ipDst := 0, uhSport := 0, uhDport := 0, uhUlen := 0, uhSum := 0
    gtpFlags := 0, gtpType := 0, gtpLength := 0, tid := 0 }

def firstHop : NextHop := ⟨0x01020304, 7⟩

namespace EncapFilter

def toHosts (hosts : List UInt8) : List EncapEvent :=
  hosts.map fun host => .packet ⟨frameTo host, expedited⟩

def afterHosts (f : EncapFilter) (hosts : List UInt8) : EncapState :=
  (f.run firstHop (.init threeSubscribers zeroHeap) (toHosts hosts)).getD
    (.init threeSubscribers zeroHeap)

theorem run_toHosts {f : EncapFilter} {hosts : List UInt8}
    (h : (f.run firstHop (.init threeSubscribers zeroHeap) (toHosts hosts)).isSome = true) :
    f.run firstHop (.init threeSubscribers zeroHeap) (toHosts hosts) =
      some (f.afterHosts hosts) := by
  obtain ⟨s, hs⟩ := isSome_iff_exists.mp h
  rw [afterHosts, hs]
  rfl

/-- The enforcer sends subscriber 1 the same frame whether or not subscriber 2 had one before. -/
theorem encap_alike_marked :
    enforcer.output firstHop ((enforcer.afterHosts [2]).handed 0) ⟨frameTo 1, expedited⟩ =
      enforcer.output firstHop ((enforcer.afterHosts []).handed 0) ⟨frameTo 1, expedited⟩ := by
  refine (encap_alike_iff enforcer firstHop threeSubscribers zeroHeap (toHosts [2]) (toHosts [])
    _ _ (run_toHosts (by decide +kernel)) (run_toHosts rfl) (frameTo 1) expedited expedited
    (SameEntries.of_check (show _ = Admission.admits 1 100 by decide +kernel) rfl
      (by decide +kernel)) (by decide +kernel) 0 0 rfl).mpr fun r _ => ⟨rfl, fun _ _ _ => ?_⟩
  decide +kernel

/-- A packet to subscriber 2 leaves something else after packets to `hosts` than after none,
although the tables show the same for it. -/
structure ToldApart {β : Type} (f : EncapFilter) (hosts : List UInt8) (view : Output → β)
    (x y : β) : Prop where
  run : f.run firstHop (.init threeSubscribers zeroHeap) (toHosts hosts) =
    some (f.afterHosts hosts)
  entries : f.SameEntries (frameTo 2) (f.afterHosts hosts) expedited (f.afterHosts []) expedited
  counter : (f.afterHosts hosts).filter.recalcCounter = (f.afterHosts []).filter.recalcCounter
  left : (f.output firstHop (f.afterHosts hosts) ⟨frameTo 2, expedited⟩).map view = some x
  right : (f.output firstHop (f.afterHosts []) ⟨frameTo 2, expedited⟩).map view = some y
  ne : x ≠ y

/-- **A subscriber's packet goes out with the mark of another's**. A red packet at the enforcer
leaves its flag behind. -/
theorem mark_of_another_subscriber :
    ToldApart enforcer [1] (fun o => o.pkt.data 19) 0xb8 0x00 ∧
      ToldApart marker [3] (fun o => o.pkt.data 19) 0xb8 0x00 ∧
      ToldApart enforcer [3] Output.flag (procNeedSend ||| procRfc4115Red) procNeedSend := by
  have hentries : ∀ f hosts, f.translator.check (frameTo 2) = .admits 2 100 →
      ((afterHosts f hosts).filter.entryOf 2).map front = some steadyPolicer →
      f.SameEntries (frameTo 2) (f.afterHosts hosts) expedited (f.afterHosts []) expedited :=
    fun f hosts hcheck hfront => SameEntries.of_check hcheck rfl (hfront.trans rfl)
  refine ⟨⟨run_toHosts ?_, hentries _ _ ?_ ?_, ?_, ?_, ?_, ?_⟩, ⟨run_toHosts ?_, hentries _ _ ?_ ?_,
    ?_, ?_, ?_, ?_⟩, ⟨run_toHosts ?_, hentries _ _ ?_ ?_, ?_, ?_, ?_, ?_⟩⟩
  all_goals decide +kernel

end EncapFilter

end MixiPgw.Tools
