/-
# Encapsulation and decapsulation

`TranslatorDecapEnforcer` takes off the tunnel that `TranslatorEncapEnforcer` or
`TranslatorEncapMarker` has put around a packet. The copy in steps of eight bytes is `memmove`
(`copyPayload_eq`), so that the frame in the tunnel is known byte by byte. A packet comes back if
the headers have been put where the other filter looks for them, or where they change nothing
(`thereAndBack_iff`).
-/
import MixiPgw.Tools.Icmp

namespace MixiPgw.Tools

open EncapFilter EncapState

open Bytes Lib Lib.OnesComplement Table Tools.Icmp Option PktHeader EncapHeader CounterFilter

/-! ## 1. The filter -/

namespace PktHeader

variable (pkt : PktHeader)

def isGPdu : Bool :=
  pkt.data pkt.gtpu >>> 5 = 1 ∧ pkt.data pkt.gtpu >>> 4 &&& 1 = 1 ∧ pkt.data pkt.gtpu &&& 1 = 0 ∧
    pkt.data (pkt.gtpu + 1) = 255

def moved : PktHeader where
  data := writeAt pkt.extendVlan (pkt.ip + pkt.vlanExtendSize)
    (span pkt.extendVlan pkt.ipI
      (be16 (pkt.extendVlan (pkt.ipI + 2)) (pkt.extendVlan (pkt.ipI + 3))))
  len := pkt.len - UInt32.ofNat (pkt.ipI - (pkt.ip + pkt.vlanExtendSize))

/-- The frame that goes out; `tos` is the mark of a packet that is yellow. -/
def decapsulated (tos : Option UInt8) (hop : NextHop) : PktHeader :=
  let ip := pkt.ip + pkt.vlanExtendSize
  let marked := writeAt pkt.moved.data (ip + 1) tos.toList
  let vlan := writeAt marked 14 (be16Bytes (hop.vlanid.toNat % 65536))
  ⟨resum (swapMac vlan) ip, pkt.moved.len⟩

def notSent : PktHeader :=
  match checkDecap pkt with
  | .admits _ _ => pkt.moved
  | _ => if pkt.isGPdu then ⟨pkt.extendVlan, pkt.len⟩ else pkt

end PktHeader

/-- `OnFilter`: the return code, the packet as it is afterwards, and whether it is to be sent. -/
structure Decapped where
  state : FilterState
  rc : Int
  pkt : PktHeader
  sent : Bool

/-- `TranslatorDecapEnforcer::OnFilter`; `none` is an exception. -/
def decapEnforcer (hop : NextHop) (s : FilterState) (a : Arrival) : Option Decapped :=
  (onFilter translatorDecapEnforcer s a).map fun r =>
    if r.sent translatorDecapEnforcer then ⟨r.state, r.rc, a.pkt.decapsulated r.tos hop, true⟩
    else ⟨r.state, r.rc, a.pkt.notSent, false⟩

/-! ## 2. There and back -/

namespace EncapFilter

def sends (f : EncapFilter) (hop : NextHop) (s : EncapState) (a : EncapArrival) :
    Option PktHeader :=
  (Tools.onFilter f.translator s.filter a.toArrival).bind fun r =>
    if r.sent f.translator then some (f.finish hop s a r).pkt else none

def thereAndBack (f : EncapFilter) (hop hop' : NextHop) (s : EncapState)
    (a : EncapArrival) (s' : FilterState) (link : UInt32 → Option UInt16) : Option PktHeader :=
  (f.sends hop s a).bind fun frame =>
    (decapEnforcer hop' s' ⟨frame, link⟩).bind fun r => if r.sent then some r.pkt else none

variable (f : EncapFilter) (hop : NextHop) (e : EncapHeader) (a : EncapArrival)

/-- The UDP and GTP-U headers of a packet that is not marked. -/
def tunnelHeaders : List UInt8 :=
  (f.fill hop e a none).udpEnc ++ (f.fill hop e a none).gtpEnc

def tunnelFrame : PktHeader :=
  encapsulated a.pkt (f.prepare a.pkt) (f.fill hop e a none) hop

end EncapFilter

def PktHeader.totalLen (pkt : PktHeader) : Nat :=
  be16 (pkt.data (pkt.ip + 2)) (pkt.data (pkt.ip + 3))

/-- **The packet is back**, behind one tag: as long as it was and with its bytes, but for the
checksum of its header, which is right. -/
structure Restored (pkt out : PktHeader) : Prop where
  len : out.len = pkt.len - UInt32.ofNat pkt.lenVlan + 4
  bytes : ∀ i < pkt.totalLen, i ≠ 10 → i ≠ 11 → out.data (18 + i) = pkt.data (pkt.ip + i)
  sum : Verifies (span out.data 18 pkt.lenIp)

/-- An IPv4 frame with at most one tag, of the length its packet has, that fits into a slot with
the tunnel around it. -/
structure Ipv4Frame (pkt : PktHeader) : Prop where
  tags : pkt.lenVlan ≠ 8
  version : pkt.data pkt.ip >>> 4 = 4
  header : 20 ≤ pkt.lenIp
  inside : pkt.lenIp ≤ pkt.totalLen
  length : pkt.len.toNat = pkt.ip + pkt.totalLen
  fits : encapHeaderSize + pkt.totalLen ≤ 2048

/-- The key that a filter finds in a packet is in both tables, and the packet is green. -/
def GreenIn (t : Translator) (s : FilterState) (a : Arrival) : Prop :=
  ∀ key len, t.check a.pkt = .admits key len →
    ∃ qos slot, a.link key = some qos ∧ s.entryOf key = some slot ∧
      (policeSlot t s.recalc.recalcCounter len slot).2 = some .green

/-- The UDP and GTP-U headers change none of the options they are written over, and these happen to
look like a G-PDU where the other filter expects one. -/
structure Coincides (headers : List UInt8) (pkt : PktHeader) : Prop where
  long : 40 ≤ pkt.lenIp
  gPdu : pkt.data (pkt.ip + 28) &&& 0xf7 = 0x30 ∧ pkt.data (pkt.ip + 29) = 0xff
  same : ∀ j < 16, pkt.lenIp - 36 + j ≠ 10 → pkt.lenIp - 36 + j ≠ 11 →
    pkt.data (pkt.ip + (pkt.lenIp - 36 + j)) = headers.getD j 0
  options : beSum (span pkt.data (pkt.ip + 20) (pkt.lenIp - 20)) % 65535 = 0

section

variable {t : Translator} {s : FilterState} {a : Arrival}

theorem GreenIn.sent (h : GreenIn t s a) {key len : UInt32}
    (hcheck : t.check a.pkt = .admits key len) :
    ∃ r, onFilter t s a = some r ∧ r.sent t = true ∧ r.tos = none := by
  obtain ⟨qos, slot, hlink, hentry, hgreen⟩ := h key len hcheck
  have hmetering := onFilter_metering t s a
  unfold meterBy at hmetering
  simp only [hcheck, hlink, hentry, hgreen] at hmetering
  obtain ⟨r, hr, hm⟩ := map_eq_some_iff.mp hmetering
  have hpoliced : r.policed = some ⟨key, len, some .green⟩ := congrArg Metering.policed hm
  have htos : r.tos = (verdict t qos (some .green) 0).2 := congrArg Metering.tos hm
  refine ⟨r, hr, ?_, htos.trans ?_⟩
  · unfold Filtered.sent Translator.raises verdict
    rw [hpoliced]
    cases t.enforces <;> rfl
  · unfold verdict
    cases t.enforces <;> rfl

theorem admits_of_sent {r : Filtered} (hr : onFilter t s a = some r) (hsent : r.sent t = true) :
    ∃ key len, t.check a.pkt = .admits key len := by
  have hmetering := onFilter_metering t s a
  rw [hr] at hmetering
  cases hcheck : t.check a.pkt with
  | throws => simp [meterBy, hcheck] at hmetering
  | refuses =>
    have hpoliced : r.policed = none :=
      congrArg Metering.policed (show r.metering = ⟨-1, none, none⟩ by
        simpa [meterBy, hcheck] using hmetering)
    simp [Filtered.sent, hpoliced] at hsent
  | admits key len => exact ⟨key, len, rfl⟩

end

/-! ## 3. The frame in the tunnel -/

/-- The copy from the end is `memmove`: a step reads what lies in front of everything that has
been written. -/
theorem copyPayload_eq {ip : Nat} (hip : ip + 8 ≤ encapHeaderSize) :
    ∀ (n : Nat) (data : Nat → UInt8), copyPayload ip n data =
      writeAt data encapHeaderSize (span data ip (8 * n)) := by
  intro n
  induction n with
  | zero =>
    intro data
    funext i
    exact (writeAt_outside (Nat.lt_or_ge i _)).symm
  | succ n ih =>
    intro data
    have hread : span (writeAt data (encapHeaderSize + 8 * n) (span data (ip + 8 * n) 8)) ip
        (8 * n) = span data ip (8 * n) :=
      span_congr fun k hk => writeAt_outside (.inl (by omega))
    have hstep : copyPayload ip (n + 1) data =
        copyPayload ip n (writeAt data (encapHeaderSize + 8 * n) (span data (ip + 8 * n) 8)) := rfl
    rw [hstep, ih, hread]
    funext i
    by_cases hfront : encapHeaderSize ≤ i ∧ i < encapHeaderSize + 8 * n
    · rw [writeAt_inside hfront.1 (by simpa using hfront.2),
        writeAt_inside hfront.1 (by simp; omega), getD_span (by omega), getD_span (by omega)]
    · rw [writeAt_outside (by rw [length_span]; omega)]
      by_cases hlast : encapHeaderSize + 8 * n ≤ i ∧ i < encapHeaderSize + 8 * (n + 1)
      · rw [writeAt_inside hlast.1 (by simp; omega), writeAt_inside (by omega) (by simp; omega),
          getD_span (by omega), getD_span (by omega)]
        congr 1
        omega
      · rw [writeAt_outside (by rw [length_span]; omega),
          writeAt_outside (by rw [length_span]; omega)]

theorem roundedIplen_spec {n : Nat} (h : n + 8 < 65536) :
    n < roundedIplen n ∧ 8 * (roundedIplen n / 8) = roundedIplen n := by
  unfold roundedIplen
  omega

section

variable {pkt : PktHeader} {data : Nat → UInt8} {e : EncapHeader} {hop : NextHop}

theorem encapsulated_front (hvlan : pkt.lenVlan = 4) {i : Nat} (h : 12 ≤ i ∧ i < 18)
    (hi : i < 14 ∨ 16 ≤ i) : (encapsulated pkt data e hop).data i = data i := by
  have hip : pkt.ip = 18 := congrArg (14 + ·) hvlan
  have hudp : 18 ≤ pkt.udp := hip ▸ Nat.le_add_right _ _
  have hgtpu : 18 ≤ pkt.gtpu := le_trans hudp (Nat.le_add_right _ _)
  unfold encapsulated
  dsimp only
  rw [swapMac_behind _ h.1, writeAt_outside (by rw [be16Bytes_length]; omega),
    writeAt_outside (.inl (by omega)), writeAt_outside (.inl (by omega)),
    writeAt_outside (.inl (by omega)), hip, copyPayload_eq (by decide),
    writeAt_outside (.inl (by unfold encapHeaderSize; omega))]

/-- The frame in the tunnel. The UDP and GTP-U headers lie behind an IP header of the length
that the packet's own has. -/
theorem encapsulated_byte (hvlan : pkt.lenVlan = 4) {k len : Nat}
    (hlen : be16 (data 20) (data 21) = len) (hfits : len + 8 < 65536) (hk : k < 36 + len) :
    (encapsulated pkt data e hop).data (18 + k) =
      if pkt.lenIp ≤ k ∧ k < pkt.lenIp + 16 then (e.udpEnc ++ e.gtpEnc).getD (k - pkt.lenIp) 0
      else if k < 20 then e.ipEnc.getD k 0
      else if k < 36 then data (18 + k)
      else data (18 + (k - 36)) := by
  have hip : pkt.ip = 18 := congrArg (14 + ·) hvlan
  have hextend : pkt.vlanExtendSize = 0 := if_neg (by omega)
  have hudp : pkt.udp = 18 + pkt.lenIp := congrArg (· + pkt.lenIp) hip
  have hgtpu : pkt.gtpu = 26 + pkt.lenIp := by
    rw [gtpu, hudp]
    omega
  obtain ⟨hround, height⟩ := roundedIplen_spec hfits
  unfold encapsulated
  dsimp only
  rw [hextend, hgtpu, hudp, hip, hlen, swapMac_behind _ (by omega),
    writeAt_outside (by rw [be16Bytes_length]; omega), copyPayload_eq (by decide), height]
  by_cases hgtp : pkt.lenIp + 8 ≤ k ∧ k < pkt.lenIp + 16
  · rw [if_pos (by omega), writeAt_inside (by omega) (by rw [length_gtpEnc]; omega),
      List.getD_append_right _ _ _ _ (by rw [length_udpEnc]; omega), length_udpEnc]
    congr 1
    omega
  rw [writeAt_outside (by rw [length_gtpEnc]; omega)]
  by_cases hudp : pkt.lenIp ≤ k ∧ k < pkt.lenIp + 8
  · rw [if_pos (by omega), writeAt_inside (by omega) (by rw [length_udpEnc]; omega),
      List.getD_append _ _ _ _ (by rw [length_udpEnc]; omega)]
    congr 1
    omega
  rw [if_neg (by omega), writeAt_outside (by rw [length_udpEnc]; omega)]
  by_cases hip' : k < 20
  · rw [if_pos hip', writeAt_inside (by omega) (by rw [length_ipEnc]; omega)]
    congr 1
    omega
  rw [if_neg hip', writeAt_outside (by rw [length_ipEnc]; omega)]
  unfold encapHeaderSize
  by_cases hold : k < 36
  · rw [if_pos hold, writeAt_outside (.inl (by omega))]
  · rw [if_neg hold, writeAt_inside (by omega) (by rw [length_span]; omega), getD_span (by omega)]
    congr 1
    omega

end

theorem byte_cases {P : UInt8 → Prop} (h : ∀ n : Fin 256, P (UInt8.ofNat n)) (x : UInt8) : P x := by
  simpa using h ⟨x.toNat, x.toNat_lt⟩

theorem Ipv4Frame.lenIp_mod {pkt : PktHeader} (h : Ipv4Frame pkt) : pkt.lenIp % 4 = 0 := by
  unfold lenIp
  rw [if_pos h.version]
  omega

/-- It is no error message, to which the marker gives another source address. -/
def EncapFilter.Plain (f : EncapFilter) (pkt : PktHeader) : Prop :=
  f = .marker → wordAt pkt.data (pkt.ip + 12) ≠ bswap32 0xdeadbeaf

/-- **A packet in the tunnel.** Of the headers, the flags come from the memory that `encap_` has
been allocated in. -/
structure Tunnelled (f : EncapFilter) (heap : EncapHeader) (headers : List UInt8)
    (pkt frame : PktHeader) : Prop where
  tagged : pkt.lenVlan = 4
  ipv4 : Ipv4Frame pkt
  lenVlan : frame.lenVlan = 4
  vhl : frame.data 18 = 0x45
  len : frame.len = pkt.len - UInt32.ofNat pkt.lenVlan + 40
  byte : ∀ k, 20 ≤ k → k < 36 + pkt.totalLen → frame.data (18 + k) =
    if pkt.lenIp ≤ k ∧ k < pkt.lenIp + 16 then headers.getD (k - pkt.lenIp) 0
    else f.prepare pkt (18 + if k < 36 then k else k - 36)
  small : ∀ j ∈ [0, 2, 4, 6, 10], (headers.getD j 0).toNat ≤ 8
  flags : headers.getD 8 0 = heap.gtpFlags &&& 0x0c ||| 0x30
  type : headers.getD 9 0 = 255

namespace EncapFilter

section

variable {f : EncapFilter} {pkt : PktHeader} (hvlan : pkt.lenVlan = 4)
include hvlan

theorem extendVlan_tagged : pkt.extendVlan = pkt.data := by
  funext i
  exact if_neg (by omega)

theorem prepare_apart {i : Nat} (h : i < 30 ∨ 34 ≤ i) : f.prepare pkt i = pkt.data i := by
  have hip : pkt.ip = 18 := congrArg (14 + ·) hvlan
  cases f with
  | enforcer => rfl
  | marker =>
    unfold prepare
    rw [extendVlan_tagged hvlan, hip]
    split
    · exact writeAt_outside h
    · rfl

theorem prepare_plain (h : f.Plain pkt) : f.prepare pkt = pkt.data := by
  cases f with
  | enforcer => rfl
  | marker =>
    unfold prepare
    rw [extendVlan_tagged hvlan, if_neg (h rfl)]

theorem prepare_reflected (h : ¬f.Plain pkt) : f.prepare pkt 32 = 4 ∧ pkt.data 32 = 0xbe := by
  have hip : pkt.ip = 18 := congrArg (14 + ·) hvlan
  obtain ⟨rfl, hsrc⟩ := Classical.not_imp.mp h
  have hsrc := not_not.mp hsrc
  rw [hip] at hsrc
  constructor
  · have hbyte : ∀ x : UInt32, byteOf x 2 = (x >>> 16).toUInt8 := by
      intro x
      apply UInt8.toNat_inj.mp
      simp [byteOf, Nat.shiftRight_eq_div_pow]
    have hreflect : ∀ c : UInt32, byteOf (makeNextHop c fidReflect) 2 = 4 := by
      intro c
      have hmask : (c &&& 0xff00ffff) >>> 16 = c >>> 16 &&& 0xff00 := UInt32.shiftRight_and
      have hlow : (c >>> 16 &&& 0xff00).toUInt8 = 0 := by
        rw [UInt32.toUInt8_and]
        exact UInt8.and_zero
      rw [hbyte, makeNextHop, UInt32.shiftRight_or, hmask, UInt32.toUInt8_or, hlow]
      rfl
    unfold prepare
    rw [extendVlan_tagged hvlan, hip, if_pos hsrc]
    exact hreflect _
  · have hbyte := congrArg (byteOf · 2) hsrc
    exact (byteOf_le32_two _ _ _ _).symm.trans hbyte

theorem admits_tagged (hversion : pkt.data pkt.ip >>> 4 = 4) :
    ∃ key len, f.translator.check pkt = .admits key len := by
  cases f with
  | enforcer =>
    change ∃ key len, checkEncapEnforcer pkt = _
    rw [checkEncapEnforcer, if_neg (not_not.mpr hvlan), if_pos hversion]
    exact ⟨_, _, rfl⟩
  | marker =>
    change ∃ key len, checkEncapMarker pkt = _
    unfold checkEncapMarker
    rw [extendVlan_tagged hvlan, if_neg (by omega), if_pos hversion]
    split <;> exact ⟨_, _, rfl⟩

end

variable {f : EncapFilter} {hop hop' : NextHop} {heap e : EncapHeader} {a : EncapArrival}

theorem tunnelHeaders_small (hkept : e.kept = heap.onInitFilter.kept) (hvlan : a.pkt.lenVlan = 4)
    (hframe : Ipv4Frame a.pkt) :
    ∀ j ∈ [0, 2, 4, 6, 10], ((f.tunnelHeaders hop e a).getD j 0).toNat ≤ 8 := by
  obtain ⟨hsport, hdport⟩ : e.uhSport = 2152 ∧ e.uhDport = 2152 := by
    simp only [kept, Prod.mk.injEq] at hkept
    exact ⟨hkept.2.1, hkept.2.2.1⟩
  have hip : a.pkt.ip = 18 := congrArg (14 + ·) hvlan
  have hlength := hframe.length
  have hfits := hframe.fits
  unfold encapHeaderSize at hfits
  have htlen : a.pkt.tlen.toNat = 54 + a.pkt.totalLen := by
    unfold tlen encapHeaderSize
    rw [hvlan]
    simp only [UInt32.toNat_add, UInt32.toNat_sub, UInt32.toNat_ofNat']
    omega
  have hhigh : ∀ n ≤ 2152, ((be16Bytes n).getD 0 0).toNat ≤ 8 := by
    intro n hn
    change (UInt8.ofNat (n / 256)).toNat ≤ 8
    rw [UInt8.toNat_ofNat']
    omega
  simp only [List.forall_mem_cons, List.not_mem_nil, false_implies, implies_true, and_true]
  refine ⟨hhigh _ ?_, hhigh _ ?_, hhigh _ ?_, hhigh _ (Nat.zero_le _), hhigh _ ?_⟩
  · exact hsport ▸ Nat.le_refl 2152
  · exact hdport ▸ Nat.le_refl 2152
  · change ((a.pkt.tlen - 18 - 20).toUInt16).toNat ≤ 2152
    simp only [UInt32.toNat_toUInt16, UInt32.toNat_sub, htlen, UInt32.reduceToNat]
    omega
  · change ((a.pkt.tlen - 18 - 20 - 8 - 8).toUInt16).toNat ≤ 2152
    simp only [UInt32.toNat_toUInt16, UInt32.toNat_sub, htlen, UInt32.reduceToNat]
    omega

theorem tunnelled (hkept : e.kept = heap.onInitFilter.kept) (hvlan : a.pkt.lenVlan = 4)
    (hframe : Ipv4Frame a.pkt) :
    Tunnelled f heap (f.tunnelHeaders hop e a) a.pkt (f.tunnelFrame hop e a) := by
  have hbits : ∀ x : UInt8, (x &&& 0x0e ||| 0x30) &&& 0xfd = x &&& 0x0c ||| 0x30 :=
    byte_cases (by decide +kernel)
  have hfits := hframe.fits
  have hheader := hframe.header
  unfold encapHeaderSize at hfits
  have hlen : be16 (f.prepare a.pkt 20) (f.prepare a.pkt 21) = a.pkt.totalLen := by
    have hip : a.pkt.ip = 18 := congrArg (14 + ·) hvlan
    rw [prepare_apart hvlan (.inl (by decide)), prepare_apart hvlan (.inl (by decide)),
      totalLen, hip]
  have hbyte (k : Nat) (hk : k < 36 + a.pkt.totalLen) := @encapsulated_byte a.pkt (f.prepare a.pkt)
    (f.fill hop e a none) hop hvlan k _ hlen (by omega) hk
  have hfront (i : Nat) (h : 12 ≤ i ∧ i < 18) (hi : i < 14 ∨ 16 ≤ i) :
      (f.tunnelFrame hop e a).data i = a.pkt.data i :=
    (encapsulated_front hvlan h hi).trans (prepare_apart hvlan (.inl (by omega)))
  refine ⟨hvlan, hframe, ?_, ?_, rfl, fun k h20 hk => ?_, tunnelHeaders_small hkept hvlan hframe,
    ?_, congrArg (·.2.2.2.2) hkept⟩
  · unfold lenVlan
    rw [hfront 12 (by decide) (by decide), hfront 13 (by decide) (by decide),
      hfront 16 (by decide) (by decide), hfront 17 (by decide) (by decide)]
    exact hvlan
  · have hvhl := hbyte 0 (by omega)
    rw [if_neg (by omega), if_pos (by decide)] at hvhl
    exact hvhl
  · rw [tunnelFrame, hbyte k hk, if_neg (by omega : ¬k < 20), apply_ite (18 + ·),
      apply_ite (f.prepare a.pkt)]
    rfl
  · have hflags := congrArg (·.2.2.2.1) hkept
    change e.gtpFlags &&& 0xfd = (heap.gtpFlags &&& 0x0e ||| 0x30) &&& 0xfd at hflags
    change e.gtpFlags &&& 0xfd = _
    rw [hflags, hbits]

end EncapFilter

/-! ## 4. Taking the tunnel off -/

theorem gPdu_flags_iff (x : UInt8) :
    (x >>> 5 = 1 ∧ x >>> 4 &&& 1 = 1 ∧ x &&& 1 = 0) ∧ x &&& 7 = 0 ↔ x &&& 0xf7 = 0x30 := by
  revert x
  exact byte_cases (by decide +kernel)

theorem verifies_resum_iff (data : Nat → UInt8) (ip : Nat) {n : Nat} (h : 20 ≤ n) :
    Verifies (span (resum data ip) ip n) ↔
      beSum (span (resum data ip) (ip + 20) (n - 20)) % 65535 = 0 := by
  have hsplit : span (resum data ip) ip n =
      span (resum data ip) ip 20 ++
        span (resum data ip) (ip + 20) (n - 20) := by
    rw [← span_add, Nat.add_sub_cancel' h]
  obtain ⟨f, hsum, hlt, hmod, hzero⟩ := sumBytes_eq
    (fun i => writeAt data (ip + 10) [0, 0] (ip + i)) (show 20 < 65536 by decide)
  have hspan : span (fun i => writeAt data (ip + 10) [0, 0] (ip + i)) 0 20 =
      span (writeAt data (ip + 10) [0, 0]) ip 20 := by
    simp only [span, Nat.zero_add]
  have hfield := @beSum_field ip 20 (writeAt data (ip + 10) [0, 0]) (65535 - f) 10 rfl (by decide)
    (by omega) ⟨by simp [writeAt], by simp [writeAt]⟩
  rw [← hsum] at hfield
  rw [hspan] at hmod hzero
  change beSum (span (resum data ip) ip 20) = _ at hfield
  rw [verifies_iff, hsplit, beSum_append (by simp), hfield]
  omega

namespace Tunnelled

variable {f : EncapFilter} {heap : EncapHeader} {headers : List UInt8} {pkt frame : PktHeader}
  {hop : NextHop} (h : Tunnelled f heap headers pkt frame)
include h

theorem ip_eq : pkt.ip = 18 := congrArg (14 + ·) h.tagged

theorem offsets : frame.ip = 18 ∧ frame.gtpu = 46 ∧ frame.vlanExtendSize = 0 ∧
    frame.extendVlan = frame.data ∧
    frame.ipI = 54 + if frame.data 46 &&& 7 ≠ 0 then 4 else 0 := by
  have hlenVlan := h.lenVlan
  have hat : frame.ip = 18 := congrArg (14 + ·) hlenVlan
  have hlen : frame.lenIp = 20 := by
    unfold lenIp
    rw [hat, h.vhl]
    decide
  have hgtpu : frame.gtpu = 46 := by
    rw [gtpu, udp, hat, hlen]
  refine ⟨hat, hgtpu, if_neg (by omega), extendVlan_tagged hlenVlan, ?_⟩
  rw [ipI, hgtpu]

theorem off_iff : (∃ key len, checkDecap frame = .admits key len) ∧
        (frame.decapsulated none hop).len = pkt.len - UInt32.ofNat pkt.lenVlan + 4 ↔
      frame.data 46 &&& 0xf7 = 0x30 ∧ frame.data 47 = 0xff ∧ frame.data 54 >>> 4 = 4 := by
  obtain ⟨hat, hgtpu, hextend, hdata, hipI⟩ := h.offsets
  have hlen : (frame.decapsulated none hop).len = frame.len - UInt32.ofNat (frame.ipI - 18) := by
    unfold decapsulated moved
    dsimp only
    rw [hat, hextend]
  have hshorter : pkt.len - UInt32.ofNat pkt.lenVlan + 4 = frame.len - 36 := by
    rw [h.len, add_sub_assoc]
    rfl
  have hshort : frame.len - 40 ≠ frame.len - 36 := by
    intro heq
    have hdiff : (40 : UInt32) = 36 := sub_right_inj.mp heq
    exact absurd hdiff (by decide)
  unfold checkDecap
  rw [hlen, hshorter, hgtpu, hdata, hipI, ← gPdu_flags_iff]
  by_cases hflags : frame.data 46 &&& 7 = 0
  · rw [if_neg (not_not.mpr hflags)]
    split_ifs <;> simp_all
  · rw [if_pos hflags]
    exact iff_of_false (fun h => hshort h.2) fun h => hflags h.1.2

theorem out_byte (hflags : frame.data 46 &&& 0xf7 = 0x30) {i : Nat}
    (hi : i < be16 (frame.data 56) (frame.data 57)) (h10 : i ≠ 10) (h11 : i ≠ 11) :
    (frame.decapsulated none hop).data (18 + i) = frame.data (54 + i) := by
  obtain ⟨hat, hgtpu, hextend, hdata, hipI⟩ := h.offsets
  rw [if_neg (not_not.mpr ((gPdu_flags_iff _).mpr hflags).2), Nat.add_zero] at hipI
  have hlen : i < be16 (frame.data (54 + 2)) (frame.data (54 + 3)) := hi
  unfold decapsulated moved
  dsimp only
  rw [hat, hextend, hdata, hipI, resum_outside (by omega), swapMac_behind _ (by omega),
    writeAt_outside (by rw [be16Bytes_length]; omega),
    writeAt_outside (by simp only [toList_none, List.length_nil]; omega),
    writeAt_inside (by omega) (by rw [length_span]; omega), getD_span (by omega)]
  congr 1
  omega

theorem out_verifies_iff : Verifies (span (frame.decapsulated none hop).data 18 pkt.lenIp) ↔
    beSum (span (frame.decapsulated none hop).data 38 (pkt.lenIp - 20)) % 65535 = 0 := by
  obtain ⟨hat, -, hextend, -⟩ := h.offsets
  unfold decapsulated
  dsimp only
  rw [hat, hextend]
  exact verifies_resum_iff _ 18 h.ipv4.header

theorem inner {i : Nat} (hi : i < pkt.totalLen) :
    frame.data (54 + i) =
      if pkt.lenIp ≤ 36 + i ∧ 36 + i < pkt.lenIp + 16 then headers.getD (36 + i - pkt.lenIp) 0
      else f.prepare pkt (18 + i) := by
  have hbyte := h.byte (36 + i) (by omega) (by omega)
  rw [if_neg (by omega : ¬36 + i < 36), Nat.add_sub_cancel_left] at hbyte
  rw [← hbyte, ← Nat.add_assoc]

theorem not_gPdu (h24 : 24 ≤ pkt.lenIp) (h40 : pkt.lenIp < 40) :
    ¬(frame.data 46 &&& 0xf7 = 0x30 ∧ frame.data 47 = 0xff ∧ frame.data 54 >>> 4 = 4) := by
  have hsmall : ∀ x : UInt8, x.toNat ≤ 8 → x &&& 0xf7 ≠ 0x30 ∧ x >>> 4 ≠ 4 :=
    byte_cases (by decide +kernel)
  have hmod := h.ipv4.lenIp_mod
  have hinside := h.ipv4.inside
  have hflags := h.byte 28 (by decide) (by omega)
  have hversion := h.byte 36 (by decide) (by omega)
  have h0 := hsmall _ (h.small 0 (by decide))
  have h4 := hsmall _ (h.small 4 (by decide))
  rintro ⟨h46, -, h54⟩
  rcases (by omega : pkt.lenIp = 24 ∨ pkt.lenIp = 28 ∨ pkt.lenIp = 32 ∨ pkt.lenIp = 36)
    with h24 | h28 | h32 | h36
  · rw [if_pos (by omega), h24] at hflags
    exact h4.1 (hflags ▸ h46)
  · rw [if_pos (by omega), h28] at hflags
    exact h0.1 (hflags ▸ h46)
  · rw [if_pos (by omega), h32] at hversion
    exact h4.2 (hversion ▸ h54)
  · rw [if_pos (by omega), h36] at hversion
    exact h0.2 (hversion ▸ h54)

variable (hlenIp : pkt.lenIp = 20 ∨ 40 ≤ pkt.lenIp)
include hlenIp

theorem plain_of_byte (hbyte : frame.data 68 = pkt.data 32) : f.Plain pkt := by
  by_contra hno
  obtain ⟨hnew, hold⟩ := prepare_reflected h.tagged hno
  have hinside := h.ipv4.inside
  have hmod := h.ipv4.lenIp_mod
  have hinner := h.inner (show 14 < pkt.totalLen by omega)
  have hsmall : (frame.data 68).toNat ≤ 8 := by
    rw [hinner]
    split
    · refine h.small _ ?_
      rcases (by omega : 36 + 14 - pkt.lenIp = 10 ∨ 36 + 14 - pkt.lenIp = 6 ∨
        36 + 14 - pkt.lenIp = 2) with hj | hj | hj
      · simp [hj]
      · simp [hj]
      · simp [hj]
    · rw [hnew]
      decide
  rw [hbyte, hold] at hsmall
  exact absurd hsmall (by decide)

theorem same_iff : (∀ i < pkt.totalLen, i ≠ 10 → i ≠ 11 → frame.data (54 + i) = pkt.data (18 + i)) ↔
      f.Plain pkt ∧ (pkt.lenIp = 20 ∨ ∀ j < 16, pkt.lenIp - 36 + j ≠ 10 → pkt.lenIp - 36 + j ≠ 11 →
        pkt.data (18 + (pkt.lenIp - 36 + j)) = headers.getD j 0) := by
  have hinside := h.ipv4.inside
  constructor
  · intro hsame
    refine ⟨h.plain_of_byte hlenIp (hsame 14 (by omega) (by decide) (by decide)),
      hlenIp.imp_right fun h40 j hj h10 h11 => ?_⟩
    rw [← hsame _ (by omega) h10 h11, h.inner (by omega), if_pos (by omega),
      show 36 + (pkt.lenIp - 36 + j) - pkt.lenIp = j by omega]
  · rintro ⟨hplain, hheaders⟩ i hi h10 h11
    rw [h.inner hi, prepare_plain h.tagged hplain]
    split
    · have hplace : pkt.lenIp - 36 + (36 + i - pkt.lenIp) = i := by omega
      have hsame := hheaders.resolve_left (by omega) (36 + i - pkt.lenIp) (by omega)
      rw [hplace] at hsame
      exact (hsame h10 h11).symm
    · rfl

theorem gPdu_iff :
    frame.data 46 &&& 0xf7 = 0x30 ∧ frame.data 47 = 0xff ↔
      (pkt.lenIp = 20 ∧ heap.gtpFlags &&& 4 = 0) ∨
        (40 ≤ pkt.lenIp ∧ pkt.data 46 &&& 0xf7 = 0x30 ∧ pkt.data 47 = 0xff) := by
  have hbits : ∀ x : UInt8, (x &&& 0x0c ||| 0x30) &&& 0xf7 = 0x30 ↔ x &&& 4 = 0 :=
    byte_cases (by decide +kernel)
  have hflags := h.byte 28 (by decide) (by omega)
  have htype := h.byte 29 (by decide) (by omega)
  rcases hlenIp with h20 | h40
  · rw [if_pos (by omega), h20, h.flags] at hflags
    rw [if_pos (by omega), h20, h.type] at htype
    rw [hflags, htype, hbits, h20]
    simp
  · have hne : pkt.lenIp ≠ 20 := by omega
    rw [if_neg (by omega), prepare_apart h.tagged (.inr (by decide))] at hflags htype
    rw [hflags, htype]
    simp [hne, h40]

theorem restored_iff : (∃ key len, checkDecap frame = .admits key len) ∧
        Restored pkt (frame.decapsulated none hop) ↔
      (frame.data 46 &&& 0xf7 = 0x30 ∧ frame.data 47 = 0xff) ∧
        (∀ i < pkt.totalLen, i ≠ 10 → i ≠ 11 → frame.data (54 + i) = pkt.data (18 + i)) ∧
        beSum (span pkt.data 38 (pkt.lenIp - 20)) % 65535 = 0 := by
  have hip := h.ip_eq
  have hinside := h.ipv4.inside
  have hfront : ∀ i < 4, frame.data (54 + i) = pkt.data (18 + i) := by
    intro i hi
    rw [h.inner (by omega), if_neg (by omega), prepare_apart h.tagged (.inl (by omega))]
  have hversion : frame.data 54 >>> 4 = 4 := by
    rw [hfront 0 (by decide), ← hip]
    exact h.ipv4.version
  have hlen : be16 (frame.data 56) (frame.data 57) = pkt.totalLen := by
    rw [hfront 2 (by decide), hfront 3 (by decide), totalLen, hip]
  have hoptions (hsame : ∀ i < pkt.totalLen, i ≠ 10 → i ≠ 11 →
      (frame.decapsulated none hop).data (18 + i) = pkt.data (18 + i)) :
      span (frame.decapsulated none hop).data 38 (pkt.lenIp - 20) =
        span pkt.data 38 (pkt.lenIp - 20) := by
    refine span_congr fun k hk => ?_
    have hbyte := hsame (20 + k) (by omega) (by omega) (by omega)
    rwa [← Nat.add_assoc] at hbyte
  constructor
  · rintro ⟨hadmits, hrestored⟩
    obtain ⟨hflags, htype, -⟩ := h.off_iff.mp ⟨hadmits, hrestored.len⟩
    have hsame := hip ▸ hrestored.bytes
    refine ⟨⟨hflags, htype⟩, fun i hi h10 h11 => ?_, ?_⟩
    · rw [← hsame i hi h10 h11, h.out_byte hflags (hlen.symm ▸ hi) h10 h11]
    · rw [← hoptions hsame]
      exact h.out_verifies_iff.mp hrestored.sum
  · rintro ⟨⟨hflags, htype⟩, hsame, hzero⟩
    obtain ⟨hadmits, hout⟩ := h.off_iff.mpr ⟨hflags, htype, hversion⟩
    have hback : ∀ i < pkt.totalLen, i ≠ 10 → i ≠ 11 →
        (frame.decapsulated none hop).data (18 + i) = pkt.data (18 + i) :=
      fun i hi h10 h11 =>
        (h.out_byte hflags (hlen.symm ▸ hi) h10 h11).trans (hsame i hi h10 h11)
    refine ⟨hadmits, hout, hip.symm ▸ hback, h.out_verifies_iff.mpr ?_⟩
    rwa [hoptions hback]

end Tunnelled

/-! ## 5. Which packets come back -/

namespace EncapFilter

variable {f : EncapFilter} {hop hop' : NextHop} {s : EncapState} {a : EncapArrival}
  {s' : FilterState} {link : UInt32 → Option UInt16}

theorem thereAndBack_eq_some_iff (hvlan : a.pkt.lenVlan = 4) (hframe : Ipv4Frame a.pkt)
    (hgreen : GreenIn f.translator s.filter a.toArrival)
    (hgreen' : ∀ frame, f.sends hop s a = some frame →
      GreenIn translatorDecapEnforcer s' ⟨frame, link⟩) (out : PktHeader) :
    f.thereAndBack hop hop' s a s' link = some out ↔
      (∃ key len, checkDecap (f.tunnelFrame hop s.encap a) = .admits key len) ∧
        (f.tunnelFrame hop s.encap a).decapsulated none hop' = out := by
  obtain ⟨key, len, hcheck⟩ := @admits_tagged f a.pkt hvlan hframe.version
  obtain ⟨r, hr, hsent, htos⟩ := hgreen.sent hcheck
  have hsends : f.sends hop s a = some (f.tunnelFrame hop s.encap a) := by
    unfold sends finish
    rw [hr, bind_some, if_pos hsent, if_pos hsent, htos]
    rfl
  unfold thereAndBack decapEnforcer
  rw [hsends, bind_some]
  constructor
  · intro h
    obtain ⟨d, hd, hout⟩ := bind_eq_some_iff.mp h
    obtain ⟨r', hr', rfl⟩ := map_eq_some_iff.mp hd
    by_cases hsent' : r'.sent translatorDecapEnforcer = true
    · have hadmits := admits_of_sent hr' hsent'
      obtain ⟨key', len', hcheck'⟩ := hadmits
      obtain ⟨r'', hr'', -, htos'⟩ := (hgreen' _ hsends).sent hcheck'
      obtain rfl := some.inj (hr'.symm.trans hr'')
      simp only [if_pos hsent', htos', if_true, some.injEq] at hout
      exact ⟨⟨key', len', hcheck'⟩, hout⟩
    · simp only [if_neg hsent', Bool.false_eq_true, if_false, reduceCtorEq] at hout
  · rintro ⟨⟨key', len', hcheck'⟩, rfl⟩
    obtain ⟨r', hr', hsent', htos'⟩ := (hgreen' _ hsends).sent hcheck'
    rw [hr', map_some, bind_some, if_pos hsent', htos']
    rfl

/-- **Which packets come back.** A packet that is green in all tables comes back if and only if
* it has a tag, over which the marker does not write,
* it is no error message, to which the marker gives another source address, and
* its IP header has no options, and the memory of `encap_` had the bit for an extension header
  clear; or it has twenty bytes of options or more, and the headers of the tunnel happen to make
  no difference where they are written. -/
theorem thereAndBack_iff (f : EncapFilter) (hop hop' : NextHop)
    (lookupTbl : Nat → Option (DualBuffered Policer)) (heap : EncapHeader)
    (history : List EncapEvent) (s : EncapState)
    (hrun : f.run hop (.init lookupTbl heap) history = some s) (flag : UInt32) (a : EncapArrival)
    (hframe : Ipv4Frame a.pkt) (hgreen : GreenIn f.translator (s.handed flag).filter a.toArrival)
    (s' : FilterState) (link : UInt32 → Option UInt16)
    (hgreen' : ∀ frame, f.sends hop (s.handed flag) a = some frame →
      GreenIn translatorDecapEnforcer s' ⟨frame, link⟩) :
    (∃ out, f.thereAndBack hop hop' (s.handed flag) a s' link = some out ∧ Restored a.pkt out) ↔
      a.pkt.lenVlan = 4 ∧ f.Plain a.pkt ∧
        ((a.pkt.lenIp = 20 ∧ heap.gtpFlags &&& 4 = 0) ∨
          Coincides (f.tunnelHeaders hop s.encap a) a.pkt) := by
  have hkept : s.encap.kept = heap.onInitFilter.kept := run_kept hrun
  by_cases hvlan : a.pkt.lenVlan = 4
  swap
  · refine iff_of_false ?_ fun h => hvlan h.1
    rintro ⟨out, hout, -⟩
    obtain ⟨frame, hsends, -⟩ := bind_eq_some_iff.mp hout
    obtain ⟨r, hr, hframe⟩ := bind_eq_some_iff.mp hsends
    by_cases hsent : r.sent f.translator = true
    · exact hvlan (lenVlan_of_sent hr hsent)
    · rw [if_neg hsent] at hframe
      exact absurd hframe (by simp)
  have htunnelled : Tunnelled f heap _ a.pkt (f.tunnelFrame hop s.encap a) :=
    tunnelled hkept hvlan hframe
  have hip := htunnelled.ip_eq
  have hway (out : PktHeader) := @thereAndBack_eq_some_iff f hop hop' (s.handed flag) a s' link
    hvlan hframe hgreen hgreen' out
  simp only [encap_handed] at hway
  simp only [hway, and_assoc, exists_and_left, exists_eq_left']
  by_cases hlenIp : a.pkt.lenIp = 20 ∨ 40 ≤ a.pkt.lenIp
  · rw [htunnelled.restored_iff hlenIp, htunnelled.gPdu_iff hlenIp, htunnelled.same_iff hlenIp]
    constructor
    · rintro ⟨hgPdu, ⟨hplain, hheaders⟩, hoptions⟩
      refine ⟨hvlan, hplain, hgPdu.imp_right fun ⟨h40, hgPdu⟩ => ?_⟩
      have hsame := hheaders.resolve_left (by omega)
      rw [← hip] at hsame
      exact ⟨h40, hip ▸ hgPdu, hsame, hip ▸ hoptions⟩
    · rintro ⟨-, hplain, ⟨h20, hbit⟩ | hcoincides⟩
      · refine ⟨.inl ⟨h20, hbit⟩, ⟨hplain, .inl h20⟩, ?_⟩
        rw [h20]
        rfl
      · obtain ⟨hlong, hgPdu, hsame, hoptions⟩ := hcoincides
        rw [hip] at hsame hoptions hgPdu
        exact ⟨.inr ⟨hlong, hgPdu⟩, ⟨hplain, .inr hsame⟩, hoptions⟩
  · have hheader := hframe.header
    have hmod := hframe.lenIp_mod
    refine iff_of_false ?_ fun h => hlenIp (h.2.2.imp And.left Coincides.long)
    rintro ⟨hadmits, hrestored⟩
    exact htunnelled.not_gPdu (by omega) (by omega)
      (htunnelled.off_iff.mp ⟨hadmits, hrestored.len⟩)

/-- A packet for subscriber 2, without a tag and with one; the second has eight bytes of data. -/
def bareFrame : PktHeader where
  data
    | 12 => 0x08
    | 14 => 0x45
    | 17 => 20
    | 30 => 2
    | _ => 0x00
  len := 34

def taggedFrame : PktHeader where
  data
    | 12 => 0x81
    | 16 => 0x08
    | 18 => 0x45
    | 21 => 28
    | 34 => 2
    | 38 => 0xab
    | 45 => 0xcd
    | _ => 0x00
  len := 46

theorem greenIn_of_check {t : Translator} {s : FilterState} {a : Arrival} {key len : UInt32}
    {qos : UInt16} {slot : Slot Policer} (hcheck : t.check a.pkt = .admits key len)
    (hlink : a.link key = some qos) (hentry : s.entryOf key = some slot)
    (hgreen : (policeSlot t s.recalc.recalcCounter len slot).2 = some .green) : GreenIn t s a := by
  intro key' len' hcheck'
  obtain ⟨rfl, rfl⟩ := Admission.admits.inj (hcheck.symm.trans hcheck')
  exact ⟨qos, slot, hlink, hentry, hgreen⟩

theorem taggedFrame_comes_back :
    ∃ out, enforcer.thereAndBack firstHop firstHop
      ((EncapState.init threeSubscribers zeroHeap).handed 0) ⟨taggedFrame, expedited⟩ steadyState
      (fun _ => some 0) = some out ∧ Restored taggedFrame out := by
  refine (thereAndBack_iff enforcer firstHop firstHop threeSubscribers zeroHeap [] _ rfl 0
    ⟨taggedFrame, expedited⟩ ⟨by decide, by decide, by decide, by decide, by decide, by decide⟩
    (greenIn_of_check (show _ = Admission.admits 2 46 by decide +kernel) rfl rfl
      (by decide +kernel)) steadyState (fun _ => some 0) fun frame hsends => ?_).mpr
    ⟨by decide, (fun h => nomatch h), .inl (by decide)⟩
  have hcheck : (enforcer.sends firstHop ((EncapState.init threeSubscribers zeroHeap).handed 0)
      ⟨taggedFrame, expedited⟩).map checkDecap = some (.admits 7 46) := by decide +kernel
  rw [hsends] at hcheck
  exact greenIn_of_check (some.inj hcheck) rfl rfl (by decide +kernel)

/-- **The other one does not come back from the marker**. -/
theorem bareFrame_refused :
    Ipv4Frame bareFrame ∧ (expedited 2).isSome ∧
      (((EncapState.init threeSubscribers zeroHeap).filter.entryOf 2).map fun slot =>
        (policeSlot translatorEncapMarker 0 34 slot).2) = some (some .green) ∧
      (marker.onFilter firstHop (.init threeSubscribers zeroHeap) ⟨bareFrame, expedited⟩).map
        Encapped.rc = some (-1) ∧
      ¬∃ out, marker.thereAndBack firstHop firstHop (.init threeSubscribers zeroHeap)
        ⟨bareFrame, expedited⟩ steadyState (fun _ => some 0) = some out ∧
          Restored bareFrame out := by
  have hnone : (marker.thereAndBack firstHop firstHop (.init threeSubscribers zeroHeap)
      ⟨bareFrame, expedited⟩ steadyState (fun _ => some 0)).isNone = true := by decide +kernel
  refine ⟨⟨by decide, by decide, by decide, by decide, by decide, by decide⟩, rfl,
    by decide +kernel, by decide +kernel, ?_⟩
  rintro ⟨out, hout, -⟩
  rw [hout] at hnone
  exact absurd hnone Bool.false_ne_true

end EncapFilter

end MixiPgw.Tools
