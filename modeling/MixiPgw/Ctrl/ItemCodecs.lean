/-
# The item codecs

Every kind of item that has a setter, from the value to the packet and back: the setter writes the
struct, `gtpc_append_item` puts it into a packet, `gtpc_alloc_packet_from_payload` finds it there,
and `on_gtpc_parse_root` leaves it in the parse state (`item_round_trip`).
-/
import MixiPgw.Ctrl.ItemOrder
import MixiPgw.Ctrl.Parser
import MixiPgw.Ctrl.Session

namespace MixiPgw.Ctrl

open Bytes CString Lib List Slot

/-! ## 1. Kinds of items -/

def gtpcImsiSet (digits : Nat) : Option (List UInt8) :=
  (gtpcDigitsSet 8 digits).map (gtpcCommHeader gtpcTypeImsi 8 0 ++ ·)

def gtpcMeiSet (digits : Nat) : Option (List UInt8) :=
  (gtpcDigitsSet 8 digits).map (gtpcCommHeader gtpcTypeMei 8 0 ++ ·)

def be40Bytes (n : Nat) : List UInt8 :=
  [UInt8.ofNat (n / 4294967296), UInt8.ofNat (n / 16777216), UInt8.ofNat (n / 65536),
    UInt8.ofNat (n / 256), UInt8.ofNat n]

def gtpcGtpcBearerQosSet (flags qci : UInt8)
    (maxUplink maxDownlink guaranteedUplink guaranteedDownlink : Nat) : List UInt8 :=
  gtpcCommHeader gtpcTypeBearerQos 22 0 ++ [flags, qci] ++ be40Bytes maxUplink ++
    be40Bytes maxDownlink ++ be40Bytes guaranteedUplink ++ be40Bytes guaranteedDownlink

/-- An item that has a setter, with the values that takes. -/
inductive TypedItem
  | imsi (digits : Nat)
  | msisdn (digits : Nat)
  | mei (digits : Nat)
  | recovery (restartCounter : UInt8)
  | cause (value : UInt8)
  | fTeidV4 (inst iftype : UInt8) (teid ipv4 : UInt32)
  | fTeidV6 (inst iftype : UInt8) (teid : UInt32) (ipv6 : List UInt8)
  | ambr (uplink downlink : UInt32)
  | chargingId (cid : UInt32)
  | ebi (inst value : UInt8)
  | pco (pcoHead : UInt8) (content : List UInt8)
  | paa (pdntype : UInt8) (address : List UInt8)
  | apnRestriction (type : UInt8)
  | bearerQos (flags qci : UInt8)
      (maxUplink maxDownlink guaranteedUplink guaranteedDownlink : Nat)
deriving DecidableEq

/-- The values that have room in the struct. -/
def TypedItem.InRange : TypedItem → Prop
  | .imsi digits => digits < 10 ^ 16
  | .msisdn digits => digits < 10 ^ 12
  | .mei digits => digits < 10 ^ 16
  | .recovery _ => True
  | .cause _ => True
  | .fTeidV4 inst iftype _ _ => inst.toNat < 16 ∧ iftype.toNat < 32
  | .fTeidV6 inst iftype _ ipv6 => inst.toNat < 16 ∧ iftype.toNat < 32 ∧ ipv6.length = 16
  | .ambr _ _ => True
  | .chargingId _ => True
  | .ebi inst value => inst.toNat < 16 ∧ value.toNat < 16
  | .pco _ content => content.length ≤ 251
  | .paa pdntype address => pdntype.toNat < 8 ∧ address.length ≤ 21
  | .apnRestriction _ => True
  | .bearerQos _ _ maxUplink maxDownlink guaranteedUplink guaranteedDownlink =>
    maxUplink < 2 ^ 40 ∧ maxDownlink < 2 ^ 40 ∧ guaranteedUplink < 2 ^ 40 ∧
      guaranteedDownlink < 2 ^ 40

/-- The setter of each kind. A PCO comes as from `setup_pco`: in a zeroed buffer of 255 bytes, with
a length that counts the option header. -/
def TypedItem.set : TypedItem → Option (List UInt8)
  | .imsi digits => gtpcImsiSet digits
  | .msisdn digits => gtpcMsisdnSet digits
  | .mei digits => gtpcMeiSet digits
  | .recovery restartCounter => some (gtpcRecoverySet restartCounter)
  | .cause value => some (gtpcCauseSet value)
  | .fTeidV4 inst iftype teid ipv4 => gtpcFTeidSet inst iftype teid (some ipv4) none
  | .fTeidV6 inst iftype teid ipv6 => gtpcFTeidSet inst iftype teid none (some ipv6)
  | .ambr uplink downlink => some (gtpcAmbrSet uplink downlink)
  | .chargingId cid => some (gtpcChargingIdSet cid)
  | .ebi inst value => some (gtpcEbiSet inst value)
  | .pco pcoHead content =>
    gtpcPcoSet pcoHead (content ++ replicate (255 - content.length) 0)
      ((content.length + 1) % 256)
  | .paa pdntype address => gtpcPaaSet pdntype address
  | .apnRestriction type => some (gtpcApnRestrictionSet type)
  | .bearerQos flags qci maxUplink maxDownlink guaranteedUplink guaranteedDownlink =>
    some (gtpcGtpcBearerQosSet flags qci maxUplink maxDownlink guaranteedUplink guaranteedDownlink)

def TypedItem.slot : TypedItem → Slot
  | .imsi _ => .imsi
  | .msisdn _ => .msisdn
  | .mei _ => .mei
  | .recovery _ => .recovery
  | .cause _ => .cause
  | .fTeidV4 .. => .cTeid
  | .fTeidV6 .. => .cTeid
  | .ambr _ _ => .ambrR
  | .chargingId _ => .charg
  | .ebi _ _ => .ebiR
  | .pco _ _ => .pco
  | .paa _ _ => .paa
  | .apnRestriction _ => .apnR
  | .bearerQos .. => .bqosR

def TypedItem.type (it : TypedItem) : UInt8 := it.slot.owner

variable (it : TypedItem)

theorem TypedItem.rootSlot_type : rootSlot it.type = some it.slot := by
  cases it <;> rfl

/-! ## 2. Reading a value off an image -/

def headLength (image : List UInt8) : Nat := be16 (image.getD 1 0) (image.getD 2 0)

def headInst (image : List UInt8) : UInt8 := image.getD 3 0 &&& 0x0f

/-- A five-byte number in network order at `i`. -/
def be40At (image : List UInt8) (i : Nat) : Nat :=
  (image.getD i 0).toNat * 4294967296 + (image.getD (i + 1) 0).toNat * 16777216 +
    (image.getD (i + 2) 0).toNat * 65536 + (image.getD (i + 3) 0).toNat * 256 +
    (image.getD (i + 4) 0).toNat

def decodeItem (s : Slot) (image : List UInt8) : Option TypedItem :=
  match s with
  | .imsi => some (.imsi (gtpcDigitsGet false (digitsOf image 8)))
  | .msisdn => some (.msisdn (gtpcDigitsGet false (digitsOf image 6)))
  | .mei => some (.mei (gtpcDigitsGet false (digitsOf image 8)))
  | .recovery => some (.recovery (image.getD 4 0))
  | .cause => some (.cause (image.getD 4 0))
  | .cTeid =>
    if image.getD 4 0 &&& 0x80 ≠ 0 then
      some (.fTeidV4 (headInst image) (image.getD 4 0 &&& 0x1f) (bswap32 (teidGrekey image))
        (teidBlk image))
    else
      some (.fTeidV6 (headInst image) (image.getD 4 0 &&& 0x1f) (bswap32 (teidGrekey image))
        (slice image 9 16))
  | .ambrR => some (.ambr (bswap32 (load32 image 4)) (bswap32 (load32 image 8)))
  | .charg => some (.chargingId (bswap32 (load32 image 4)))
  | .ebiR => some (.ebi (headInst image) (ebiLow image))
  | .pco => some (.pco (image.getD 4 0) (slice image 5 (headLength image - 1)))
  | .paa => some (.paa (image.getD 4 0 &&& 0x07) (slice image 5 (headLength image - 1)))
  | .apnR => some (.apnRestriction (image.getD 4 0))
  | .bqosR => some (.bearerQos (image.getD 4 0) (image.getD 5 0) (be40At image 6) (be40At image 11)
      (be40At image 16) (be40At image 21))
  | .uTeid | .ambr | .bqos | .ebiB | .pdn | .rat => none

/-! ## 3. Digits -/

def digitText (d : UInt8) : List Nat :=
  let nibble (n : Nat) : List Nat := if n < 10 then [n] else [1, n - 10]
  let low := d.toNat % 16
  let high := d.toNat / 16
  if high = 15 ∧ low = 15 then []
  else if high = 15 then nibble low
  else if low = 15 then nibble high
  else nibble low ++ nibble high

theorem gtpcDigitsGet_eq (errnoRange : Bool) (digits : List UInt8) :
    gtpcDigitsGet errnoRange digits =
      if errnoRange ∨ ofDecimal (digits.flatMap digitText) ≥ 2 ^ 64 then 2 ^ 64 - 1
      else ofDecimal (digits.flatMap digitText) := rfl

theorem digitText_pair {d e : Nat} (hd : d < 10) (he : e < 10) :
    digitText (UInt8.ofNat (d + 16 * e)) = [d, e] := by
  have hlow : (d + 16 * e) % 256 % 16 = d := by omega
  have hhigh : (d + 16 * e) % 256 / 16 = e := by omega
  simp only [digitText, UInt8.toNat_ofNat', hlow, hhigh]
  rw [if_neg (by omega), if_neg (by omega), if_neg (by omega), if_pos hd, if_pos he]
  rfl

theorem digitText_last {d : Nat} (hd : d < 10) : digitText (UInt8.ofNat (d + 240)) = [d] := by
  have hlow : (d + 240) % 256 % 16 = d := by omega
  have hhigh : (d + 240) % 256 / 16 = 15 := by omega
  simp only [digitText, UInt8.toNat_ofNat', hlow, hhigh]
  rw [if_neg (by omega), if_pos trivial, if_pos hd]

theorem flatMap_digitPairs : ∀ {digits : List Nat}, (∀ d ∈ digits, d < 10) →
    (digitPairs digits).flatMap digitText = digits
  | [], _ => rfl
  | [d], h => by
    simp only [digitPairs, flatMap_cons, flatMap_nil, digitText_last (h d (by simp)), append_nil]
  | d :: e :: rest, h => by
    have hrest : ∀ x ∈ rest, x < 10 := fun x hx => h x (by simp [hx])
    simp only [digitPairs, flatMap_cons, digitText_pair (h d (by simp)) (h e (by simp)),
      flatMap_digitPairs hrest]
    rfl

theorem gtpcDigitsGet_set {len n : Nat} (hlen : 0 < len) (h : n < 10 ^ (len * 2))
    (h64 : n < 2 ^ 64) :
    ∃ digits, gtpcDigitsSet len n = some digits ∧ digits.length = len ∧
      gtpcDigitsGet false digits = n := by
  have hdigits : (decimalDigits n).length ≤ len * 2 := by
    unfold decimalDigits
    rw [length_map, Nat.length_toDigits_le_iff (by omega) (by omega)]
    exact h
  have hfill : (replicate (len - (digitPairs (decimalDigits n)).length) 0xff).flatMap digitText =
      [] := by
    rw [flatMap_eq_nil_iff]
    intro d hd
    rw [eq_of_mem_replicate hd]
    decide
  have htext : (digitPairs (decimalDigits n) ++
      replicate (len - (digitPairs (decimalDigits n)).length) 0xff).flatMap digitText =
      decimalDigits n := by
    rw [flatMap_append, hfill, append_nil,
      flatMap_digitPairs fun d hd => lt_ten_of_mem_decimalDigits hd]
  refine ⟨_, if_pos hdigits, ?_, ?_⟩
  · have := length_digitPairs (decimalDigits n)
    simp only [length_append, length_replicate]
    omega
  · rw [gtpcDigitsGet_eq, htext, ofDecimal_decimalDigits, if_neg (by simp; omega)]

/-! ## 4. What the setters write -/

theorem forall_byte_lt {k : Nat} {P : UInt8 → Prop} (h : ∀ n < k, P (UInt8.ofNat n)) {b : UInt8}
    (hb : b.toNat < k) : P b := by
  have := h b.toNat hb
  rwa [UInt8.ofNat_toNat] at this

theorem instance_bits {inst : UInt8} (h : inst.toNat < 16) : inst &&& 0x0f &&& 0x0f = inst :=
  forall_byte_lt (P := fun b => b &&& 0x0f &&& 0x0f = b) (by decide +kernel) h

theorem pdntype_bits {pdntype : UInt8} (h : pdntype.toNat < 8) :
    pdntype &&& 0x07 &&& 0x07 = pdntype :=
  forall_byte_lt (P := fun b => b &&& 0x07 &&& 0x07 = b) (by decide +kernel) h

theorem v4_bits {iftype : UInt8} (h : iftype.toNat < 32) :
    ((iftype &&& 0x1f) ||| 0x80) &&& 0x80 ≠ 0 ∧ ((iftype &&& 0x1f) ||| 0x80) &&& 0x1f = iftype :=
  forall_byte_lt
    (P := fun b => ((b &&& 0x1f) ||| 0x80) &&& 0x80 ≠ 0 ∧ ((b &&& 0x1f) ||| 0x80) &&& 0x1f = b)
    (by decide +kernel) h

theorem v6_bits {iftype : UInt8} (h : iftype.toNat < 32) :
    ((iftype &&& 0x1f) ||| 0x40) &&& 0x80 = 0 ∧ ((iftype &&& 0x1f) ||| 0x40) &&& 0x1f = iftype :=
  forall_byte_lt
    (P := fun b => ((b &&& 0x1f) ||| 0x40) &&& 0x80 = 0 ∧ ((b &&& 0x1f) ||| 0x40) &&& 0x1f = b)
    (by decide +kernel) h

theorem toNat_be40Bytes {n : Nat} (h : n < 2 ^ 40) :
    (UInt8.ofNat (n / 4294967296)).toNat * 4294967296 +
      (UInt8.ofNat (n / 16777216)).toNat * 16777216 + (UInt8.ofNat (n / 65536)).toNat * 65536 +
      (UInt8.ofNat (n / 256)).toNat * 256 + (UInt8.ofNat n).toNat = n := by
  simp only [UInt8.toNat_ofNat']
  omega

/-- A header and what follows it, as the copied image begins. -/
def framed (type inst : UInt8) (body tail : List UInt8) : List UInt8 :=
  gtpcCommHeader type body.length inst ++ body ++ tail

variable (type inst : UInt8)

theorem framed_append (body tail : List UInt8) :
    framed type inst body [] ++ tail = framed type inst body tail := by
  simp [framed]

theorem headLength_framed {body : List UInt8} (tail : List UInt8)
    (h : body.length < 65536) : headLength (framed type inst body tail) = body.length :=
  be16_ofNat _ h

theorem headInst_framed (type : UInt8) {inst : UInt8} (body tail : List UInt8)
    (h : inst.toNat < 16) : headInst (framed type inst body tail) = inst :=
  instance_bits h

theorem slice_framed (front body tail : List UInt8) :
    slice (framed type inst (front ++ body) tail) (4 + front.length) body.length = body := by
  have happ : framed type inst (front ++ body) tail =
      (gtpcCommHeader type (front ++ body).length inst ++ front) ++ (body ++ tail) := by
    simp [framed]
  rw [happ, slice, drop_left' (by simp), take_left']
  rfl

/-- **An encoded value**: the setter writes a header and a body that fit the slot, and the image
gives the value back, whatever lies behind. -/
structure Encoded (it : TypedItem) (inst : UInt8) (body : List UInt8) : Prop where
  set : it.set = some (framed it.type inst body [])
  small : body.length < 256
  fits : it.slot.fits (4 + body.length) = true
  decode : ∀ tail, decodeItem it.slot (framed it.type inst body tail) = some it

theorem digitsOf_framed {digits : List UInt8} (tail : List UInt8) {len : Nat}
    (h : digits.length = len) : digitsOf (framed type inst digits tail) len = digits := by
  subst h
  exact slice_framed type inst [] digits tail

theorem digits_encoded {len n : Nat} (hlen : 0 < len) (hsmall : len < 256)
    (hn : n < 10 ^ (len * 2)) (h64 : n < 2 ^ 64)
    (hset : it.set = (gtpcDigitsSet len n).map (gtpcCommHeader it.type len 0 ++ ·))
    (hfits : it.slot.fits (4 + len) = true)
    (hdecode : ∀ image, gtpcDigitsGet false (digitsOf image len) = n →
      decodeItem it.slot image = some it) :
    ∃ body, Encoded it 0 body := by
  obtain ⟨digits, hdigits, rfl, hget⟩ := gtpcDigitsGet_set hlen hn h64
  refine ⟨digits, ?_, hsmall, hfits, fun tail => hdecode _ ?_⟩
  · simp [hset, hdigits, framed]
  · rw [digitsOf_framed _ _ tail rfl, hget]

variable {inst iftype : UInt8}

/-- An F-TEID with an address of either family, up to the address. -/
theorem fTeid_framed (inst flags : UInt8) (teid : UInt32) (addr tail : List UInt8) :
    (framed gtpcTypeFTeid inst ([flags] ++ bytesOf teid ++ addr) tail).getD 4 0 = flags ∧
      teidGrekey (framed gtpcTypeFTeid inst ([flags] ++ bytesOf teid ++ addr) tail) = teid :=
  ⟨rfl, le32_byteOf _⟩

theorem fTeidV4_encoded (teid ipv4 : UInt32) (hinst : inst.toNat < 16)
    (hiftype : iftype.toNat < 32) :
    Encoded (.fTeidV4 inst iftype teid ipv4) inst
      ([(iftype &&& 0x1f) ||| 0x80] ++ bytesOf (bswap32 teid) ++ bytesOf ipv4) where
  set := by simp [TypedItem.set, gtpcFTeidSet, framed, bytesOf, TypedItem.type, TypedItem.slot, owner]
  small := by simp [bytesOf]
  fits := rfl
  decode tail := by
    obtain ⟨hv4, hif⟩ := v4_bits hiftype
    obtain ⟨hbit, hteid⟩ := fTeid_framed inst ((iftype &&& 0x1f) ||| 0x80)
      (bswap32 teid) (bytesOf ipv4) tail
    have hblk : teidBlk (framed gtpcTypeFTeid inst ([(iftype &&& 0x1f) ||| 0x80] ++
        bytesOf (bswap32 teid) ++ bytesOf ipv4) tail) = ipv4 := le32_byteOf _
    simp only [decodeItem, TypedItem.slot, TypedItem.type, owner, hbit, hif, hteid, hblk,
      headInst_framed _ _ tail hinst, bswap32_bswap32]
    rw [if_pos hv4]

theorem fTeidV6_encoded (teid : UInt32) {ipv6 : List UInt8}
    (hinst : inst.toNat < 16) (hiftype : iftype.toNat < 32) (hlen : ipv6.length = 16) :
    Encoded (.fTeidV6 inst iftype teid ipv6) inst
      ([(iftype &&& 0x1f) ||| 0x40] ++ bytesOf (bswap32 teid) ++ ipv6) where
  set := by
    simp [TypedItem.set, gtpcFTeidSet, framed, bytesOf, hlen, TypedItem.type, TypedItem.slot, owner]
  small := by simp [bytesOf, hlen]
  fits := by simp [bytesOf, hlen, TypedItem.slot, fits, size]
  decode tail := by
    obtain ⟨hv6, hif⟩ := v6_bits hiftype
    obtain ⟨hbit, hteid⟩ := fTeid_framed inst ((iftype &&& 0x1f) ||| 0x40) (bswap32 teid) ipv6 tail
    have hblk : slice (framed gtpcTypeFTeid inst ([(iftype &&& 0x1f) ||| 0x40] ++
        bytesOf (bswap32 teid) ++ ipv6) tail) 9 16 = ipv6 := by
      rw [← hlen]
      exact slice_framed _ _ _ ipv6 tail
    simp only [decodeItem, TypedItem.slot, TypedItem.type, owner, hbit, hif, hteid, hblk,
      headInst_framed _ _ tail hinst, bswap32_bswap32]
    rw [if_neg (not_not_intro hv6)]

/-- The setter's length counts the option header too: the copy is one byte longer than the content,
the item is not. -/
theorem pco_encoded (pcoHead : UInt8) {content : List UInt8} (h : content.length ≤ 251) :
    Encoded (.pco pcoHead content) 0 ([pcoHead] ++ content) where
  set := by
    have hmod : (content.length + 1) % 256 = content.length + 1 := Nat.mod_eq_of_lt (by omega)
    simp only [TypedItem.set, gtpcPcoSet, hmod]
    rw [if_neg (by omega)]
    simp [framed, TypedItem.type, TypedItem.slot, owner]
  small := by simp; omega
  fits := by
    have hlt : 4 + ([pcoHead] ++ content).length < 258 := by simp; omega
    exact decide_eq_true hlt
  decode tail := by
    have hlen : ([pcoHead] ++ content).length = content.length + 1 := by simp
    have hbody := headLength_framed gtpcTypePco 0 tail
      (show ([pcoHead] ++ content).length < 65536 by omega)
    have hslice := slice_framed gtpcTypePco 0 [pcoHead] content tail
    simp only [decodeItem, TypedItem.slot, TypedItem.type, owner, hbody, hlen, Nat.add_sub_cancel]
    exact congrArg some (congrArg (TypedItem.pco pcoHead) hslice)

theorem paa_encoded {pdntype : UInt8} {address : List UInt8} (hpdn : pdntype.toNat < 8)
    (h : address.length ≤ 21) :
    Encoded (.paa pdntype address) 0 ([pdntype &&& 0x07] ++ address) where
  set := by
    simp only [TypedItem.set, gtpcPaaSet]
    rw [if_neg (by omega)]
    simp [framed, TypedItem.type, TypedItem.slot, owner]
  small := by simp; omega
  fits := by
    have hle : 4 + ([pdntype &&& 0x07] ++ address).length ≤ 26 := by simp; omega
    exact decide_eq_true hle
  decode tail := by
    have hlen : ([pdntype &&& 0x07] ++ address).length = address.length + 1 := by simp
    have hbody := headLength_framed gtpcTypePaa 0 tail
      (show ([pdntype &&& 0x07] ++ address).length < 65536 by omega)
    have hslice := slice_framed gtpcTypePaa 0 [pdntype &&& 0x07] address tail
    simp only [decodeItem, TypedItem.slot, TypedItem.type, owner, hbody, hlen, Nat.add_sub_cancel]
    exact congrArg some (congrArg₂ TypedItem.paa (pdntype_bits hpdn) hslice)

theorem ambr_encoded (uplink downlink : UInt32) :
    Encoded (.ambr uplink downlink) 0 (bytesOf (bswap32 uplink) ++ bytesOf (bswap32 downlink)) where
  set := by
    simp [TypedItem.set, gtpcAmbrSet, framed, bytesOf, TypedItem.type, TypedItem.slot, owner]
  small := by simp [bytesOf]
  fits := rfl
  decode tail := by
    have hup : load32 (framed gtpcTypeAmbr 0 (bytesOf (bswap32 uplink) ++
        bytesOf (bswap32 downlink)) tail) 4 = bswap32 uplink := le32_byteOf _
    have hdown : load32 (framed gtpcTypeAmbr 0 (bytesOf (bswap32 uplink) ++
        bytesOf (bswap32 downlink)) tail) 8 = bswap32 downlink := le32_byteOf _
    simp only [decodeItem, TypedItem.slot, TypedItem.type, owner, hup, hdown, bswap32_bswap32]

theorem chargingId_encoded (cid : UInt32) :
    Encoded (.chargingId cid) 0 (bytesOf (bswap32 cid)) where
  set := by
    simp [TypedItem.set, gtpcChargingIdSet, framed, bytesOf, TypedItem.type, TypedItem.slot, owner]
  small := by simp [bytesOf]
  fits := rfl
  decode tail := by
    have hcid : load32 (framed gtpcTypeChargingId 0 (bytesOf (bswap32 cid)) tail) 4 = bswap32 cid :=
      le32_byteOf _
    simp only [decodeItem, TypedItem.slot, TypedItem.type, owner, hcid, bswap32_bswap32]

theorem ebi_encoded {inst value : UInt8} (hinst : inst.toNat < 16) (hvalue : value.toNat < 16) :
    Encoded (.ebi inst value) inst [value &&& 0x0f] where
  set := rfl
  small := by simp
  fits := rfl
  decode tail := by
    have hlow : ebiLow (framed gtpcTypeEbi inst [value &&& 0x0f] tail) = value :=
      instance_bits hvalue
    simp only [decodeItem, TypedItem.slot, TypedItem.type, owner, hlow,
      headInst_framed _ _ tail hinst]

theorem bearerQos_encoded (flags qci : UInt8)
    {maxUplink maxDownlink guaranteedUplink guaranteedDownlink : Nat} (hmu : maxUplink < 2 ^ 40)
    (hmd : maxDownlink < 2 ^ 40) (hgu : guaranteedUplink < 2 ^ 40)
    (hgd : guaranteedDownlink < 2 ^ 40) :
    Encoded (.bearerQos flags qci maxUplink maxDownlink guaranteedUplink guaranteedDownlink) 0
      ([flags, qci] ++ be40Bytes maxUplink ++ be40Bytes maxDownlink ++ be40Bytes guaranteedUplink ++
        be40Bytes guaranteedDownlink) where
  set := by
    simp [TypedItem.set, gtpcGtpcBearerQosSet, framed, be40Bytes, TypedItem.type, TypedItem.slot,
      owner]
  small := by simp [be40Bytes]
  fits := rfl
  decode tail := by
    simp only [decodeItem, TypedItem.slot, TypedItem.type, owner, Option.some.injEq,
      TypedItem.bearerQos.injEq]
    exact ⟨rfl, rfl, toNat_be40Bytes hmu, toNat_be40Bytes hmd, toNat_be40Bytes hgu,
      toNat_be40Bytes hgd⟩

theorem TypedItem.encoded (h : it.InRange) : ∃ inst body, Encoded it inst body := by
  cases it with
  | imsi n =>
    exact ⟨0, digits_encoded (.imsi n) (by decide) (by decide) h (Nat.lt_trans h (by decide)) rfl rfl
      fun image hget => congrArg (fun n => some (TypedItem.imsi n)) hget⟩
  | msisdn n =>
    exact ⟨0, digits_encoded (.msisdn n) (by decide) (by decide) h (Nat.lt_trans h (by decide)) rfl
      rfl fun image hget => congrArg (fun n => some (TypedItem.msisdn n)) hget⟩
  | mei n =>
    exact ⟨0, digits_encoded (.mei n) (by decide) (by decide) h (Nat.lt_trans h (by decide)) rfl rfl
      fun image hget => congrArg (fun n => some (TypedItem.mei n)) hget⟩
  | recovery restartCounter => exact ⟨0, [restartCounter], rfl, by simp, rfl, fun _ => rfl⟩
  | cause value => exact ⟨0, [value, 0], rfl, by simp, rfl, fun _ => rfl⟩
  | fTeidV4 inst iftype teid ipv4 => exact ⟨inst, _, fTeidV4_encoded teid ipv4 h.1 h.2⟩
  | fTeidV6 inst iftype teid ipv6 => exact ⟨inst, _, fTeidV6_encoded teid h.1 h.2.1 h.2.2⟩
  | ambr uplink downlink => exact ⟨0, _, ambr_encoded uplink downlink⟩
  | chargingId cid => exact ⟨0, _, chargingId_encoded cid⟩
  | ebi inst value => exact ⟨inst, _, ebi_encoded h.1 h.2⟩
  | pco pcoHead content => exact ⟨0, _, pco_encoded pcoHead h⟩
  | paa pdntype address => exact ⟨0, _, paa_encoded h.1 h.2⟩
  | apnRestriction type => exact ⟨0, [type], rfl, by simp, rfl, fun _ => rfl⟩
  | bearerQos flags qci mu md gu gd =>
    exact ⟨0, _, bearerQos_encoded flags qci h.1 h.2.1 h.2.2.1 h.2.2.2⟩

/-! ## 5. Through the packet and back -/

variable {bytes : List UInt8} {data : Nat → UInt8}

theorem overwrite_bytes (image : List UInt8) (h : ∀ i < bytes.length, data i = bytes.getD i 0) :
    overwrite image data bytes.length = bytes ++ image.drop bytes.length := by
  have hmap : (range bytes.length).map data = bytes := by
    refine ext_getD (by simp) fun i hi => ?_
    have hi' : i < bytes.length := by simpa using hi
    rw [getD_eq_getElem _ _ hi, getElem_map, getElem_range, h i hi']
  simp [overwrite, splice, hmap]

/-- An item of a root slot that passes the size check raises its flag and is the front of the image.
 The containers of a PCO change neither. -/
theorem onGtpcParseRoot_stored {type : UInt8} {s : Slot} (hslot : rootSlot type = some s)
    (hfits : s.fits bytes.length = true) (hdata : ∀ i < bytes.length, data i = bytes.getD i 0)
    (stack : Nat → UInt8) (cs : GtpcParseState) :
    (onGtpcParseRoot stack type data bytes.length cs).2 = true ∧
      (onGtpcParseRoot stack type data bytes.length cs).1.flag s.have = true ∧
      (onGtpcParseRoot stack type data bytes.length cs).1.item s =
        bytes ++ (cs.item s).drop bytes.length := by
  have hflag : (cs.store s data bytes.length).flag s.have = true := by
    simp [GtpcParseState.store, hfits, setFlag]
  have hitem : (cs.store s data bytes.length).item s = bytes ++ (cs.item s).drop bytes.length := by
    rw [store_item hfits, overwrite_bytes _ hdata]
  unfold onGtpcParseRoot
  rw [hslot]
  by_cases hpco : s = .pco
  · subst hpco
    simp only [hfits, if_true]
    rw [show pco.have = .pco from rfl] at hflag ⊢
    rw [onPco_flag_pco, onPco_item]
    exact ⟨trivial, hflag, hitem⟩
  · cases s with
    | pco => exact absurd rfl hpco
    | _ => exact ⟨rfl, hflag, hitem⟩

theorem gtpcIterateItem_single {pkt : GtpPacket} (hwf : pkt.Wf) {it : GtpItem}
    (hitems : pkt.items = [it]) (hbytes : pkt.itemBytes it = bytes) {s : Slot}
    (hslot : rootSlot it.type = some s) (hfits : s.fits bytes.length = true) (mem : ItemMemory)
    (cs : GtpcParseState) :
    (gtpcIterateItem mem pkt cs).flag s.have = true ∧
      (gtpcIterateItem mem pkt cs).item s = bytes ++ (cs.item s).drop bytes.length := by
  obtain ⟨hlen, hdata⟩ := hwf.item_data (hitems ▸ mem_singleton_self it) mem
  rw [hbytes] at hlen hdata
  have hstored := onGtpcParseRoot_stored hslot hfits hdata mem.stack cs
  unfold gtpcIterateItem
  simp only [hitems, iterateItems, hlen]
  generalize onGtpcParseRoot mem.stack it.type _ bytes.length cs = result at hstored ⊢
  obtain ⟨cs', ok⟩ := result
  obtain ⟨rfl, hflag, hitem⟩ := hstored
  exact ⟨hflag, hitem⟩

def Encoded.wire {it : TypedItem} {inst : UInt8} {body : List UInt8} (h : Encoded it inst body) :
    WireItem where
  type := it.type
  bytes := framed it.type inst body []
  four_le := by simp [framed]
  type_eq := rfl
  length_eq := by
    have hlen := headLength_framed it.type inst [] (Nat.lt_trans h.small (by decide))
    unfold headLength at hlen
    rw [hlen]
    simp [framed, Nat.add_comm]

/-- **Round trip of every kind of item.** For every supported message type, every value in
range, every memory around the payload and every state before, the iteration leaves an item that
gives the value back. -/
theorem item_round_trip (message : UInt8) (hmessage : gtpcTypeIssupported message = true)
    (it : TypedItem) (hit : it.InRange) (past : Nat → UInt8) (mem : ItemMemory)
    (cs : GtpcParseState) :
    ∃ data pkt pkt', it.set = some data ∧
      gtpcAppendItem (gtpcAllocPacket message) it.type data = some pkt ∧
      (gtpcAllocPacketFromPayload (pkt.payload past) pkt.offset).val = some pkt' ∧
      (gtpcIterateItem mem pkt' cs).flag it.slot.have = true ∧
      decodeItem it.slot ((gtpcIterateItem mem pkt' cs).item it.slot) = some it := by
  obtain ⟨inst, body, henc⟩ := it.encoded hit
  have hwf := gtpcAllocPacket_wf message
  have hlen : (framed it.type inst body []).length = 4 + body.length := by simp [framed]
  have hfit : (gtpcAllocPacket message).offset + (framed it.type inst body []).length <
      etherMaxLen := by
    have hsmall := henc.small
    have hoffset : (gtpcAllocPacket message).offset ≤ 12 := by
      rw [gtpcAllocPacket_offset]
      rcases gtpcTypeHeaderlen_cases message with h | h <;> omega
    unfold etherMaxLen
    omega
  have happ : gtpcAppendItem (gtpcAllocPacket message) it.type (framed it.type inst body []) =
      some ((gtpcAllocPacket message).push it.type (framed it.type inst body [])) :=
    gtpcAppendItem_eq_some.mpr ⟨by omega, hwf.length_eq ▸ hfit, rfl⟩
  have hbuild : appendItems (gtpcAllocPacket message) [henc.wire] =
      some ((gtpcAllocPacket message).push it.type (framed it.type inst body [])) :=
    appendItems_cons.mpr ⟨hwf.length_eq ▸ hfit, rfl⟩
  have hparse := parse_appendItems hmessage (by simp [gtpcCapabilityItemCount]) hbuild past
  have hitems : ((gtpcAllocPacket message).push it.type (framed it.type inst body [])).items =
      [⟨it.type, (framed it.type inst body []).length, (gtpcAllocPacket message).offset⟩] := rfl
  obtain ⟨hflag, hitem⟩ := gtpcIterateItem_single (gtpcAppendItems_keeps hwf hbuild).1 hitems
    (GtpPacket.push_itemBytes_last hwf.room hfit) it.rootSlot_type (hlen ▸ henc.fits) mem cs
  refine ⟨_, _, _, henc.set, happ, hparse, hflag, ?_⟩
  rw [hitem, framed_append]
  exact henc.decode _

theorem imsi_round_trip :
    TypedItem.InRange (.imsi 4401234567890123) ∧
      ∃ data pkt pkt', TypedItem.set (.imsi 4401234567890123) = some data ∧
        gtpcAppendItem (gtpcAllocPacket gtpcCreateSessionReq) gtpcTypeImsi data = some pkt ∧
        (gtpcAllocPacketFromPayload (pkt.payload fun _ => 0) pkt.offset).val = some pkt' ∧
        (gtpcIterateItem ⟨fun _ => 0, fun _ => 0⟩ pkt' GtpcParseState.zero).flag .imsi = true ∧
        decodeItem .imsi
            ((gtpcIterateItem ⟨fun _ => 0, fun _ => 0⟩ pkt' GtpcParseState.zero).item .imsi) =
          some (.imsi 4401234567890123) := by
  have hrange : TypedItem.InRange (.imsi 4401234567890123) := by
    unfold TypedItem.InRange
    decide
  exact ⟨hrange, item_round_trip gtpcCreateSessionReq (by decide) (.imsi 4401234567890123) hrange
    (fun _ => 0) ⟨fun _ => 0, fun _ => 0⟩ GtpcParseState.zero⟩

end MixiPgw.Ctrl
