/-
# The tools' GTPv2-C codec

`gtpc.cc` and the item classes `v2_*.cc`: a packet is a list of buffers, one per item.
`GtpcPkt::ref` writes them behind a header, `GtpcPkt::attach` takes such bytes apart again and hands
each item to the class of its type, which keeps it or refuses it.

`Uli` and `Fteid` copy no more than their struct holds and later give out as many bytes as the
length field says, so what follows the struct in memory (`junk`) can get into an item. A bearer
context is attached by attaching its children; the FUEL counts these calls.

An item comes back the same whatever lies in memory exactly when its class takes its size, and for a
bearer context when it has eight bytes of children and each of them comes back (`reread_eq_iff`).
-/
import MixiPgw.Ctrl.Items

namespace MixiPgw.Tools.Gtpc

open Bytes Ctrl List

/-! ## 1. The item classes -/

def gtpcTypeApn : UInt8 := 71
def gtpcTypeIndication : UInt8 := 77
def gtpcTypeServingNetwork : UInt8 := 83
def gtpcTypeUli : UInt8 := 86
def gtpcTypeSelectionMode : UInt8 := 128

/-- The shapes of the `attach` functions. -/
inductive ItemClass
  /-- One size, that of the struct. -/
  | fixed (size : Nat)
  /-- Any length field from 1 to `most`. -/
  | upTo (most : Nat)
  | cause
  | indication
  /-- Items of at least `least` bytes; the copy stops at the size of the struct. -/
  | cut (size least : Nat)
  | any
deriving DecidableEq, Repr

def recovery : ItemClass := .fixed 5
def imsi : ItemClass := .fixed 12
def ambr : ItemClass := .fixed 12
def msisdn : ItemClass := .fixed 10
def mei : ItemClass := .fixed 12
def ebi : ItemClass := .fixed 5
def bqos : ItemClass := .fixed 26
def rat : ItemClass := .fixed 5
def servingNetwork : ItemClass := .fixed 7
def chargingId : ItemClass := .fixed 8
def pdn : ItemClass := .fixed 5
def apnRestriction : ItemClass := .fixed 5
def selectionMode : ItemClass := .fixed 5
def apn : ItemClass := .upTo 32
def pco : ItemClass := .upTo 252
def paa : ItemClass := .upTo 20
def uli : ItemClass := .cut 43 12
def fteid : ItemClass := .cut 25 13

/-- The switch of `attach_impl`, `BearerContext` apart. -/
def itemClass (type : UInt8) : ItemClass :=
  if type = gtpcTypeRecovery then recovery
  else if type = gtpcTypeApn then apn
  else if type = gtpcTypeImsi then imsi
  else if type = gtpcTypeAmbr then ambr
  else if type = gtpcTypeMsisdn then msisdn
  else if type = gtpcTypeCause then .cause
  else if type = gtpcTypeMei then mei
  else if type = gtpcTypeEbi then ebi
  else if type = gtpcTypeIndication then .indication
  else if type = gtpcTypePco then pco
  else if type = gtpcTypePaa then paa
  else if type = gtpcTypeBearerQos then bqos
  else if type = gtpcTypeRatType then rat
  else if type = gtpcTypeServingNetwork then servingNetwork
  else if type = gtpcTypeUli then uli
  else if type = gtpcTypeFTeid then fteid
  else if type = gtpcTypeChargingId then chargingId
  else if type = gtpcTypePdnType then pdn
  else if type = gtpcTypeApnRestriction then apnRestriction
  else if type = gtpcTypeSelectionMode then selectionMode
  else .any

def headLength (data : Nat → UInt8) : Nat := be16 (data 1) (data 2)

/-- `htons` on a little-endian host. -/
def htons (n : Nat) : Nat := n % 256 * 256 + n / 256 % 256

def block (data : Nat → UInt8) (n : Nat) : List UInt8 := (range n).map data

/-- `gtpc_comm_header_t` with its instance byte as it is. -/
def commHeader (type : UInt8) (length : Nat) (inst : UInt8) : List UInt8 :=
  [type] ++ be16Bytes length ++ [inst]

@[simp] theorem length_commHeader (type : UInt8) (length : Nat) (inst : UInt8) :
    (commHeader type length inst).length = 4 := rfl

/-- The largest payload of `Any`, the tools' `ETHER_MAX_LEN`. -/
def etherMaxLen : Nat := 1518

/-- `attach(data, len)` of a class, then `ref()` and `len()` of the object; `none` is `RETERR`. -/
def ItemClass.attach (junk data : Nat → UInt8) (len : Nat) : ItemClass → Option (List UInt8)
  | .fixed size =>
    if len = size ∧ headLength data = size - 4 then some (block data size) else none
  | .upTo most =>
    if 4 < len ∧ 0 < headLength data ∧ headLength data ≤ most then
      some (block data (headLength data + 4))
    else none
  | .cause =>
    if (len = 6 ∨ len = 10) ∧ (headLength data = 2 ∨ headLength data = 6) then some (block data len)
    else none
  | .indication =>
    if len ≤ 10 ∧ 0 < headLength data ∧ headLength data < 6 then
      some (block data (headLength data + 4))
    else none
  | .cut size least =>
    -- both sides of the comparison are in network order
    if least ≤ len ∧ htons (headLength data) ≥ htons (least - 4) then
      some (block (fun i => if i < min size len then data i else junk i) (headLength data + 4))
    else none
  | .any => some (block data (min etherMaxLen len))

/-! ## 2. The packet -/

def headerlen (type : UInt8) : Nat := if type = gtpcEchoReq ∨ type = gtpcEchoRes then 8 else 12

def issupported (type : UInt8) : Bool :=
  [gtpcEchoReq, gtpcEchoRes, gtpcVersionNotSupportedIndication, gtpcCreateSessionReq,
    gtpcCreateSessionRes, gtpcModifyBearerReq, gtpcModifyBearerRes, gtpcDeleteSessionReq,
    gtpcDeleteSessionRes, gtpcDeleteBearerReq, gtpcDeleteBearerRes, gtpcSuspendNotification,
    gtpcResumeNotification].contains type

/-- `GtpcPkt`: `items` are the contents of its buffers. -/
structure GtpcPkt where
  type : UInt8
  pktlen : Nat
  items : List (List UInt8)
deriving DecidableEq, Repr

namespace GtpcPkt

/-- The constructor; its `pktlen_` is the long header's, for every type. -/
def new (type : UInt8) : GtpcPkt := ⟨type, 12, []⟩

variable (pkt : GtpcPkt)

/-- `len()`; a buffer gives its length as 16 bits. -/
def len : Nat :=
  headerlen pkt.type + (pkt.items.map fun item => item.length % 65536).sum

/-- `append`; the flag is its return code. -/
def append (item : List UInt8) : GtpcPkt × Bool :=
  if pkt.pktlen + item.length > 2048 then (pkt, false)
  else
    let pkt' := { pkt with items := pkt.items ++ [item] }
    ({ pkt' with pktlen := pkt'.len }, true)

/-- `ATTACH_INSERT` in the loop of `attach`: an item that was refused is skipped. -/
def keep : Option (List UInt8) → GtpcPkt
  | some item => (pkt.append item).1
  | none => pkt

/-- `ref()`, as the `len()` bytes it points to: version 2, no piggybacking and the TEID bit. The
length of a message WITHOUT a TEID field is four short. -/
def ref : List UInt8 :=
  let offset := headerlen pkt.type
  let echo := pkt.type = gtpcEchoReq ∨ pkt.type = gtpcEchoRes
  [if echo then 0x40 else 0x48, pkt.type] ++
    be16Bytes (if offset = 12 then pkt.len - 4 else pkt.len - 8) ++
    replicate (offset - 4) 0 ++ pkt.items.flatten

end GtpcPkt

/-! ## 3. Attaching -/

/-- The bytes of a bearer context after `calc()`: the header with the length of the children. -/
def bearerBytes (inst : UInt8) (children : List (List UInt8)) : List UInt8 :=
  commHeader gtpcTypeBearerCtx children.flatten.length inst ++ children.flatten

mutual

/-- `attach_impl` up to the append: the bytes of the object of the item's class. -/
def attachImpl (junk : Nat → UInt8) : Nat → (Nat → UInt8) → Nat → Option (List UInt8)
  | 0, _, _ => none
  | fuel + 1, data, hlen =>
    if data 0 = gtpcTypeBearerCtx then
      if hlen < 12 ∨ headLength data ≤ 4 then none
      else
        match attachChildren junk fuel data hlen 4 (.new gtpcTypeBearerCtx) with
        | some child => some (bearerBytes (data 3) child.items)
        | none => none
    else (itemClass (data 0)).attach junk data hlen

/-- The loop of `BearerContext::attach`: a child that is refused refuses the context. -/
def attachChildren (junk : Nat → UInt8) :
    Nat → (Nat → UInt8) → Nat → Nat → GtpcPkt → Option GtpcPkt
  | 0, _, _, _, _ => none
  | fuel + 1, data, len, offset, child =>
    if offset < len then
      let payload := fun i => data (offset + i)
      let hlen := (headLength payload + 4) % 65536
      match attachImpl junk fuel payload hlen with
      | none => none
      | some item =>
        let child' := (child.append item).1
        if offset + hlen > len then none
        else if offset + hlen = len then some child'
        else attachChildren junk fuel data len (offset + hlen) child'
    else some child

end

/-- The loop of `GtpcPkt::attach`: an item that is refused is skipped. -/
def attachLoop (junk : Nat → UInt8) (fuel : Nat) (src : Nat → UInt8) (len : Nat) :
    Nat → Nat → GtpcPkt → Option GtpcPkt
  | 0, _, _ => none
  | n + 1, offset, pinst =>
    if offset < len then
      let payload := fun i => src (offset + i)
      let hlen := (headLength payload + 4) % 65536
      let pinst' := pinst.keep (attachImpl junk fuel payload hlen)
      if offset + hlen > len then none
      else if offset + hlen = len then some pinst'
      else attachLoop junk fuel src len n (offset + hlen) pinst'
    else none

/-- `GtpcPkt::attach`; `none` is `NULL`. -/
def attach (junk : Nat → UInt8) (fuel : Nat) (src : Nat → UInt8) (len : Nat) : Option GtpcPkt :=
  if be16 (src 2) (src 3) < 4 then none
  else if flagsVersion (src 0) ≠ 2 ∨ flagsPiggy (src 0) ≠ 0 then none
  else if ¬ issupported (src 1) then none
  else if headerlen (src 1) > len then none
  else attachLoop junk fuel src len 256 (headerlen (src 1)) (.new (src 1))

/-! ## 4. Items -/

/-- **An item of the codec**: a type, an instance and a value, or a bearer context with its
children. -/
inductive CodecItem
  | leaf (type inst : UInt8) (value : List UInt8) (notBearer : type ≠ gtpcTypeBearerCtx)
  | bearer (inst : UInt8) (children : List CodecItem)

namespace CodecItem

def type : CodecItem → UInt8
  | leaf type _ _ _ => type
  | bearer _ _ => gtpcTypeBearerCtx

mutual

/-- The bytes of an item: the header, with the length of what follows it. -/
def bytes : CodecItem → List UInt8
  | leaf type inst value _ => commHeader type value.length inst ++ value
  | bearer inst children =>
    commHeader gtpcTypeBearerCtx (bytesAll children).length inst ++ bytesAll children

def bytesAll : List CodecItem → List UInt8
  | [] => []
  | it :: rest => it.bytes ++ bytesAll rest

end

mutual

def reread (junk : Nat → UInt8) : CodecItem → Option (List UInt8)
  | leaf type inst value notBearer =>
    (itemClass type).attach junk (fun i => (leaf type inst value notBearer).bytes.getD i 0)
      (value.length + 4)
  | bearer inst children =>
    if (bytesAll children).length < 8 then none
    else (rereadAll junk children).map (bearerBytes inst)

def rereadAll (junk : Nat → UInt8) : List CodecItem → Option (List (List UInt8))
  | [] => some []
  | it :: rest =>
    match it.reread junk with
    | none => none
    | some item => (rereadAll junk rest).map (item :: ·)

end

end CodecItem

/-- The lengths a class takes and gives back as they are. -/
def ItemClass.fits (length : Nat) : ItemClass → Bool
  | .fixed size => length + 4 = size
  | .upTo most => 0 < length && length ≤ most
  | .cause => length = 2 || length = 6
  | .indication => 0 < length && length < 6
  | .cut size least => least ≤ length + 4 && length + 4 ≤ size
  | .any => true

mutual

/-- The item is taken by its class; a bearer context needs eight bytes of children. -/
def CodecItem.attaches : CodecItem → Bool
  | .leaf type _ value _ => (itemClass type).fits value.length
  | .bearer _ children => 8 ≤ (CodecItem.bytesAll children).length && attachesAll children

def attachesAll : List CodecItem → Bool
  | [] => true
  | it :: rest => it.attaches && attachesAll rest

end

/-! ### The classes one by one -/

variable {data data' : Nat → UInt8}

theorem block_congr {n len : Nat} (hn : n ≤ len)
    (hag : ∀ i < len, data i = data' i) : block data n = block data' n :=
  map_congr_left fun i hi => hag i (Nat.lt_of_lt_of_le (mem_range.mp hi) hn)

@[simp] theorem length_block (data : Nat → UInt8) (n : Nat) : (block data n).length = n := by
  simp [block]

theorem block_getD (l : List UInt8) : block (fun i => l.getD i 0) l.length = l := by
  refine ext_getD (length_block _ _) fun j hj => ?_
  rw [length_block] at hj
  simp [block, getD_eq_getElem?_getD, hj]

variable {len : Nat}

theorem ItemClass.attach_congr (cls : ItemClass) (junk : Nat → UInt8)
    (hlen : headLength data + 4 = len) (hag : ∀ i < len, data i = data' i) :
    cls.attach junk data len = cls.attach junk data' len := by
  have hhead : headLength data = headLength data' := by
    unfold headLength
    rw [hag 1 (by omega), hag 2 (by omega)]
  cases cls with
  | fixed size =>
    simp only [attach, hhead]
    split
    · rename_i h
      rw [block_congr (Nat.le_of_eq h.1.symm) hag]
    · rfl
  | upTo most => simp only [attach, ← hhead, hlen, block_congr (Nat.le_refl len) hag]
  | cause => simp only [attach, ← hhead, block_congr (Nat.le_refl len) hag]
  | indication => simp only [attach, ← hhead, hlen, block_congr (Nat.le_refl len) hag]
  | cut size least =>
    have hcut : block (fun i => if i < min size len then data i else junk i) len =
        block (fun i => if i < min size len then data' i else junk i) len :=
      block_congr (Nat.le_refl len) fun i hi => by rw [hag i hi]
    simp only [attach, ← hhead, hlen, hcut]
  | any => simp only [attach, block_congr (Nat.min_le_right etherMaxLen len) hag]

theorem ItemClass.attach_length {cls : ItemClass} {junk data : Nat → UInt8}
    (hlen : headLength data + 4 = len) (hmax : len ≤ etherMaxLen) {item : List UInt8}
    (h : cls.attach junk data len = some item) : item.length = len := by
  cases cls with
  | any =>
    obtain rfl := Option.some.inj h
    rw [length_block, Nat.min_eq_right hmax]
  | _ =>
    simp only [attach] at h
    split at h
    · rename_i hok
      obtain rfl := Option.some.inj h
      refine (length_block _ _).trans ?_
      omega
    · exact absurd h (by simp)

variable {p : Prop}

theorem test_iff [Decidable p] {a b : List UInt8} (hab : p → a = b) :
    (∀ _ : Nat → UInt8, (if p then some a else none) = some b) ↔ p := by
  constructor
  · intro hall
    by_contra hp
    have hnone := hall fun _ => 0
    rw [if_neg hp] at hnone
    exact absurd hnone (by simp)
  · intro hp _
    rw [if_pos hp, hab hp]

theorem htons_le {m n : Nat} (h : m ≤ n) (hn : n < 256) : htons m ≤ htons n := by
  unfold htons
  omega

/-- A struct that is copied in part has less than 260 bytes. -/
def ItemClass.small : ItemClass → Bool
  | .cut size _ => size < 260
  | _ => true

theorem ItemClass.small_ite [Decidable p] {a b : ItemClass} (ha : a.small = true)
    (hb : b.small = true) : (if p then a else b).small = true := by
  split
  · exact ha
  · exact hb

theorem itemClass_small (type : UInt8) : (itemClass type).small = true := by
  unfold itemClass
  repeat' apply ItemClass.small_ite
  all_goals decide

/-- A class gives an item back, whatever lies behind its struct, exactly when it takes its
length. -/
theorem ItemClass.attach_eq_iff (cls : ItemClass) (hcls : cls.small = true) {data : Nat → UInt8}
    (hlen : headLength data + 4 = len) (hmax : len ≤ etherMaxLen) :
    (∀ junk, cls.attach junk data len = some (block data len)) ↔
      cls.fits (headLength data) = true := by
  cases cls with
  | fixed size =>
    simp only [attach, fits, decide_eq_true_eq]
    rw [test_iff fun h => by rw [h.1]]
    omega
  | upTo most =>
    simp only [attach, fits, Bool.and_eq_true, decide_eq_true_eq, hlen]
    rw [test_iff fun _ => rfl]
    omega
  | cause =>
    simp only [attach, fits, Bool.or_eq_true, decide_eq_true_eq]
    rw [test_iff fun _ => rfl]
    omega
  | indication =>
    simp only [attach, fits, Bool.and_eq_true, decide_eq_true_eq, hlen]
    rw [test_iff fun _ => rfl]
    omega
  | cut size least =>
    simp only [attach, fits, Bool.and_eq_true, decide_eq_true_eq, hlen]
    constructor
    · intro h
      -- memory that differs from the item in every byte
      have hsame := h fun i => data i + 1
      split at hsame
      · rename_i hok
        refine ⟨hok.1, ?_⟩
        by_contra hlong
        have hsz : size < len := by omega
        have hbyte : size < min size len := by
          simpa [block, getD_eq_getElem?_getD, hsz] using
            congrArg (fun l => l.getD size 0) (Option.some.inj hsame)
        omega
      · exact absurd hsame (by simp)
    · rintro ⟨hleast, hfit⟩ junk
      have hsmall : size < 260 := of_decide_eq_true hcls
      rw [if_pos ⟨hleast, htons_le (by omega) (by omega)⟩,
        block_congr (Nat.le_refl len) fun i hi => if_pos (by omega)]
  | any =>
    simp only [attach, fits, iff_true]
    intro _
    rw [Nat.min_eq_right hmax]

/-! ### Bytes of an item -/

namespace CodecItem

theorem bytesAll_eq : ∀ items : List CodecItem, bytesAll items = (items.map bytes).flatten
  | [] => rfl
  | it :: rest => by rw [bytesAll, bytesAll_eq rest, map_cons, flatten_cons]

def body : CodecItem → List UInt8
  | leaf _ _ value _ => value
  | bearer _ children => bytesAll children

def inst : CodecItem → UInt8
  | leaf _ inst _ _ => inst
  | bearer inst _ => inst

theorem bytes_eq (it : CodecItem) :
    it.bytes = commHeader it.type it.body.length it.inst ++ it.body := by
  cases it <;> rfl

theorem length_bytes (it : CodecItem) : it.bytes.length = it.body.length + 4 := by
  rw [bytes_eq, length_append, length_commHeader, Nat.add_comm]

variable {it : CodecItem} {data : Nat → UInt8}

theorem header_bytes (hmax : it.bytes.length ≤ etherMaxLen)
    (hag : ∀ i < it.bytes.length, data i = it.bytes.getD i 0) :
    data 0 = it.type ∧ data 3 = it.inst ∧ headLength data + 4 = it.bytes.length := by
  have hlen := it.length_bytes
  have hbound : it.body.length < 65536 := by
    unfold etherMaxLen at hmax
    omega
  have hbyte (i : Nat) (hi : i < 4) : data i =
      (commHeader it.type it.body.length it.inst ++ it.body).getD i 0 := by
    rw [hag i (by omega), bytes_eq]
  refine ⟨hbyte 0 (by decide), hbyte 3 (by decide), ?_⟩
  rw [headLength, hbyte 1 (by decide), hbyte 2 (by decide), hlen]
  exact congrArg (· + 4) (be16_ofNat _ hbound)

/-- The head of items that tile a buffer, and the step that a loop takes over it. -/
theorem head_of_tiled {rest : List CodecItem} {offset : Nat}
    (hmax : (bytesAll (it :: rest)).length ≤ etherMaxLen)
    (hag : ∀ i < (bytesAll (it :: rest)).length,
      data (offset + i) = (bytesAll (it :: rest)).getD i 0) :
    (∀ i < it.bytes.length, data (offset + i) = it.bytes.getD i 0) ∧
      (∀ i < (bytesAll rest).length,
        data (offset + it.bytes.length + i) = (bytesAll rest).getD i 0) ∧
      (headLength (fun i => data (offset + i)) + 4) % 65536 = it.bytes.length := by
  rw [bytesAll, length_append] at hmax hag
  have hitem (i : Nat) (hi : i < it.bytes.length) : data (offset + i) = it.bytes.getD i 0 := by
    rw [hag i (by omega), getD_append _ _ _ _ hi]
  obtain ⟨-, -, hhead⟩ := header_bytes (by omega) hitem
  refine ⟨hitem, ?_, ?_⟩
  · intro i hi
    rw [Nat.add_assoc, hag _ (by omega), getD_append_right _ _ _ _ (by omega),
      Nat.add_sub_cancel_left]
  · rw [hhead]
    unfold etherMaxLen at hmax
    omega

theorem four_le_bytesAll {its : List CodecItem} (hne : its ≠ []) : 4 ≤ (bytesAll its).length := by
  cases its with
  | nil => exact absurd rfl hne
  | cons it rest =>
    have := it.length_bytes
    rw [bytesAll, length_append]
    omega

end CodecItem

/-! ## 5. The code on a tree -/

namespace GtpcPkt

/-- There is room for `n` more bytes, by both lengths a packet has. -/
structure Room (pkt : GtpcPkt) (n : Nat) : Prop where
  pktlen : pkt.pktlen + n ≤ 2048
  len : pkt.len + n ≤ 2048

variable {pkt : GtpcPkt}

theorem append_room {item : List UInt8} {n : Nat} (h : pkt.Room (item.length + n)) :
    (pkt.append item).1.items = pkt.items ++ [item] ∧ (pkt.append item).1.type = pkt.type ∧
      (pkt.append item).2 = true ∧ (pkt.append item).1.Room n := by
  obtain ⟨hpkt, hlen⟩ := h
  have hfit : ¬ pkt.pktlen + item.length > 2048 := by omega
  have hsum (l : Nat) : (⟨pkt.type, l, pkt.items ++ [item]⟩ : GtpcPkt).len =
      pkt.len + item.length := by
    simp only [GtpcPkt.len, map_append, map_cons, map_nil, sum_append, sum_cons, sum_nil]
    omega
  rw [append, if_neg hfit]
  refine ⟨rfl, rfl, rfl, ⟨?_, ?_⟩⟩
  · simp only [hsum]
    omega
  · simp only [hsum]
    omega

theorem keep_room {read : Option (List UInt8)} {size n : Nat}
    (hsize : ∀ item ∈ read, item.length = size) (h : pkt.Room (size + n)) :
    (pkt.keep read).items = pkt.items ++ read.toList ∧ (pkt.keep read).Room n := by
  cases read with
  | none =>
    obtain ⟨hpkt, hlen⟩ := h
    have hroom : pkt.Room n := ⟨by omega, by omega⟩
    exact ⟨(append_nil _).symm, hroom⟩
  | some item =>
    rw [← hsize item rfl] at h
    obtain ⟨hitems, -, -, hroom⟩ := append_room h
    exact ⟨hitems, hroom⟩

end GtpcPkt

namespace CodecItem

mutual

variable {junk : Nat → UInt8}

theorem reread_length {it : CodecItem} {item : List UInt8}
    (hmax : it.bytes.length ≤ etherMaxLen) (h : it.reread junk = some item) :
    item.length = it.bytes.length := by
  match it with
  | leaf type inst value notBearer =>
    obtain ⟨-, -, hhead⟩ := header_bytes hmax fun _ _ => rfl
    rw [length_bytes] at hhead hmax ⊢
    exact ItemClass.attach_length hhead hmax h
  | bearer inst children =>
    simp only [reread] at h
    split at h
    · exact absurd h (by simp)
    · obtain ⟨items, hitems, rfl⟩ := Option.map_eq_some_iff.mp h
      rw [length_bytes] at hmax ⊢
      have hlens := rereadAll_length (by simp only [body] at hmax; omega) hitems
      rw [bearerBytes, length_append, length_commHeader, length_flatten, hlens, body,
        bytesAll_eq, length_flatten, map_map, Nat.add_comm]
      rfl

theorem rereadAll_length {its : List CodecItem} {items : List (List UInt8)}
    (hmax : (bytesAll its).length ≤ etherMaxLen) (h : rereadAll junk its = some items) :
    items.map length = its.map fun it => it.bytes.length := by
  match its with
  | [] =>
    obtain rfl := Option.some.inj h
    rfl
  | it :: rest =>
    rw [bytesAll, length_append] at hmax
    simp only [rereadAll] at h
    split at h
    · exact absurd h (by simp)
    · rename_i item hitem
      obtain ⟨others, hothers, rfl⟩ := Option.map_eq_some_iff.mp h
      rw [map_cons, map_cons, reread_length (by omega) hitem, rereadAll_length (by omega) hothers]

end

mutual

theorem attachImpl_item (junk : Nat → UInt8) (it : CodecItem) {fuel : Nat} {data : Nat → UInt8}
    (hag : ∀ i < it.bytes.length, data i = it.bytes.getD i 0)
    (hmax : it.bytes.length ≤ etherMaxLen) (hfuel : it.bytes.length ≤ fuel) :
    attachImpl junk fuel data it.bytes.length = it.reread junk := by
  obtain ⟨htype, hinst, hhead⟩ := header_bytes hmax hag
  have hlen := it.length_bytes
  obtain ⟨fuel, rfl⟩ : ∃ f, fuel = f + 1 := ⟨fuel - 1, by omega⟩
  match it with
  | leaf type inst value notBearer =>
    have hne : ¬ data 0 = gtpcTypeBearerCtx := by rwa [htype]
    rw [attachImpl, if_neg hne, htype, reread, ItemClass.attach_congr _ junk hhead hag, hlen]
    rfl
  | bearer inst children =>
    simp only [body] at hlen
    rw [attachImpl, if_pos (show data 0 = gtpcTypeBearerCtx from htype), reread]
    by_cases hshort : (bytesAll children).length < 8
    · rw [if_pos (by omega), if_pos hshort]
    · have hroom : (GtpcPkt.new gtpcTypeBearerCtx).Room (bytesAll children).length := by
        unfold etherMaxLen at hmax
        constructor
        · simp only [GtpcPkt.new]
          omega
        · simp only [GtpcPkt.new, GtpcPkt.len, headerlen]
          simp [gtpcTypeBearerCtx, gtpcEchoReq, gtpcEchoRes]
          omega
      have hne : children ≠ [] := by
        rintro rfl
        exact hshort (by decide)
      have hbody (i : Nat) (hi : i < (bytesAll children).length) :
          data (4 + i) = (bytesAll children).getD i 0 := by
        rw [hag _ (by omega), bytes_eq, Nat.add_comm]
        rfl
      have hloop : (attachChildren junk fuel data (bearer inst children).bytes.length 4
          (.new gtpcTypeBearerCtx)).map GtpcPkt.items = (rereadAll junk children).map ([] ++ ·) :=
        attachChildren_items junk children hne hbody (by omega) (by omega) (by omega) hroom
      rw [if_neg (by omega), if_neg hshort, hinst]
      cases hres : attachChildren junk fuel data (bearer inst children).bytes.length 4
          (.new gtpcTypeBearerCtx) with
      | none =>
        rw [hres] at hloop
        cases hall : rereadAll junk children with
        | none => rfl
        | some items => rw [hall] at hloop; exact absurd hloop (by simp)
      | some child =>
        rw [hres] at hloop
        cases hall : rereadAll junk children with
        | none => rw [hall] at hloop; exact absurd hloop (by simp)
        | some items =>
          rw [hall] at hloop
          have hitems : child.items = items := Option.some.inj hloop
          exact congrArg (fun l => some (bearerBytes inst l)) hitems

/-- The loop of `BearerContext::attach` over children that tile the context. -/
theorem attachChildren_items (junk : Nat → UInt8) (its : List CodecItem) {fuel len offset : Nat}
    {data : Nat → UInt8} {child : GtpcPkt} (hne : its ≠ [])
    (hag : ∀ i < (bytesAll its).length, data (offset + i) = (bytesAll its).getD i 0)
    (hlen : len = offset + (bytesAll its).length) (hmax : (bytesAll its).length ≤ etherMaxLen)
    (hfuel : (bytesAll its).length < fuel) (hroom : child.Room (bytesAll its).length) :
    (attachChildren junk fuel data len offset child).map GtpcPkt.items =
      (rereadAll junk its).map (child.items ++ ·) := by
  match its with
  | [] => exact absurd rfl hne
  | it :: rest =>
    obtain ⟨fuel, rfl⟩ : ∃ f, fuel = f + 1 := ⟨fuel - 1, by omega⟩
    have hsize := it.length_bytes
    obtain ⟨hitem, hothers, hhlen⟩ := head_of_tiled hmax hag
    rw [bytesAll, length_append] at hlen hmax hfuel hroom
    have hone : attachImpl junk fuel (fun i => data (offset + i)) it.bytes.length =
        it.reread junk := attachImpl_item junk it hitem (by omega) (by omega)
    rw [attachChildren, if_pos (by omega), rereadAll]
    simp only [hhlen, hone]
    cases hread : it.reread junk with
    | none => rfl
    | some item =>
      have hkeep := reread_length (by omega) hread
      rw [← hkeep] at hroom
      obtain ⟨hitems, -, -, hroom'⟩ := GtpcPkt.append_room hroom
      simp only
      rw [if_neg (by omega)]
      by_cases hlast : rest = []
      · subst hlast
        rw [if_pos (by simp only [bytesAll, length_nil] at hlen; omega)]
        simp [rereadAll, hitems]
      · have hpos := four_le_bytesAll hlast
        rw [if_neg (by omega), attachChildren_items junk rest hlast hothers (by omega) (by omega)
          (by omega) hroom', hitems]
        cases rereadAll junk rest with
        | none => rfl
        | some others => simp

end

/-! ## 6. Items that come back -/

theorem reread_bearer_iff (junk : Nat → UInt8) (inst : UInt8) {children : List CodecItem}
    (hmax : (bytesAll children).length ≤ etherMaxLen) :
    (bearer inst children).reread junk = some (bearer inst children).bytes ↔
      8 ≤ (bytesAll children).length ∧ rereadAll junk children = some (children.map bytes) := by
  have hbytes : (bearer inst children).bytes = bearerBytes inst (children.map bytes) := by
    rw [bytes, bearerBytes, bytesAll_eq]
  rw [reread, hbytes]
  by_cases hshort : (bytesAll children).length < 8
  · rw [if_pos hshort]
    constructor
    · intro h
      exact absurd h (by simp)
    · rintro ⟨hlong, -⟩
      omega
  · rw [if_neg hshort]
    constructor
    · intro h
      obtain ⟨items, hitems, heq⟩ := Option.map_eq_some_iff.mp h
      have hflat := (append_inj heq rfl).2
      have hlens := rereadAll_length hmax hitems
      have hsame : items = children.map bytes :=
        eq_iff_flatten_eq.mpr ⟨hflat, by rw [hlens, map_map]; rfl⟩
      exact ⟨by omega, by rw [hitems, hsame]⟩
    · rintro ⟨-, hall⟩
      rw [hall]
      rfl

theorem rereadAll_cons_iff (junk : Nat → UInt8) (it : CodecItem) (rest : List CodecItem) :
    rereadAll junk (it :: rest) = some ((it :: rest).map bytes) ↔
      it.reread junk = some it.bytes ∧ rereadAll junk rest = some (rest.map bytes) := by
  rw [rereadAll]
  cases it.reread junk with
  | none => simp
  | some item =>
    cases rereadAll junk rest with
    | none => simp
    | some others => simp

mutual

theorem reread_eq_iff (it : CodecItem) (hmax : it.bytes.length ≤ etherMaxLen) :
    (∀ junk, it.reread junk = some it.bytes) ↔ it.attaches = true := by
  match it with
  | leaf type inst value notBearer =>
    obtain ⟨-, -, hhead⟩ := header_bytes hmax fun _ _ => rfl
    have hlen := (leaf type inst value notBearer).length_bytes
    have hclass := (itemClass type).attach_eq_iff (itemClass_small type) hhead hmax
    rw [block_getD, show headLength _ = value.length from by simp only [body] at hlen; omega,
      hlen] at hclass
    exact hclass
  | bearer inst children =>
    have hlen := (bearer inst children).length_bytes
    simp only [body] at hlen
    have hbody : (bytesAll children).length ≤ etherMaxLen := by omega
    have hall := rereadAll_eq_iff children hbody
    simp only [fun junk => reread_bearer_iff junk inst hbody, attaches, Bool.and_eq_true,
      decide_eq_true_eq, ← hall]
    exact ⟨fun h => ⟨(h fun _ => 0).1, fun junk => (h junk).2⟩, fun h junk => ⟨h.1, h.2 junk⟩⟩

theorem rereadAll_eq_iff (its : List CodecItem) (hmax : (bytesAll its).length ≤ etherMaxLen) :
    (∀ junk, rereadAll junk its = some (its.map bytes)) ↔ attachesAll its = true := by
  match its with
  | [] => simp [rereadAll, attachesAll]
  | it :: rest =>
    rw [bytesAll, length_append] at hmax
    have hone := reread_eq_iff it (by omega)
    have hrest := rereadAll_eq_iff rest (by omega)
    simp only [fun junk => rereadAll_cons_iff junk it rest, attachesAll, Bool.and_eq_true, ← hone,
      ← hrest]
    exact forall_and

end

end CodecItem

end MixiPgw.Tools.Gtpc
