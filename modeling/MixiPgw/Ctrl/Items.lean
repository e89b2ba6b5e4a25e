/-
# GTPv2-C items: the setters, and the state a request is parsed into

The item half of `gtpc_item_func.c`. The caller of a setter sends the first `length + 4` bytes of
its struct, and the setter is modelled by those. In `gtpc_parse_state` an item is the image of its
struct, because a later and SHORTER item of the type overwrites only the front. The walks over
bearer contexts and PCO take their length from the packet and can leave the item; `ItemMemory` is
what they then find. `gtpcIterateItem_keeps` are the fields that parsing cannot touch.
-/
import MixiPgw.Ctrl.Packet
import MixiPgw.Lib.CString

namespace MixiPgw.Ctrl

open Bytes CString List

/-! ## 1. Setters -/

def gtpcTypeImsi : UInt8 := 1
def gtpcTypeCause : UInt8 := 2
def gtpcTypeRecovery : UInt8 := 3
def gtpcTypeAmbr : UInt8 := 72
def gtpcTypeEbi : UInt8 := 73
def gtpcTypeMei : UInt8 := 75
def gtpcTypeMsisdn : UInt8 := 76
def gtpcTypePco : UInt8 := 78
def gtpcTypePaa : UInt8 := 79
def gtpcTypeBearerQos : UInt8 := 80
def gtpcTypeRatType : UInt8 := 82
def gtpcTypeFTeid : UInt8 := 87
def gtpcTypeBearerCtx : UInt8 := 93
def gtpcTypeChargingId : UInt8 := 94
def gtpcTypePdnType : UInt8 := 99
def gtpcTypeApnRestriction : UInt8 := 127
def gtpcTypePrivateExtension : UInt8 := 255

def gtpcCauseRequestAccepted : UInt8 := 16
def gtpcCauseRequestDeniedApnAccess : UInt8 := 93

def gtpcCommHeader (type : UInt8) (length : Nat) (inst : UInt8) : List UInt8 :=
  [type] ++ be16Bytes length ++ [inst &&& 0x0f]

variable (type : UInt8)

@[simp] theorem length_gtpcCommHeader (length : Nat) (inst : UInt8) :
    (gtpcCommHeader type length inst).length = 4 := rfl

/-- `gtpc_digits_get`; `errnoRange` is whether `errno`, which it does not clear, is `ERANGE` on
entry. -/
def gtpcDigitsGet (errnoRange : Bool) (digits : List UInt8) : Nat :=
  let nibble (n : Nat) : List Nat := if n < 10 then [n] else [1, n - 10]
  let text := digits.flatMap fun d =>
    let low := d.toNat % 16
    let high := d.toNat / 16
    if high = 15 ∧ low = 15 then []
    else if high = 15 then nibble low
    else if low = 15 then nibble high
    else nibble low ++ nibble high
  if errnoRange ∨ ofDecimal text ≥ 2 ^ 64 then 2 ^ 64 - 1 else ofDecimal text

/-- The digit pairs of `gtpc_digits_set`, low nibble first. -/
def digitPairs : List Nat → List UInt8
  | [] => []
  | [d] => [UInt8.ofNat (d + 240)]
  | d :: e :: rest => UInt8.ofNat (d + 16 * e) :: digitPairs rest

theorem length_digitPairs : ∀ l : List Nat, (digitPairs l).length = (l.length + 1) / 2
  | [] => rfl
  | [_] => by simp [digitPairs]
  | _ :: _ :: rest => by
    simp only [digitPairs, length_cons, length_digitPairs rest]
    omega

/-- `gtpc_digits_set` into `len` bytes; `none` when there are too many digits. -/
def gtpcDigitsSet (len : Nat) (digit : Nat) : Option (List UInt8) :=
  let bf := decimalDigits digit
  if bf.length ≤ len * 2 then
    some (digitPairs bf ++ replicate (len - (digitPairs bf).length) 0xff)
  else none

def gtpcRecoverySet (restartCounter : UInt8) : List UInt8 :=
  gtpcCommHeader gtpcTypeRecovery 1 0 ++ [restartCounter]

def gtpcCauseSet (cause : UInt8) : List UInt8 :=
  gtpcCommHeader gtpcTypeCause 2 0 ++ [cause, 0]

def gtpcMsisdnSet (digits : Nat) : Option (List UInt8) :=
  (gtpcDigitsSet 6 digits).map (gtpcCommHeader gtpcTypeMsisdn 6 0 ++ ·)

/-- `gtpc_f_teid_set`; the IPv4 address wins when both are given. -/
def gtpcFTeidSet (inst iftype : UInt8) (teid : UInt32) (ipv4 : Option UInt32)
    (ipv6 : Option (List UInt8)) : Option (List UInt8) :=
  match ipv4, ipv6 with
  | some v4, _ =>
    some (gtpcCommHeader gtpcTypeFTeid 9 inst ++ [(iftype &&& 0x1f) ||| 0x80] ++
      bytesOf (bswap32 teid) ++ bytesOf v4)
  | none, some v6 =>
    some (gtpcCommHeader gtpcTypeFTeid 21 inst ++ [(iftype &&& 0x1f) ||| 0x40] ++
      bytesOf (bswap32 teid) ++ v6)
  | none, none => none

def gtpcAmbrSet (uplink downlink : UInt32) : List UInt8 :=
  gtpcCommHeader gtpcTypeAmbr 8 0 ++ bytesOf (bswap32 uplink) ++ bytesOf (bswap32 downlink)

def gtpcChargingIdSet (cid : UInt32) : List UInt8 :=
  gtpcCommHeader gtpcTypeChargingId 4 0 ++ bytesOf (bswap32 cid)

def gtpcEbiSet (inst ebi : UInt8) : List UInt8 :=
  gtpcCommHeader gtpcTypeEbi 1 inst ++ [ebi &&& 0x0f]

/-- `gtpc_pco_set` into a struct with option header `pcoHead`, which the length counts. -/
def gtpcPcoSet (pcoHead : UInt8) (pco : List UInt8) (len : Nat) : Option (List UInt8) :=
  if len ≥ 253 then none
  else some (gtpcCommHeader gtpcTypePco len 0 ++ [pcoHead] ++ pco.take (len - 1))

def gtpcPaaSet (pdntype : UInt8) (paa : List UInt8) : Option (List UInt8) :=
  if paa.length > 21 then none
  else some (gtpcCommHeader gtpcTypePaa (paa.length + 1) 0 ++ [pdntype &&& 0x07] ++ paa)

def gtpcApnRestrictionSet (type : UInt8) : List UInt8 :=
  gtpcCommHeader gtpcTypeApnRestriction 1 0 ++ [type]

/-- `gtpc_bearer_ctx_add_child`: the children so far and one more. -/
def gtpcBearerCtxAddChild (children child : List UInt8) : Option (List UInt8) :=
  if children.length + child.length ≥ 256 then none else some (children ++ child)

def gtpcBearerCtxBytes (children : List UInt8) : List UInt8 :=
  gtpcCommHeader gtpcTypeBearerCtx children.length 0 ++ children

/-! ## 2. The parse state -/

/-- The `HAVE_…` bits of `flag` and `flag_v1`. -/
inductive Have
  | msisdn | fteidC | fteidU | ambr | bqos | record | imsi | recovery | cause | mei | chrgid | ebi
  | pco | paa | apnR | bqosR | bctx | ebiB | ambrR | pdn | rat
  | ipcpPDns | ipcpSDns | ipv4LinkMtu | nonipLinkMtu | dnsIpv4 | dnsIpv6 | resOrder
  | v1 | v1Msisdn | v1TeidData | v1TeidCtrl | v1IpadrData | v1IpadrCtrl | v1Imsi | v1Qos | v1Pco
  | v1Nsapi | v1Cause
deriving DecidableEq, Repr

def setFlag (flag : Have → Bool) (h : Have) : Have → Bool := fun g => g = h || flag g

def hasAll (flag : Have → Bool) (hs : List Have) : Bool := hs.all flag

def hasAny (flag : Have → Bool) (hs : List Have) : Bool := hs.any flag

def includedAll : List Have := [.msisdn, .fteidC, .fteidU, .ambrR, .bqos]
def pcoAll : List Have := [.ipv4LinkMtu, .nonipLinkMtu, .dnsIpv6, .dnsIpv4]

structure DbFields where
  ueIpv : List UInt8
  ueIpvN : UInt32
  sgwCTeid : UInt32
  pgwTeid : UInt32
  pgwUIpv : List UInt8
  pgwUIpvN : UInt32
  pgwCIpv : List UInt8
  pgwCIpvN : UInt32
  imsiNum : Nat
  msisdnNum : Nat
  ebi : UInt8

inductive Slot
  | msisdn | cTeid | uTeid | ambr | bqos | imsi | recovery | cause | mei | charg | ebiR | pco | paa
  | apnR | bqosR | ebiB | ambrR | pdn | rat
deriving DecidableEq, Repr

def Slot.size : Slot → Nat
  | .msisdn => 10 | .cTeid => 25 | .uTeid => 25 | .ambr => 12 | .bqos => 26 | .imsi => 12
  | .recovery => 5 | .cause => 10 | .mei => 12 | .charg => 8 | .ebiR => 5 | .pco => 258
  | .paa => 26 | .apnR => 5 | .bqosR => 26 | .ebiB => 5 | .ambrR => 12 | .pdn => 5 | .rat => 5

def Slot.have : Slot → Have
  | .msisdn => .msisdn | .cTeid => .fteidC | .uTeid => .fteidU | .ambr => .ambr | .bqos => .bqos
  | .imsi => .imsi | .recovery => .recovery | .cause => .cause | .mei => .mei | .charg => .chrgid
  | .ebiR => .ebi | .pco => .pco | .paa => .paa | .apnR => .apnR | .bqosR => .bqosR
  | .ebiB => .ebiB | .ambrR => .ambrR | .pdn => .pdn | .rat => .rat

/-- The size check in front of the copy: digits and PAA may be shorter than their struct, an
F-TEID may leave out the IPv6 address and a cause its offending item, PCO stays strictly below. -/
def Slot.fits (s : Slot) (datalen : Nat) : Bool :=
  match s with
  | .msisdn | .imsi | .mei | .paa => datalen ≤ s.size
  | .cTeid | .uTeid => datalen = s.size || datalen = s.size - 12
  | .cause => datalen = s.size || datalen = s.size - 4
  | .pco => datalen < s.size
  | _ => datalen = s.size

/-- `gtpc_parse_state`; an item is the image of its struct, header included. -/
structure GtpcParseState where
  gtphSeqno : UInt32
  gtphTeid : UInt32
  flag : Have → Bool
  flagV1 : Have → Bool
  item : Slot → List UInt8
  qos : List UInt8
  nsapi : UInt8
  db : DbFields

def GtpcParseState.zero : GtpcParseState where
  gtphSeqno := 0
  gtphTeid := 0
  flag := fun _ => false
  flagV1 := fun _ => false
  item := fun s => replicate s.size 0
  qos := []
  nsapi := 0
  db :=
    { ueIpv := replicate 32 0, ueIpvN := 0, sgwCTeid := 0, pgwTeid := 0
      pgwUIpv := replicate 32 0, pgwUIpvN := 0, pgwCIpv := replicate 32 0
      pgwCIpvN := 0, imsiNum := 0, msisdnNum := 0, ebi := 0 }

def load32 (image : List UInt8) (i : Nat) : UInt32 :=
  le32 (image.getD i 0) (image.getD (i + 1) 0) (image.getD (i + 2) 0) (image.getD (i + 3) 0)

/-- `f_teid.teid_grekey`, in the byte order of the packet. -/
def teidGrekey (fteid : List UInt8) : UInt32 := load32 fteid 5

/-- The first four bytes of `f_teid.blk`. -/
def teidBlk (fteid : List UInt8) : UInt32 := load32 fteid 9

def ebiLow (ebi : List UInt8) : UInt8 := ebi.getD 4 0 &&& 0x0f

def pdnType (pdn : List UInt8) : UInt8 := pdn.getD 4 0 &&& 0x07

/-! ## 3. The parse callbacks -/

/-- Memory behind the packet buffer, and behind the item fields of the parse state (indexed like its
PCO field). -/
structure ItemMemory where
  heap : Nat → UInt8
  stack : Nat → UInt8

def overwrite (image : List UInt8) (data : Nat → UInt8) (datalen : Nat) : List UInt8 :=
  splice image 0 ((range datalen).map data)

/-- One branch of a parse callback: an item that passes the size check is copied over the front of
its image and raises its flag. -/
def GtpcParseState.store (cs : GtpcParseState) (s : Slot) (data : Nat → UInt8) (datalen : Nat) :
    GtpcParseState :=
  if s.fits datalen then
    { cs with
      flag := setFlag cs.flag s.have
      item := fun t => if t = s then overwrite (cs.item s) data datalen else cs.item t }
  else cs

def bearerSlot (type : UInt8) : Option Slot :=
  if type = gtpcTypeFTeid then some .uTeid
  else if type = gtpcTypeBearerQos then some .bqos
  else if type = gtpcTypeEbi then some .ebiB
  else if type = gtpcTypeAmbr then some .ambr
  else none

/-- `on_gtpc_parse_bearer_context`; it never fails. -/
def onGtpcParseBearerContext (type : UInt8) (data : Nat → UInt8) (datalen : Nat)
    (cs : GtpcParseState) : GtpcParseState :=
  match bearerSlot type with
  | some s => cs.store s data datalen
  | none => cs

/-- The loop of `gtpc_iterate_bearer_ctx_item`; first, what is left of the item count. A child is
handed over before its end is compared with the context's. -/
def bearerCtxLoop (data : Nat → UInt8) (len : Nat) :
    Nat → Nat → GtpcParseState → GtpcParseState × Bool
  | 0, _, cs => (cs, false)
  | n + 1, cur, cs =>
    if cur < len then
      let child := fun i => data (4 + cur + i)
      let hlen := (be16 (child 1) (child 2) + 4) % 65536
      let cs' := onGtpcParseBearerContext (child 0) child hlen cs
      let cur' := (cur + hlen) % 65536
      if cur' > len then (cs', false)
      else if cur' = len then (cs', true)
      else bearerCtxLoop data len n cur' cs'
    else (cs, false)

def gtpcIterateBearerCtxItem (data : Nat → UInt8) (cs : GtpcParseState) : GtpcParseState × Bool :=
  bearerCtxLoop data (be16 (data 1) (data 2)) gtpcCapabilityItemCount 0 cs

def ipcpOption (type : UInt8) (cs : GtpcParseState) : GtpcParseState :=
  if type = 0x81 then
    { cs with flag := setFlag cs.flag .ipcpPDns, flagV1 := setFlag cs.flagV1 .ipcpPDns }
  else if type = 0x83 then
    { cs with flag := setFlag cs.flag .ipcpSDns, flagV1 := setFlag cs.flagV1 .ipcpSDns }
  else cs

/-- `gtpc_iterate_pco_ipcp_item`: the two options of a block of the expected size. -/
def gtpcIteratePcoIpcpItem (item : Nat → UInt8) (cs : GtpcParseState) : Option GtpcParseState :=
  if be16 (item 2) (item 3) ≠ 16 then none
  else some (ipcpOption (item 10) (ipcpOption (item 4) cs))

def pcoContainer (type : Nat) : Option Have :=
  if type = 0x000d then some .dnsIpv4
  else if type = 0x0003 then some .dnsIpv6
  else if type = 0x0010 then some .ipv4LinkMtu
  else if type = 0x0015 then some .nonipLinkMtu
  else none

/-- The container loop of the PCO branch, over the bytes of `pco.pco`. -/
def pcoLoop (pco : Nat → UInt8) (len : Nat) : Nat → Nat → GtpcParseState → GtpcParseState
  | 0, _, cs => cs
  | n + 1, offset, cs =>
    if offset < len then
      let pilen := (pco (offset + 2)).toNat
      let type := be16 (pco offset) (pco (offset + 1))
      let cs1 :=
        if pilen = 0 ∨ cs.flag .resOrder then
          match pcoContainer type with
          | some h => { cs with flag := setFlag cs.flag h }
          | none => cs
        else cs
      if type = 0x8021 then
        match gtpcIteratePcoIpcpItem (fun i => pco (offset + 3 + i)) cs1 with
        | none => cs1
        | some cs2 => pcoLoop pco len n (offset + 3 + pilen) cs2
      else pcoLoop pco len n (offset + 3 + pilen) cs1
    else cs

/-- An empty container is a request, and in a response any. -/
def requestV2 (type pilen : Nat) (cs : GtpcParseState) : GtpcParseState :=
  if pilen = 0 ∨ cs.flag .resOrder then
    match pcoContainer type with
    | some h => { cs with flag := setFlag cs.flag h }
    | none => cs
  else cs

/-- One turn of a container loop; `request` is what a container asks for by its identifier, and
`rest` are the turns that follow. -/
def pcoTurn (request : Nat → Nat → GtpcParseState → GtpcParseState) (pco : Nat → UInt8) (len : Nat)
    (rest : Nat → GtpcParseState → GtpcParseState) (offset : Nat) (cs : GtpcParseState) :
    GtpcParseState :=
  if offset < len then
    let cs1 := request (be16 (pco offset) (pco (offset + 1))) (pco (offset + 2)).toNat cs
    if be16 (pco offset) (pco (offset + 1)) = 0x8021 then
      match gtpcIteratePcoIpcpItem (fun i => pco (offset + 3 + i)) cs1 with
      | none => cs1
      | some cs2 => rest (offset + 3 + (pco (offset + 2)).toNat) cs2
    else rest (offset + 3 + (pco (offset + 2)).toNat) cs1
  else cs

/-- The container loops of both parsers. -/
structure PcoLoop (request : Nat → Nat → GtpcParseState → GtpcParseState) (pco : Nat → UInt8)
    (len : Nat) (loop : Nat → Nat → GtpcParseState → GtpcParseState) : Prop where
  zero : ∀ offset cs, loop 0 offset cs = cs
  succ : ∀ n offset cs, loop (n + 1) offset cs = pcoTurn request pco len (loop n) offset cs

theorem pcoLoop_isLoop (pco : Nat → UInt8) (len : Nat) :
    PcoLoop requestV2 pco len (pcoLoop pco len) :=
  ⟨fun _ _ => rfl, fun _ _ _ => rfl⟩

/-- The invariant rule of the container loops. -/
theorem PcoLoop.keeps {request : Nat → Nat → GtpcParseState → GtpcParseState} {pco : Nat → UInt8}
    {len : Nat} {loop : Nat → Nat → GtpcParseState → GtpcParseState} {P : GtpcParseState → Prop}
    (h : PcoLoop request pco len loop)
    (hrequest : ∀ type pilen cs, P cs → P (request type pilen cs))
    (hipcp : ∀ type cs, P cs → P (ipcpOption type cs)) (n : Nat) {offset : Nat}
    {cs : GtpcParseState} (hcs : P cs) : P (loop n offset cs) := by
  induction n generalizing offset cs with
  | zero =>
    rw [h.zero]
    exact hcs
  | succ n ih =>
    have hown := hrequest (be16 (pco offset) (pco (offset + 1))) (pco (offset + 2)).toNat cs hcs
    rw [h.succ]
    unfold pcoTurn gtpcIteratePcoIpcpItem
    dsimp only
    split
    · split
      · -- an IPCP block of another size ends the loop behind the container's own flag
        split
        · exact hown
        · next cs2 hitem =>
          split at hitem <;> cases hitem
          exact ih (hipcp _ _ (hipcp _ _ hown))
      · exact ih hown
    · exact hcs

/-- What a container can ask for by its identifier. -/
def containerRequests : List Have := [.dnsIpv4, .dnsIpv6, .ipv4LinkMtu, .nonipLinkMtu]

theorem mem_containerRequests {type : Nat} {h : Have} (hc : pcoContainer type = some h) :
    h ∈ containerRequests := by
  unfold pcoContainer at hc
  repeat' split at hc
  all_goals cases hc
  all_goals decide

def slotsBehindPco : List Slot := [.paa, .apnR, .bqosR, .ebiB, .ambrR, .pdn, .rat]

/-- `cs->pco.pco[i]`; behind the array come the fields that follow. -/
def pcoByte (stack : Nat → UInt8) (cs : GtpcParseState) (i : Nat) : UInt8 :=
  if i < 253 then (cs.item .pco).getD (5 + i) 0
  else (slotsBehindPco.flatMap cs.item).getD (i - 253) (stack i)

/-- The PCO branch of `on_gtpc_parse_root`, behind its size check. A length field below 2 makes the
`size_t` huge. -/
def onPco (stack : Nat → UInt8) (cs : GtpcParseState) : GtpcParseState :=
  let image := cs.item .pco
  let len := (be16 (image.getD 1 0) (image.getD 2 0) + 2 ^ 64 - 2) % 2 ^ 64
  pcoLoop (pcoByte stack cs) len 255 0 cs

def rootSlot (type : UInt8) : Option Slot :=
  if type = gtpcTypeMsisdn then some .msisdn
  else if type = gtpcTypeImsi then some .imsi
  else if type = gtpcTypeRecovery then some .recovery
  else if type = gtpcTypeCause then some .cause
  else if type = gtpcTypeMei then some .mei
  else if type = gtpcTypeFTeid then some .cTeid
  else if type = gtpcTypeAmbr then some .ambrR
  else if type = gtpcTypeChargingId then some .charg
  else if type = gtpcTypeEbi then some .ebiR
  else if type = gtpcTypeRatType then some .rat
  else if type = gtpcTypePco then some .pco
  else if type = gtpcTypePaa then some .paa
  else if type = gtpcTypeApnRestriction then some .apnR
  else if type = gtpcTypeBearerQos then some .bqosR
  else if type = gtpcTypePdnType then some .pdn
  else none

/-- `on_gtpc_parse_root`; the flag is its return code. Only a bearer context can fail. -/
def onGtpcParseRoot (stack : Nat → UInt8) (type : UInt8) (data : Nat → UInt8) (datalen : Nat)
    (cs : GtpcParseState) : GtpcParseState × Bool :=
  match rootSlot type with
  | some .pco =>
    if Slot.pco.fits datalen then (onPco stack (cs.store .pco data datalen), true) else (cs, true)
  | some s => (cs.store s data datalen, true)
  | none =>
    if type = gtpcTypeBearerCtx then
      gtpcIterateBearerCtxItem data { cs with flag := setFlag cs.flag .bctx }
    else (cs, true)

/-- `gtpc_iterate_item` with `on_gtpc_parse_root`, up to the first error, which the handlers
ignore. -/
def iterateItems (mem : ItemMemory) (packet : List UInt8) :
    List GtpItem → GtpcParseState → GtpcParseState
  | [], cs => cs
  | it :: rest, cs =>
    let data := fun i => packet.getD (it.offset + i) (mem.heap (it.offset + i))
    match onGtpcParseRoot mem.stack it.type data it.length cs with
    | (cs', true) => iterateItems mem packet rest cs'
    | (cs', false) => cs'

def gtpcIterateItem (mem : ItemMemory) (pkt : GtpPacket) (cs : GtpcParseState) : GtpcParseState :=
  iterateItems mem pkt.packet pkt.items cs

/-! ## 4. What a response takes from the parse state -/

def pcoDnsIpv6Val : List UInt8 :=
  [0x00, 0x03, 0x10, 0x20, 0x01, 0x48, 0x60, 0x48, 0x60, 0x00, 0x00, 0x00, 0x00, 0x00, 0x00, 0x00,
    0x00, 0x88, 0x88, 0x00, 0x03, 0x10, 0x20, 0x01, 0x48, 0x60, 0x48, 0x60, 0x00, 0x00, 0x00, 0x00,
    0x00, 0x00, 0x00, 0x00, 0x88, 0x44]

def pcoDnsIpv4Val : List UInt8 :=
  [0x00, 0x0d, 0x04, 0x08, 0x08, 0x08, 0x08, 0x00, 0x0d, 0x04, 0x08, 0x08, 0x04, 0x04]

/-- `PCO_DNS_IPV64_VAL` lists the same four servers. -/
def pcoDnsIpv64Val : List UInt8 := pcoDnsIpv6Val ++ pcoDnsIpv4Val

def pcoMtuIpv4Val : List UInt8 := [0x00, 0x10, 0x02, 0x05, 0xb8]
def pcoMtuNonipVal : List UInt8 := [0x00, 0x15, 0x02, 0x05, 0xb8]

def pcoDnsIpcpIpv4Val : List UInt8 :=
  [0x80, 0x21, 0x10, 0x03, 0x00, 0x00, 0x10, 0x81, 0x06, 0x08, 0x08, 0x08, 0x08, 0x83, 0x06,
    0x08, 0x08, 0x04, 0x04]

/-- The DNS part of `setup_pco` (built without `__IPV64__`). -/
def pcoDnsPart (cs : GtpcParseState) : List UInt8 :=
  if hasAll cs.flag [.dnsIpv4, .dnsIpv6] then
    if cs.flag .pdn ∧ pdnType (cs.item .pdn) = 3 then pcoDnsIpv4Val else pcoDnsIpv64Val
  else if cs.flag .dnsIpv6 then pcoDnsIpv6Val
  else if cs.flag .dnsIpv4 then pcoDnsIpv4Val
  else []

def pcoMtuPart (cs : GtpcParseState) : List UInt8 :=
  if cs.flag .nonipLinkMtu then pcoMtuNonipVal
  else if cs.flag .ipv4LinkMtu then pcoMtuIpv4Val
  else []

def pcoIpcpPart (cs : GtpcParseState) : List UInt8 :=
  if hasAll cs.flag [.ipcpSDns, .ipcpPDns] then pcoDnsIpcpIpv4Val else []

/-- `setup_pco`; `none` where it returns `ERR`. -/
def setupPco (cs : GtpcParseState) : Option (List UInt8) :=
  if hasAny cs.flag pcoAll then
    let pcobuffer := pcoDnsPart cs ++ pcoMtuPart cs ++ pcoIpcpPart cs
    let pcoHead := if pcoMtuPart cs ++ pcoIpcpPart cs = [] then 0 else 0x80
    if pcobuffer.length > 1 then
      gtpcPcoSet pcoHead (pcobuffer ++ replicate (255 - pcobuffer.length) 0)
        ((pcobuffer.length + 1) % 256)
    else none
  else none

/-- `gtpc_private_extension_set`: the values as they lie in memory, so the TEID of the gateway in
host order and the others in network order. -/
def gtpcPrivateExtensionSet (cs : GtpcParseState) : List UInt8 :=
  gtpcCommHeader gtpcTypePrivateExtension 28 0 ++ [0, 0] ++ [0, 0] ++ bytesOf 0xdeadbeaf ++
    bytesOf (teidBlk (cs.item .uTeid)) ++ bytesOf (teidGrekey (cs.item .uTeid)) ++
    bytesOf cs.db.ueIpvN ++ bytesOf cs.db.pgwTeid ++ bytesOf cs.db.pgwUIpvN

variable (cs : GtpcParseState)

@[simp] theorem length_gtpcPrivateExtensionSet :
    (gtpcPrivateExtensionSet cs).length = 32 := rfl

theorem length_pcoDnsPart : (pcoDnsPart cs).length ≤ 52 := by
  unfold pcoDnsPart
  repeat' split
  all_goals decide

theorem length_pcoMtuPart : (pcoMtuPart cs).length ≤ 5 := by
  unfold pcoMtuPart
  repeat' split
  all_goals decide

theorem length_pcoIpcpPart : (pcoIpcpPart cs).length ≤ 19 := by
  unfold pcoIpcpPart
  split <;> decide

theorem length_setupPco {cs : GtpcParseState} {item : List UInt8} (h : setupPco cs = some item) :
    0 < item.length ∧ item.length ≤ 81 := by
  have h1 := length_pcoDnsPart cs
  have h2 := length_pcoMtuPart cs
  have h3 := length_pcoIpcpPart cs
  simp only [setupPco] at h
  split at h
  · split at h
    · unfold gtpcPcoSet at h
      split at h
      · cases h
      · cases h
        simp only [length_append, length_gtpcCommHeader, length_take, length_cons,
          length_nil, length_replicate]
        omega
    · cases h
  · cases h

/-! ## 5. What parsing leaves alone -/

/-- **The fields no item can reach.** -/
structure SameSession (cs cs' : GtpcParseState) : Prop where
  seqno : cs'.gtphSeqno = cs.gtphSeqno
  teid : cs'.gtphTeid = cs.gtphTeid
  db : cs'.db = cs.db
  record : cs'.flag .record = cs.flag .record

theorem SameSession.refl : SameSession cs cs := ⟨rfl, rfl, rfl, rfl⟩

theorem SameSession.trans {a b c : GtpcParseState} (h : SameSession a b) (h' : SameSession b c) :
    SameSession a c :=
  ⟨h'.seqno.trans h.seqno, h'.teid.trans h.teid, h'.db.trans h.db, h'.record.trans h.record⟩

theorem setFlag_record {flag : Have → Bool} {h : Have} (hne : h ≠ .record) :
    setFlag flag h .record = flag .record := by
  simp [setFlag, hne.symm]

theorem Slot.have_ne_record (s : Slot) : s.have ≠ .record := by
  cases s <;> decide

theorem store_sameSession (s : Slot) (data : Nat → UInt8) (datalen : Nat) :
    SameSession cs (cs.store s data datalen) := by
  unfold GtpcParseState.store
  split
  · exact ⟨rfl, rfl, rfl, setFlag_record s.have_ne_record⟩
  · exact SameSession.refl cs

theorem onGtpcParseBearerContext_sameSession (data : Nat → UInt8) (datalen : Nat)
    (cs : GtpcParseState) : SameSession cs (onGtpcParseBearerContext type data datalen cs) := by
  unfold onGtpcParseBearerContext
  split
  · exact store_sameSession cs _ data datalen
  · exact SameSession.refl cs

theorem bearerCtxLoop_sameSession (data : Nat → UInt8) (len : Nat) :
    ∀ (n cur : Nat) (cs : GtpcParseState), SameSession cs (bearerCtxLoop data len n cur cs).1
  | 0, _, cs => SameSession.refl cs
  | n + 1, cur, cs => by
    simp only [bearerCtxLoop]
    split
    · have hstep := onGtpcParseBearerContext_sameSession (data (4 + cur + 0))
        (fun i => data (4 + cur + i)) ((be16 (data (4 + cur + 1)) (data (4 + cur + 2)) + 4) % 65536) cs
      split
      · exact hstep
      · split
        · exact hstep
        · exact hstep.trans (bearerCtxLoop_sameSession data len n _ _)
    · exact SameSession.refl cs

theorem ipcpOption_sameSession (cs : GtpcParseState) : SameSession cs (ipcpOption type cs) := by
  unfold ipcpOption
  split
  · exact ⟨rfl, rfl, rfl, setFlag_record (h := .ipcpPDns) (by decide)⟩
  · split
    · exact ⟨rfl, rfl, rfl, setFlag_record (h := .ipcpSDns) (by decide)⟩
    · exact SameSession.refl cs

theorem requestV2_sameSession (type pilen : Nat) (cs : GtpcParseState) :
    SameSession cs (requestV2 type pilen cs) := by
  unfold requestV2
  split
  · split
    · next h hc =>
      refine ⟨rfl, rfl, rfl, setFlag_record ?_⟩
      rintro rfl
      exact absurd (mem_containerRequests hc) (by decide)
    · exact SameSession.refl cs
  · exact SameSession.refl cs

theorem onPco_sameSession (stack : Nat → UInt8) (cs : GtpcParseState) :
    SameSession cs (onPco stack cs) :=
  (pcoLoop_isLoop _ _).keeps (fun _ _ _ h => h.trans (requestV2_sameSession ..))
    (fun _ _ h => h.trans (ipcpOption_sameSession ..)) 255 (SameSession.refl cs)

theorem gtpcIterateBearerCtxItem_sameSession (data : Nat → UInt8) (cs : GtpcParseState) :
    SameSession cs (gtpcIterateBearerCtxItem data cs).1 := by
  exact bearerCtxLoop_sameSession data _ gtpcCapabilityItemCount 0 cs

theorem onGtpcParseRoot_sameSession (stack : Nat → UInt8) (type : UInt8) (data : Nat → UInt8)
    (datalen : Nat) (cs : GtpcParseState) :
    SameSession cs (onGtpcParseRoot stack type data datalen cs).1 := by
  have hbctx : SameSession cs { cs with flag := setFlag cs.flag .bctx } :=
    ⟨rfl, rfl, rfl, setFlag_record (h := .bctx) (by decide)⟩
  unfold onGtpcParseRoot
  split
  · split
    · dsimp only
      exact (store_sameSession cs _ data datalen).trans (onPco_sameSession stack _)
    · exact SameSession.refl cs
  · exact store_sameSession cs _ data datalen
  · split
    · exact hbctx.trans (gtpcIterateBearerCtxItem_sameSession data _)
    · exact SameSession.refl cs

theorem iterateItems_sameSession (mem : ItemMemory) (packet : List UInt8) :
    ∀ (items : List GtpItem) (cs : GtpcParseState), SameSession cs (iterateItems mem packet items cs)
  | [], cs => SameSession.refl cs
  | it :: rest, cs => by
    have hstep := onGtpcParseRoot_sameSession mem.stack it.type
      (fun i => packet.getD (it.offset + i) (mem.heap (it.offset + i))) it.length cs
    simp only [iterateItems]
    split
    · rename_i heq
      rw [heq] at hstep
      exact hstep.trans (iterateItems_sameSession mem packet rest _)
    · rename_i heq
      rw [heq] at hstep
      exact hstep

theorem gtpcIterateItem_keeps (mem : ItemMemory) (pkt : GtpPacket) (cs : GtpcParseState) :
    SameSession cs (gtpcIterateItem mem pkt cs) :=
  iterateItems_sameSession mem pkt.packet pkt.items cs

end MixiPgw.Ctrl
