/-
# The three tunnel workers

`ModifyPacket` of `CorePgwEgressTunnelWorker`, `CorePgwIngressTunnelWorker` and
`CorePgwIngressDistributorWorker`, over the table that `CorePgwBaseWorker` keeps. Besides its
return code a call can leave the buffer on the error-indication ring or free it; `none` is a write
through a null pointer. `modifyPacket_spec` is for all three; `ingressTunnel_ret` and
`ingressDistributor_spec` are exactly which frames are handed on.
-/
import MixiPgw.Data.Mbuf
import Mathlib.Logic.Function.Basic

namespace MixiPgw.Data

open Bytes Option Function Mbuf

/-! ## 1. The lookup table -/

/-- The part of `lookup_t` that names a session. -/
structure Entry where
  active : Bool
  mode : Mode
  ueIpv4 : UInt32
  ueTeid : UInt32
  sgwGtpuTeid : UInt32
  sgwGtpuIpv4 : UInt32
  pgwGtpuIpv4 : UInt32
deriving DecidableEq

/-- `lookup_t`: an entry and its two token buckets. -/
structure Lookup extends Entry where
  epochW : UInt32
  commitRate : UInt32
  commitBurstSize : UInt32
  commitInformationRate : UInt32
  excessRate : UInt32
  excessBurstSize : UInt32
  excessInformationRate : UInt32
deriving DecidableEq

def zeroLookup : Lookup where
  active := false
  mode := .lte
  ueIpv4 := 0
  ueTeid := 0
  sgwGtpuTeid := 0
  sgwGtpuIpv4 := 0
  pgwGtpuIpv4 := 0
  epochW := 0
  commitRate := 0
  commitBurstSize := 0
  commitInformationRate := 0
  excessRate := 0
  excessBurstSize := 0
  excessInformationRate := 0

def Lookup.refill (itm : Lookup) (now : UInt32) : Lookup :=
  let dt := now - itm.epochW
  if dt ≠ 0 then
    { itm with
      commitRate := min itm.commitBurstSize (itm.commitRate + itm.commitInformationRate * dt)
      excessRate := min itm.excessBurstSize (itm.excessRate + itm.excessInformationRate * dt)
      epochW := now }
  else itm

def Lookup.police (itm : Lookup) (now : UInt32) (size : BitVec 12) : Lookup × Color :=
  let itm := itm.refill now
  let size := UInt32.ofNat size.toNat
  if size ≤ itm.commitRate then ({ itm with commitRate := itm.commitRate - size }, .green)
  else if size ≤ itm.excessRate then ({ itm with excessRate := itm.excessRate - size }, .yellow)
  else (itm, .red)

theorem Lookup.refill_toEntry (itm : Lookup) (now : UInt32) :
    (itm.refill now).toEntry = itm.toEntry := by
  unfold refill
  dsimp only
  split <;> rfl

theorem Lookup.police_toEntry (itm : Lookup) (now : UInt32) (size : BitVec 12) :
    (itm.police now size).1.toEntry = itm.toEntry := by
  rw [← itm.refill_toEntry now]
  unfold police
  dsimp only
  repeat' split
  all_goals rfl

abbrev LookupMap := UInt32 → Option Lookup

def find (map : LookupMap) (key : UInt32) : Option Lookup := map (bswap32 key)

/-- `Find(key, callback, arg)`: the callback may change the entry; `none` is a missing key or an
error of the callback. -/
def findUpdate {α : Type} (map : LookupMap) (key : UInt32)
    (callback : Lookup → Option (Lookup × α)) : Option (LookupMap × α) :=
  match map (bswap32 key) with
  | none => none
  | some itm =>
    match callback itm with
    | none => none
    | some (itm', a) => some (update map (bswap32 key) (some itm'), a)

/-! ## 2. Workers -/

inductive Kind
  | egressTunnel
  | ingressTunnel
  | ingressDistributor
deriving DecidableEq, Repr

/-- The kind of a worker, which optional rings there are, and the numbers of `SetN`; burst sizes are
positive. -/
structure Conf where
  kind : Kind
  ringErrInd : Bool
  ringWarmup : Bool
  burstFm : Nat
  burstTo : Nat
  flushDelay : Nat
  greipv4 : UInt32
  gresrcipv4 : UInt32
  burstFm_pos : 0 < burstFm
  burstTo_pos : 0 < burstTo

structure Worker where
  map : LookupMap
  findkey : UInt32
  lookupItm : Lookup

/-- A frame of a burst: the buffer, the second, and whether the error-indication ring and the output
ring take what they are offered. -/
structure Frame where
  mbuf : Mbuf
  now : UInt32
  errEnq : Bool
  bulkEnq : Bool

/-- The end of `ModifyPacket`: where the buffer has been put. -/
structure Modified where
  worker : Worker
  mbuf : Mbuf
  err : Bool
  freed : Bool
  ret : Nat

def forward (w : Worker) (m : Mbuf) : Modified := ⟨w, m, false, false, 0⟩

def drop (w : Worker) (m : Mbuf) : Modified := ⟨w, m, false, true, 1⟩

/-- A failed lookup: the error-indication ring, if there is one. -/
def reject (conf : Conf) (errEnq : Bool) (w : Worker) (m : Mbuf) : Modified :=
  if conf.ringErrInd then ⟨w, m, errEnq, !errEnq, 1⟩
  else forward w { m with udata := { m.udata with flag := .dc } }

/-! ## 3. Egress tunnel -/

/-- The source is the 6rd gateway, so that an IPv6 header follows. -/
def isSixrd (m : Mbuf) : Bool := m.word 26 == bswap32 sixrdEncapperAddr

/-- `ipkey`: the UE's IPv4 address, or what stands for it in an IPv6 address. -/
def egressKey (m : Mbuf) : UInt32 :=
  if isSixrd m then (m.word (34 + 24 + 4) &&& 0xffffff00) ||| 0x0000000a else m.word 30

def outerIp (len : Nat) (check : List UInt8) (src dst : UInt32) : List UInt8 :=
  [0x45, 0] ++ be16Bytes len ++ [1, 0, 0, 0, 64, 17] ++ check ++ bytesOf src ++ bytesOf dst

def iph (pktLen : Nat) (itm : Lookup) : List UInt8 :=
  let raw := outerIp (pktLen - 14) [0, 0] itm.pgwGtpuIpv4 itm.sgwGtpuIpv4
  outerIp (pktLen - 14) (wrapsum (checksum (fun i => raw.getD i 0) 20 0)) itm.pgwGtpuIpv4
    itm.sgwGtpuIpv4

/-- `udph_`: both ports are 2152, no checksum, a 16-bit length. -/
def udph (pktLen : Nat) : List UInt8 :=
  be16Bytes 2152 ++ be16Bytes 2152 ++ be16Bytes (pktLen + 65536 - 14 - 20) ++ [0, 0]

/-- `gtpuh_`: version 1, protocol type GTP, a G-PDU. -/
def gtpuh (pktLen : Nat) (itm : Lookup) : List UInt8 :=
  [0x30, 255] ++ be16Bytes (pktLen + 65536 - 14 - 20 - 8 - 8) ++ bytesOf itm.sgwGtpuTeid

/-- A 6rd frame has an outer IPv4 header already. -/
def encapsulate (m : Mbuf) (itm : Lookup) : Option Mbuf :=
  let n := if isSixrd m then 8 + 8 else 20 + 8 + 8
  let m := if isSixrd m then m.write 12 [0x08, 0x00] else m
  match m.prepend n with
  | none => none
  | some pkt =>
    let pkt := pkt.write 0 (pkt.bytes n 14)
    let len := pkt.pktLen
    some (((pkt.write 14 (iph len itm)).write 34 (udph len)).write 42 (gtpuh len itm))

def egressTunnelModifyPacket (conf : Conf) (now : UInt32) (errEnq : Bool) (w : Worker) (m : Mbuf) :
    Option Modified :=
  if isUser m then
    let size := BitVec.ofNat 12 m.pktLen - 14
    -- the key of the frame BEFORE this one: `findkey_` is assigned below
    let udat : UserDat := ⟨.dc, size, .green, .lte, w.findkey⟩
    let w := { w with findkey := egressKey m &&& 0xffffff00 }
    match findUpdate w.map w.findkey fun itm => some ((itm.police now size).1, itm.police now size) with
    | none => some (reject conf errEnq w { m with udata := udat })
    | some (map, itm, color) =>
      match encapsulate m itm with
      | none => none
      | some pkt =>
        some (forward { w with map := map, lookupItm := itm }
          { pkt with udata := { udat with flag := .pdu, color := color, mode := itm.mode } })
  else some (forward w { m with udata := UserDat.zero })

/-! ## 4. Ingress tunnel -/

def gtphTid (m : Mbuf) : UInt32 := m.word 46

def innerVersion (m : Mbuf) : UInt8 := m.byte 50 &&& 0xf0

/-- `ipkey`: the inner source address; `none` if it is neither IPv4 nor IPv6. -/
def innerSource (m : Mbuf) : Option UInt32 :=
  if innerVersion m = 0x40 then some (m.word (50 + 12))
  else if innerVersion m = 0x60 then some (m.word (50 + 8 + 4))
  else none

/-- The IPv4 header of a 6rd frame. `gtph->length` has been zeroed, so the total length is always
20, and the checksum is thrown away. -/
def ipCap (ipkey : UInt32) : List UInt8 :=
  [0x45, 0] ++ be16Bytes (0 + 20) ++ [0, 0, 0, 0, 0xff, 41, 0, 0] ++
    bytesOf ((ipkey &&& 0xffffff00) ||| 0x0000000a) ++ bytesOf (bswap32 sixrdEncapperAddr)

def decapsulate (m : Mbuf) (ipkey : UInt32) : Option (Mbuf × BitVec 12) :=
  if innerVersion m = 0x60 then
    let m := m.write 12 [0x08, 0x00]
    match m.adj (8 + 8) with
    | none => none
    | some pkt =>
      some ((pkt.write 0 (m.bytes 0 14)).write 14 (ipCap ipkey),
        BitVec.ofNat 12 pkt.pktLen - 14 - 20)
  else
    match m.adj (20 + 8 + 8) with
    | none => none
    | some pkt => some (pkt.write 0 (m.bytes 0 14), BitVec.ofNat 12 pkt.pktLen - 14)

/-- The source address has to be the entry's but for its first octet; then the packet is policed. -/
def ingressCallback (ipkey now : UInt32) (size : BitVec 12) (itm : Lookup) :
    Option (Lookup × (Lookup × Color)) :=
  if itm.ueIpv4 &&& 0xffffff00 ≠ ipkey &&& 0xffffff00 then none
  else some ((itm.police now size).1, itm.police now size)

def ingressTunnelModifyPacket (conf : Conf) (now : UInt32) (errEnq : Bool) (w : Worker)
    (m : Mbuf) : Option Modified :=
  if isPdu m then
    match innerSource m with
    | none => some (drop w { m with udata := UserDat.zero })
    | some ipkey =>
      match decapsulate m ipkey with
      | none => some (drop w { m with udata := UserDat.zero })
      | some (pkt, size) =>
        let udat : UserDat := ⟨.dc, size, .green, .lte, 0⟩
        let w := { w with findkey := ipkey }
        match findUpdate w.map (bswap32 (gtphTid m)) (ingressCallback ipkey now size) with
        | none => some (reject conf errEnq w { pkt with udata := udat })
        | some (map, itm, color) =>
          some (forward { w with map := map, lookupItm := itm }
            { pkt with
              udata := ⟨.pdu, size, color, itm.mode, itm.ueIpv4 &&& 0xffffff00⟩ })
  else some (forward w { m with udata := UserDat.zero })

/-! ## 5. Ingress distributor -/

/-- A failed lookup or a foreign source address. Nobody checks that the ring exists, and
`return(0)` follows when it has TAKEN the buffer. -/
def distributorReject (conf : Conf) (errEnq : Bool) (w : Worker) (m : Mbuf) : Option Modified :=
  if conf.ringErrInd then
    if errEnq then some ⟨w, m, true, false, 0⟩ else some (drop w m)
  else none

/-- GTP-U rewritten to GRE in place, with IP options for the padding. -/
def greRewrite (conf : Conf) (m : Mbuf) : Mbuf :=
  let m := (m.write 14 [0x48]).write 26 (bytesOf (bswap32 conf.gresrcipv4))
  let m := ((m.write 30 (bytesOf (bswap32 conf.greipv4))).write 23 [47]).write 24 [0, 0]
  let m := (m.write 34 (List.replicate 12 0x01)).write 46 [0x00, 0x00, 0x08, 0x00]
  let m := m.write 24 (wrapsum (checksum (fun i => m.byte (14 + i)) 32 0))
  m.write 0 (m.bytes 6 6 ++ m.bytes 0 6)

def ingressDistributorModifyPacket (conf : Conf) (errEnq : Bool) (w : Worker) (m : Mbuf) :
    Option Modified :=
  match innerSource m with
  | none => some (drop w m)
  | some ipkey =>
    match find w.map (bswap32 (gtphTid m)) with
    | none => distributorReject conf errEnq w m
    | some itm =>
      if itm.ueIpv4 &&& 0xffffff00 ≠ ipkey &&& 0xffffff00 then distributorReject conf errEnq w m
      else some (forward w (greRewrite conf m))

/-! ## 6. Any worker -/

def modifyPacket (conf : Conf) (now : UInt32) (errEnq : Bool) (w : Worker) (m : Mbuf) :
    Option Modified :=
  match conf.kind with
  | .egressTunnel => egressTunnelModifyPacket conf now errEnq w m
  | .ingressTunnel => ingressTunnelModifyPacket conf now errEnq w m
  | .ingressDistributor => ingressDistributorModifyPacket conf errEnq w m

def Modified.places (r : Modified) : Nat :=
  (if r.ret = 0 then 1 else 0) + (if r.err then 1 else 0) + (if r.freed then 1 else 0)

/-- **The anti-spoofing check**: the TEID is in the table and the inner source is the UE's but for
the first octet. -/
def authentic (map : LookupMap) (m : Mbuf) : Bool :=
  match innerSource m with
  | none => false
  | some ipkey =>
    match map (gtphTid m) with
    | none => false
    | some itm => itm.ueIpv4 &&& 0xffffff00 == ipkey &&& 0xffffff00

/-- The inner packet is IPv4 or IPv6 and the frame is long enough. -/
def decapsulable (m : Mbuf) : Bool :=
  (innerSource m).isSome && (if innerVersion m = 0x60 then 8 + 8 else 20 + 8 + 8) ≤ m.pktLen

def SameEntries (map map' : LookupMap) : Prop :=
  ∀ k, (map' k).map Lookup.toEntry = (map k).map Lookup.toEntry

theorem SameEntries.refl (map : LookupMap) : SameEntries map map := fun _ => rfl

theorem SameEntries.trans {a b c : LookupMap} (h : SameEntries a b) (h' : SameEntries b c) :
    SameEntries a c := fun k => (h' k).trans (h k)

variable {map map' : LookupMap}

theorem authentic_congr (h : SameEntries map map') (m : Mbuf) :
    authentic map' m = authentic map m := by
  have hk := h (gtphTid m)
  unfold authentic
  cases innerSource m with
  | none => rfl
  | some ipkey =>
    cases h' : map' (gtphTid m) with
    | none =>
      have h0 : map (gtphTid m) = none := by simpa [h'] using hk.symm
      rw [h0]
    | some itm' =>
      obtain ⟨itm, h0, hentry⟩ : ∃ itm, map (gtphTid m) = some itm ∧ itm.toEntry = itm'.toEntry := by
        simpa [h', map_eq_some_iff] using hk.symm
      rw [h0]
      dsimp only
      rw [show itm'.ueIpv4 = itm.ueIpv4 from congrArg Entry.ueIpv4 hentry.symm]

theorem findUpdate_some {α : Type} {key : UInt32} {a : α}
    {callback : Lookup → Option (Lookup × α)} (h : findUpdate map key callback = some (map', a)) :
    ∃ itm itm', map (bswap32 key) = some itm ∧ callback itm = some (itm', a) ∧
      map' = update map (bswap32 key) (some itm') := by
  unfold findUpdate at h
  split at h
  · cases h
  · rename_i itm hitm
    split at h
    · cases h
    · rename_i itm' a' hcb
      cases h
      exact ⟨itm, itm', hitm, hcb, rfl⟩

theorem findUpdate_sameEntries {α : Type} {key : UInt32} {a : α}
    {callback : Lookup → Option (Lookup × α)}
    (hcb : ∀ itm itm' a, callback itm = some (itm', a) → itm'.toEntry = itm.toEntry)
    (h : findUpdate map key callback = some (map', a)) : SameEntries map map' := by
  obtain ⟨itm, itm', hitm, hsome, rfl⟩ := findUpdate_some h
  intro k
  by_cases hk : k = bswap32 key
  · subst hk
    rw [update_self, hitm]
    exact congrArg some (hcb itm itm' a hsome)
  · rw [update_of_ne hk]

theorem ingressCallback_some {ipkey now : UInt32} {size : BitVec 12} {itm itm' : Lookup}
    {a : Lookup × Color} (h : ingressCallback ipkey now size itm = some (itm', a)) :
    itm' = (itm.police now size).1 ∧ a = itm.police now size := by
  unfold ingressCallback at h
  split at h
  · cases h
  · cases h
    exact ⟨rfl, rfl⟩

theorem ingressCallback_toEntry {ipkey now : UInt32} {size : BitVec 12} (itm itm' : Lookup)
    (a : Lookup × Color) (h : ingressCallback ipkey now size itm = some (itm', a)) :
    itm'.toEntry = itm.toEntry := by
  obtain ⟨rfl, -⟩ := ingressCallback_some h
  exact itm.police_toEntry now size

section

variable {conf : Conf} {now : UInt32} {errEnq : Bool} {w : Worker} {m : Mbuf} {r : Modified}

theorem id_encapsulate {itm : Lookup} {pkt : Mbuf} (h : encapsulate m itm = some pkt) :
    pkt.id = m.id := by
  unfold encapsulate at h
  dsimp only at h
  split at h
  · cases h
  · rename_i p hp
    cases h
    have hid := id_prepend hp
    simp only [id_write, hid]
    split <;> rfl

theorem id_decapsulate {ipkey : UInt32} {pkt : Mbuf} {size : BitVec 12}
    (h : decapsulate m ipkey = some (pkt, size)) : pkt.id = m.id := by
  unfold decapsulate at h
  split at h
  · dsimp only at h
    split at h
    · cases h
    · rename_i p hp
      cases h
      have hid := id_adj hp
      exact hid
  · split at h
    · cases h
    · rename_i p hp
      cases h
      have hid := id_adj hp
      exact hid

structure Kept (w : Worker) (m : Mbuf) (r : Modified) : Prop where
  id : r.mbuf.id = m.id
  places : r.places = 1
  entries : SameEntries w.map r.worker.map

variable {m' : Mbuf}

theorem kept_forward {w' : Worker} (hid : m'.id = m.id)
    (hmap : SameEntries w.map w'.map) : Kept w m (forward w' m') := ⟨hid, rfl, hmap⟩

theorem kept_drop (hid : m'.id = m.id) : Kept w m (drop w m') :=
  ⟨hid, rfl, .refl _⟩

theorem kept_reject {w' : Worker} (hid : m'.id = m.id) (hmap : w'.map = w.map) :
    Kept w m (reject conf errEnq w' m') := by
  unfold reject
  split
  · refine ⟨hid, ?_, hmap ▸ .refl _⟩
    cases errEnq <;> rfl
  · exact kept_forward hid (hmap ▸ .refl _)

theorem egressTunnel_kept (h : egressTunnelModifyPacket conf now errEnq w m = some r) :
    Kept w m r := by
  unfold egressTunnelModifyPacket at h
  split at h
  · dsimp only at h
    split at h
    · cases h
      exact kept_reject rfl rfl
    · rename_i map itm color hfind
      split at h
      · cases h
      · rename_i pkt hpkt
        cases h
        have hid := id_encapsulate hpkt
        refine kept_forward hid (findUpdate_sameEntries ?_ hfind)
        intro itm itm' a hcb
        obtain ⟨rfl, -⟩ := Prod.mk.inj (some.inj hcb)
        exact itm.police_toEntry _ _
  · cases h
    exact kept_forward rfl (.refl _)

/-- **The frame's own key**: its destination, or for 6rd bytes 4 to 7 of that, without the first
octet. -/
def ownKey (m : Mbuf) : UInt32 :=
  (if isSixrd m then m.word (34 + 24 + 4) else m.word 30) &&& 0xffffff00

theorem egressKey_masked (m : Mbuf) : egressKey m &&& 0xffffff00 = ownKey m := by
  unfold egressKey ownKey
  split
  · rw [show (0x0000000a : UInt32) = le32 0x0a 0 0 0 from rfl]
    simp only [word, le32_and_ffffff00, le32_zero_or]
  · rfl

def udatSize (m : Mbuf) : BitVec 12 := BitVec.ofNat 12 m.pktLen - 14

theorem egressTunnel_pass (huser : isUser m = false) :
    egressTunnelModifyPacket conf now errEnq w m =
      some (forward w { m with udata := UserDat.zero }) := by
  unfold egressTunnelModifyPacket
  rw [huser]
  rfl

theorem egressTunnel_notFound (huser : isUser m = true) (hmap : w.map (bswap32 (ownKey m)) = none) :
    egressTunnelModifyPacket conf now errEnq w m =
      some (reject conf errEnq { w with findkey := ownKey m }
        { m with udata := ⟨.dc, udatSize m, .green, .lte, w.findkey⟩ }) := by
  unfold egressTunnelModifyPacket findUpdate
  simp only [huser, egressKey_masked, hmap]
  rfl

/-- A user frame with a session; its user data has the key of the frame before. -/
theorem egressTunnel_found {itm : Lookup} (huser : isUser m = true)
    (hmap : w.map (bswap32 (ownKey m)) = some itm) :
    egressTunnelModifyPacket conf now errEnq w m =
      (encapsulate m (itm.police now (udatSize m)).1).map fun pkt =>
        forward
          ⟨update w.map (bswap32 (ownKey m)) (some (itm.police now (udatSize m)).1),
            ownKey m, (itm.police now (udatSize m)).1⟩
          { pkt with
            udata := ⟨.pdu, udatSize m, (itm.police now (udatSize m)).2, itm.mode, w.findkey⟩ } := by
  have hmode : (itm.police now (udatSize m)).1.mode = itm.mode :=
    congrArg Entry.mode (itm.police_toEntry now (udatSize m))
  have hsize : BitVec.ofNat 12 m.pktLen - 14 = udatSize m := rfl
  unfold egressTunnelModifyPacket findUpdate
  simp only [huser, egressKey_masked, hmap, hsize, hmode]
  cases encapsulate m (itm.police now (udatSize m)).1 <;> rfl

theorem ingressTunnel_kept (h : ingressTunnelModifyPacket conf now errEnq w m = some r) :
    Kept w m r := by
  unfold ingressTunnelModifyPacket at h
  split at h
  · split at h
    · cases h
      exact kept_drop rfl
    · split at h
      · cases h
        exact kept_drop rfl
      · rename_i pkt size hdec
        have hid := id_decapsulate hdec
        dsimp only at h
        split at h
        · cases h
          exact kept_reject hid rfl
        · rename_i map itm color hfind
          cases h
          exact kept_forward hid (findUpdate_sameEntries ingressCallback_toEntry hfind)
  · cases h
    exact kept_forward rfl (.refl _)

/-- The distributor has rejected the frame and the error-indication ring has taken it. -/
def doubled (errEnq : Bool) (map : LookupMap) (m : Mbuf) : Bool :=
  (innerSource m).isSome && !authentic map m && errEnq

theorem distributorReject_spec (h : distributorReject conf errEnq w m = some r) :
    conf.ringErrInd = true ∧ r.mbuf.id = m.id ∧ r.places = (if errEnq then 2 else 1) ∧
      r.worker = w ∧ (r.ret = 0 ↔ errEnq = true) := by
  unfold distributorReject at h
  split at h
  · rename_i hring
    split at h
    · rename_i henq
      cases h
      simp [hring, henq, Modified.places]
    · rename_i henq
      cases h
      simp [hring, henq, Modified.places, drop]
  · cases h

/-- The distributor, exactly. It hands on what passes the check, and what it has rejected if
the error-indication ring took it. -/
theorem ingressDistributor_spec (h : ingressDistributorModifyPacket conf errEnq w m = some r) :
    r.mbuf.id = m.id ∧ r.worker = w ∧
      r.places = (if doubled errEnq w.map m then 2 else 1) ∧
      (r.ret = 0 ↔ authentic w.map m = true ∨ doubled errEnq w.map m = true) := by
  unfold ingressDistributorModifyPacket find at h
  rw [bswap32_bswap32] at h
  unfold doubled authentic
  cases hsrc : innerSource m with
  | none =>
    rw [hsrc] at h
    obtain rfl := some.inj h
    simp [drop, Modified.places]
  | some ipkey =>
    rw [hsrc] at h
    dsimp only at h ⊢
    cases hmap : w.map (gtphTid m) with
    | none =>
      rw [hmap] at h
      obtain ⟨-, hid, hplaces, hw, hret⟩ := distributorReject_spec h
      exact ⟨hid, hw, by simpa using hplaces, by simpa using hret⟩
    | some itm =>
      rw [hmap] at h
      dsimp only at h ⊢
      split at h
      · rename_i hne
        obtain ⟨-, hid, hplaces, hw, hret⟩ := distributorReject_spec h
        exact ⟨hid, hw, by simpa [hne] using hplaces, by simpa [hne] using hret⟩
      · rename_i heq
        obtain rfl := some.inj h
        simp only [ne_eq, not_not] at heq
        simp [forward, Modified.places, heq, greRewrite]

theorem decapsulate_isSome (m : Mbuf) (ipkey : UInt32) :
    (decapsulate m ipkey).isSome =
      decide ((if innerVersion m = 0x60 then 8 + 8 else 20 + 8 + 8) ≤ m.pktLen) := by
  unfold decapsulate
  split
  · dsimp only
    by_cases hlen : 8 + 8 ≤ m.pktLen
    · rw [adj_eq (by simpa using hlen)]
      simp [hlen]
    · have hadj : (m.write 12 [0x08, 0x00]).adj (8 + 8) = none := if_pos (by simpa using hlen)
      simp [hadj, hlen]
  · by_cases hlen : 20 + 8 + 8 ≤ m.pktLen
    · rw [adj_eq hlen]
      simp [hlen]
    · have hadj : m.adj (20 + 8 + 8) = none := if_pos (by omega)
      simp [hadj, hlen]

theorem ingressFind_isNone {map : LookupMap} {m : Mbuf} {ipkey : UInt32} {size : BitVec 12}
    (hsrc : innerSource m = some ipkey) :
    findUpdate map (bswap32 (gtphTid m)) (ingressCallback ipkey now size) = none ↔
      authentic map m = false := by
  unfold findUpdate authentic ingressCallback
  rw [bswap32_bswap32, hsrc]
  cases map (gtphTid m) with
  | none => simp
  | some itm =>
    dsimp only
    split
    · rename_i hcb
      split at hcb
      · rename_i hne
        simpa using hne
      · exact absurd hcb (by simp)
    · rename_i hcb
      split at hcb
      · exact absurd hcb (by simp)
      · rename_i heq
        simp only [ne_eq, not_not] at heq
        simp [heq]

/-- A G-PDU that passes the check goes out as it was decapsulated, marked as a PDU. -/
theorem ingressTunnel_authentic {ipkey : UInt32} {pkt : Mbuf} {size : BitVec 12}
    (hpdu : isPdu m = true) (hsrc : innerSource m = some ipkey)
    (hdec : decapsulate m ipkey = some (pkt, size)) (hauth : authentic w.map m = true) :
    ∃ r, ingressTunnelModifyPacket conf now errEnq w m = some r ∧ r.ret = 0 ∧
      ∃ udata, r.mbuf = { pkt with udata := udata } ∧ udata.flag = .pdu := by
  have hfound : findUpdate w.map (bswap32 (gtphTid m)) (ingressCallback ipkey now size) ≠ none := by
    intro hnone
    rw [ingressFind_isNone hsrc, hauth] at hnone
    exact Bool.noConfusion hnone
  obtain ⟨⟨map, itm, color⟩, hfind⟩ := ne_none_iff_exists'.mp hfound
  unfold ingressTunnelModifyPacket
  rw [if_pos hpdu, hsrc]
  dsimp only
  rw [hdec]
  dsimp only
  rw [hfind]
  exact ⟨_, rfl, rfl, _, rfl, rfl⟩

/-- The ingress tunnel worker, exactly. It hands on the G-PDUs that pass the check and, without
an error-indication ring, all others that it can decapsulate. -/
theorem ingressTunnel_ret (hpdu : isPdu m = true)
    (h : ingressTunnelModifyPacket conf now errEnq w m = some r) :
    r.ret = 0 ↔ decapsulable m = true ∧ (authentic w.map m = true ∨ conf.ringErrInd = false) := by
  unfold ingressTunnelModifyPacket at h
  unfold decapsulable
  rw [if_pos hpdu] at h
  cases hsrc : innerSource m with
  | none =>
    rw [hsrc] at h
    obtain rfl := some.inj h
    simp [drop]
  | some ipkey =>
    rw [hsrc] at h
    rw [← decapsulate_isSome m ipkey]
    dsimp only at h
    cases hdec : decapsulate m ipkey with
    | none =>
      rw [hdec] at h
      obtain rfl := some.inj h
      simp [drop]
    | some dec =>
      obtain ⟨pkt, size⟩ := dec
      rw [hdec] at h
      dsimp only at h
      have hnone := @ingressFind_isNone now w.map m ipkey size hsrc
      split at h
      · rename_i hfind
        obtain rfl := some.inj h
        rw [hnone.mp hfind]
        cases hring : conf.ringErrInd <;> simp [reject, hring, forward]
      · rename_i hfind
        obtain rfl := some.inj h
        have hauth : authentic w.map m = true := by
          by_contra hno
          exact absurd (hfind.symm.trans (hnone.mpr (by simpa using hno))) (by simp)
        simp [forward, hauth]

/-- Any worker. A call keeps the buffer and the sessions, and puts the buffer into one place,
unless a distributor's rejected frame was taken by the error-indication ring. -/
theorem modifyPacket_spec (h : modifyPacket conf now errEnq w m = some r) :
    r.mbuf.id = m.id ∧ SameEntries w.map r.worker.map ∧
      r.places =
        (if conf.kind = .ingressDistributor ∧ doubled errEnq w.map m = true then 2 else 1) := by
  unfold modifyPacket at h
  cases hkind : conf.kind with
  | egressTunnel =>
    rw [hkind] at h
    obtain ⟨hid, hplaces, hmap⟩ := egressTunnel_kept h
    exact ⟨hid, hmap, by simpa using hplaces⟩
  | ingressTunnel =>
    rw [hkind] at h
    obtain ⟨hid, hplaces, hmap⟩ := ingressTunnel_kept h
    exact ⟨hid, hmap, by simpa using hplaces⟩
  | ingressDistributor =>
    rw [hkind] at h
    obtain ⟨hid, hw, hplaces, -⟩ := ingressDistributor_spec h
    exact ⟨hid, hw ▸ .refl _, by simpa using hplaces⟩

end

end MixiPgw.Data
