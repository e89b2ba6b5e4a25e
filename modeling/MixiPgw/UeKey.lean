/-
# One key for both address families

A UE has an IPv4 address `10.x.y.z` and a `/64` with the same three octets in it, and the dataplane
has one table entry for it. Three workers take the octets out of a packet, each on its own: the
ingress tunnel worker from the inner source, the egress tunnel worker from the destination of a 6rd
packet, and the encapsulation worker from the destination of the packet it wraps. All three end up
with the row's own address (`ue_one_key`).
-/
import MixiPgw.Ctrl.UeAddress
import MixiPgw.Data.Billing
import MixiPgw.Data.Pipeline
import MixiPgw.EndToEnd

namespace MixiPgw

open Bytes Ctrl Data Option List EncapWorker

/-! ## 1. Prefixes of a row -/

/-- `q`, a length and octets, is a prefix that the UE of the row has been told. -/
inductive Advertised (h : Handle) (r : Row) (q : UInt8 × List UInt8) : Prop
  | paa {env : Env} {rx : RxPacket} {t : TunnelTable} {cs : GtpcParseState} {pckt : TxPacket}
      (parsed : receive env rx (savedSeqno rx) = some cs)
      (accepted : CreateSessionAccepts h env t cs r)
      (sent : createSessionAnswer h rx (createSessionStore h env t cs) = some pckt)
      (carried : paaPrefix pckt = some q)
  | ra {pckt : TxPacket} (sent : SolicitAnswered h r pckt) (carried : raPrefix pckt = q)

/-- The 16 octets of an address lie in the prefix. -/
def InPrefix (q : UInt8 × List UInt8) (addr : List UInt8) : Prop := addr.take (q.1.toNat / 8) = q.2

section

variable {h : Handle} {r : Row} {x y z : UInt8} {q : UInt8 × List UInt8}

theorem Advertised.eq_uePrefix (hue : r.ueAddress = le32 0 x y z) (hq : Advertised h r q) :
    q = uePrefix h x y z := by
  rcases hq with ⟨hparse, hacc, hsent, hpaa⟩ | ⟨hsent, rfl⟩
  · have hspec := hacc.paa hue hparse hsent
    unfold PaaSent at hspec
    split at hspec
    · rcases hspec with ⟨-, hnone⟩ | ⟨-, hsome⟩
      · exact absurd (hnone.symm.trans hpaa) (by simp)
      · exact some.inj (hpaa.symm.trans hsome)
    · exact absurd (hspec.2.symm.trans hpaa) (by simp)
  · exact hsent.prefix_eq hue

end

/-! ## 2. The octets in a frame -/

section

variable {h : Handle} {x y z : UInt8} {m : Mbuf} {i : Nat}

theorem word_of_ueIpv4 (hbytes : m.bytes i 4 = ueIpv4 x y z) : m.word i = le32 10 x y z :=
  Mbuf.word_of_bytes hbytes 0 (by decide)

theorem word_of_inPrefix (hin : InPrefix (uePrefix h x y z) (m.bytes i 16)) :
    m.word (i + 4) &&& 0xffffff00 = le32 0 x y z := by
  have hget : ∀ k < 8, m.byte (i + k) = (uePrefix h x y z).2.getD k 0 := by
    intro k hk
    have htake : (m.bytes i 16).take ((64 : UInt8).toNat / 8) = (uePrefix h x y z).2 := hin
    have hk' : k < (64 : UInt8).toNat / 8 := hk
    rw [← htake, ← Mbuf.getD_bytes (show k < 16 by omega), getD_eq_getElem?_getD,
      getD_eq_getElem?_getD, getElem?_take, if_pos hk']
  unfold Mbuf.word
  rw [le32_and_ffffff00, Nat.add_assoc, Nat.add_assoc, Nat.add_assoc, hget 5 (by decide),
    hget 6 (by decide), hget 7 (by decide)]
  rfl

end

variable (q : UInt8 × List UInt8) (x y z : UInt8)

/-- The inner packet of a G-PDU comes from the UE. -/
def FromUe (m : Mbuf) : Prop :=
  (innerVersion m = 0x40 ∧ m.bytes 62 4 = ueIpv4 x y z) ∨
    (innerVersion m = 0x60 ∧ InPrefix q (m.bytes 58 16))

/-- A frame from the network is for the UE. An IPv6 packet comes in an IPv4 packet of the 6rd
gateway; by that source address the worker tells the two. -/
def ForUe (m : Mbuf) : Prop :=
  (isSixrd m = false ∧ m.bytes 30 4 = ueIpv4 x y z) ∨
    (isSixrd m = true ∧ InPrefix q (m.bytes 58 16))

/-- A frame to be encapsulated is for the UE; the driver has marked it as IPv4 or IPv6. -/
def WrapsForUe (p : Packet) : Prop :=
  (p.MarkedIpv4 ∧ p.mbuf.bytes 30 4 = ueIpv4 x y z) ∨
    (p.MarkedIpv6 ∧ InPrefix q (p.mbuf.bytes 38 16))

section

variable {h : Handle} {x y z : UInt8} {m : Mbuf}

theorem FromUe.innerSource_masked (hue : FromUe (uePrefix h x y z) x y z m) :
    ∃ ipkey, innerSource m = some ipkey ∧ ipkey &&& 0xffffff00 = le32 0 x y z := by
  unfold innerSource
  rcases hue with ⟨hver, haddr⟩ | ⟨hver, haddr⟩
  · rw [hver]
    exact ⟨m.word 62, rfl, by rw [word_of_ueIpv4 haddr, le32_and_ffffff00]⟩
  · rw [hver]
    exact ⟨_, rfl, word_of_inPrefix haddr⟩

theorem ForUe.ownKey_eq (hue : ForUe (uePrefix h x y z) x y z m) : ownKey m = le32 0 x y z := by
  unfold ownKey
  rcases hue with ⟨hsixrd, haddr⟩ | ⟨hsixrd, haddr⟩
  · rw [hsixrd, if_neg (by decide), word_of_ueIpv4 haddr, le32_and_ffffff00]
  · rw [hsixrd]
    exact word_of_inPrefix haddr

theorem WrapsForUe.innerDst_eq {p : Packet} (hue : WrapsForUe (uePrefix h x y z) x y z p) :
    innerDst p = some (le32 10 x y z) := by
  unfold innerDst
  rcases hue with ⟨hv4, haddr⟩ | ⟨⟨hv4, hv6⟩, haddr⟩
  · have hv4 : p.isIpv4Hdr = true := hv4
    rw [if_pos hv4, word_of_ueIpv4 haddr]
  · rw [hv4, if_neg (by decide), hv6, if_pos rfl, word_of_inPrefix haddr,
      show (0x0000000a : UInt32) = le32 0x0a 0 0 0 from rfl, le32_zero_or]

theorem ingressTunnel_findkey (conf : Conf) (now : UInt32) (errEnq : Bool) (w : Worker)
    {ipkey : UInt32} (hpdu : isPdu m = true) (hsrc : innerSource m = some ipkey)
    (hlen : decapsulable m = true) :
    ∃ r, ingressTunnelModifyPacket conf now errEnq w m = some r ∧ r.worker.findkey = ipkey := by
  have hdec : (decapsulate m ipkey).isSome = true := by
    rw [decapsulate_isSome]
    exact (Bool.and_eq_true_iff.mp hlen).2
  obtain ⟨⟨pkt, size⟩, hdec⟩ := isSome_iff_exists.mp hdec
  unfold ingressTunnelModifyPacket
  rw [if_pos hpdu, hsrc]
  dsimp only
  rw [hdec]
  dsimp only
  cases findUpdate w.map (bswap32 (gtphTid m)) (ingressCallback ipkey now size) with
  | none =>
    refine ⟨_, rfl, ?_⟩
    unfold reject
    split <;> rfl
  | some found => exact ⟨_, rfl, rfl⟩

theorem EncapWorker.dst_of_some {w : EncapWorker} {p p' : Packet} {dst : UInt32}
    (hdst : innerDst p = some dst) (hp : (w.modifyPacket p).2 = some p') :
    p'.mbuf.word 30 = dst := by
  by_cases hroom : 36 ≤ p.mbuf.dataOff
  · obtain ⟨p'', hp'', hspec⟩ := w.modifyPacket_spec hroom hdst
    obtain rfl : p'' = p' := some.inj (hp''.symm.trans hp)
    exact hspec.dst
  · have hprep : p.mbuf.prepend (20 + 8 + 8) = none := if_pos (by omega)
    unfold EncapWorker.modifyPacket at hp
    rw [hprep] at hp
    cases hp

end

/-! ## 3. One key -/

/-- **One key**, whatever the family of the packet and the interface identifier, for the ingress
tunnel worker, the egress tunnel worker and the encapsulation worker, which puts the octet 10 in
front. -/
structure OneKey (r : Row) (q : UInt8 × List UInt8) (x y z : UInt8) : Prop where
  ingress : ∀ (conf : Conf) (now : UInt32) (errEnq : Bool) (w : Worker) (m : Mbuf),
    FromUe q x y z m → isPdu m = true → decapsulable m = true →
      ∃ res, ingressTunnelModifyPacket conf now errEnq w m = some res ∧
        res.worker.findkey &&& 0xffffff00 = r.ueAddress
  egress : ∀ m, ForUe q x y z m → egressKey m &&& 0xffffff00 = r.ueAddress
  egress_findkey : ∀ (conf : Conf) (now : UInt32) (errEnq : Bool) (w : Worker) (m : Mbuf) res,
    conf.kind = .egressTunnel → ForUe q x y z m → isUser m = true →
      modifyPacket conf now errEnq w m = some res → res.worker.findkey = r.ueAddress
  encap : ∀ (w : EncapWorker) (p : Packet), WrapsForUe q x y z p →
    (36 ≤ p.mbuf.dataOff → ∃ p', (w.modifyPacket p).2 = some p') ∧
      ∀ p', (w.modifyPacket p).2 = some p' → p'.mbuf.word 30 = le32 10 x y z

/-- **IPv4 and IPv6 traffic of one UE use one key**, for every prefix that the control plane
advertises for its row. -/
theorem ue_one_key (h : Handle) (r : Row) (x y z : UInt8) (q : UInt8 × List UInt8)
    (hue : r.ueAddress = le32 0 x y z) (hq : Advertised h r q) : OneKey r q x y z := by
  obtain rfl := hq.eq_uePrefix hue
  refine ⟨fun conf now errEnq w m hm hpdu hlen => ?_, fun m hm => ?_,
    fun conf now errEnq w m res hkind hm huser hres => ?_, fun w p hp => ⟨fun hroom => ?_, ?_⟩⟩
  · obtain ⟨ipkey, hsrc, hkey⟩ := hm.innerSource_masked
    obtain ⟨res, hres, hfindkey⟩ := ingressTunnel_findkey conf now errEnq w hpdu hsrc hlen
    exact ⟨res, hres, by rw [hfindkey, hkey, hue]⟩
  · rw [egressKey_masked, hm.ownKey_eq, hue]
  · have hfindkey := findkey_modifyPacket hkind (f := ⟨m, now, errEnq, true⟩) (n := m.id) hres
    rw [hfindkey, if_pos huser, hm.ownKey_eq, hue]
  · obtain ⟨p', hp', -⟩ := w.modifyPacket_spec hroom hp.innerDst_eq
    exact ⟨p', hp'⟩
  · exact fun p' hp' => EncapWorker.dst_of_some hp.innerDst_eq hp'

def uplinkIpv6 : Mbuf :=
  frameOf (replicate 12 0 ++ [0x08, 0x00] ++ [0x45, 0, 0, 76, 0, 0, 0, 0, 64, 17, 0, 0] ++
    [10, 0, 0, 2, 10, 9, 9, 9] ++ [0x08, 0x68, 0x08, 0x68, 0, 56, 0, 0] ++
    [0x30, 255, 0, 40, 0, 0, 0, 5] ++ [0x60, 0, 0, 0, 0, 0, 59, 64] ++
    [0x24, 0x01, 0xf1, 0x00, 0x00, 0, 0, 7, 0, 0, 0, 0, 0, 0, 0, 1] ++ replicate 16 0)

/-- The provisioned subscriber, whose address is `0.0.0.7`, in both families. -/
theorem provisioned_one_key :
    FromUe (uePrefix plainHandle 0 0 7) 0 0 7 uplinkIpv6 ∧
      FromUe (uePrefix plainHandle 0 0 7) 0 0 7 (uplinkFrame 5 (le32 10 0 0 7)) ∧
      isPdu uplinkIpv6 = true ∧ decapsulable uplinkIpv6 = true ∧
      OneKey provisioned (uePrefix plainHandle 0 0 7) 0 0 7 := by
  have hsent : (routerSolicit plainHandle 48 true provisionedTable solicitation).isSome = true := by
    decide +kernel
  have hra : SolicitAnswered plainHandle provisioned (Option.get _ hsent) :=
    ⟨48, true, provisionedTable, solicitation, by simp [provisionedTable], by decide +kernel,
      (some_get hsent).symm⟩
  have hue : provisioned.ueAddress = le32 0 0 0 7 := by decide +kernel
  have hin : InPrefix (uePrefix plainHandle 0 0 7) (uplinkIpv6.bytes 58 16) := by
    unfold InPrefix
    decide
  exact ⟨Or.inr ⟨by decide, hin⟩, Or.inl ⟨by decide, by decide⟩, by decide, by decide,
    ue_one_key plainHandle provisioned 0 0 7 _ hue (.ra hra (hra.prefix_eq hue))⟩

end MixiPgw
