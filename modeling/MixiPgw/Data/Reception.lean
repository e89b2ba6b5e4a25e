/-
# Flow affinity at reception

A reception core hands each packet to one of its workers, chosen by an octet of the UE's address.
`CoreRx::Cycle` reads it at a position that depends on the build, the direction of the core and the
IP version: 14 bytes of Ethernet, 20 of IPv4, 8 of UDP and 8 of GTP-U, then the inner packet.
**`flow_affinity`**: the index is below the number of workers, and depends on the UE only.
-/
import MixiPgw.Data.BurstBuffers
import MixiPgw.Data.CounterWire

namespace MixiPgw.Data

open Lib List

/-! ## 1. The cycle -/

/-- The builds that look into the packet. -/
inductive RxBuild
  | counterRx
  | tunnelRx
deriving DecidableEq, Repr

/-- A reception core: its build and `type_`. -/
structure RxCore where
  build : RxBuild
  type : UInt8

def tunnelEgress : UInt8 := 0xff

def etherHdr : Nat := 14

def innerHdr : Nat := etherHdr + 20 + 8 + 8

/-- `(inip->version_ihl & 0xf0) == 0x40` for the header at an offset. -/
def isVersion4 (m : Mbuf) (ofset : Nat) : Bool := m.byte ofset &&& 0xf0 = 0x40

def flowHashPos : RxBuild → Nat
  | .counterRx => 65
  | .tunnelRx => 29

def flowOffset (rx : RxCore) (m : Mbuf) : Nat :=
  match rx.build with
  | .counterRx =>
    if rx.type = counterIngress then if isVersion4 m innerHdr then 0 else 0
    else if isVersion4 m innerHdr then 4 else 16
  | .tunnelRx =>
    if rx.type = tunnelEgress then if isVersion4 m innerHdr then 36 else 36
    else if isVersion4 m etherHdr then 4 else 16

/-- `(unsigned)pkt[FLOW_HASH_POS + offset] % wk_cnt`, of signed characters. -/
def flowIndex (rx : RxCore) (wkCnt : Nat) (m : Mbuf) : Nat :=
  (m.byte (flowHashPos rx.build + flowOffset rx m)).toInt8.toInt32.toUInt32.toNat % wkCnt

def prefetchOffset : Nat := 3

section

variable {β : Type}

/-- The loop that prefetches: what it sends, and what it leaves. -/
def prefetchLoop (send : Nat → Mbuf → β) (nburst : Nat) :
    Nat → List Mbuf → List β × Nat × List Mbuf
  | n, [] => ([], n, [])
  | n, m :: input =>
    if n < nburst - prefetchOffset ∧ prefetchOffset < nburst then
      let (sends, n', rest) := prefetchLoop send nburst (n + 1) input
      (send n m :: sends, n', rest)
    else ([], n, m :: input)

def remainedLoop (send : Nat → Mbuf → β) : Nat → List Mbuf → List β
  | _, [] => []
  | n, m :: input => send n m :: remainedLoop send (n + 1) input

def loops (send : Nat → Mbuf → β) (input : List Mbuf) : List β :=
  let (sends, n, rest) := prefetchLoop send input.length 0 input
  sends ++ remainedLoop send n rest

end

def cycleSends (rx : RxCore) (wkCnt : Nat) (input : List Mbuf) : List (Nat × Mbuf) :=
  loops (fun _ m => (flowIndex rx wkCnt m, m)) input

/-! ## 2. The UE of a frame -/

/-- The header with the UE's address: the inner one behind a tunnel. -/
def RxCore.ueHdr (rx : RxCore) : Nat :=
  match rx.build with
  | .counterRx => innerHdr
  | .tunnelRx => if rx.type = tunnelEgress then innerHdr else etherHdr

def RxCore.ueIsSource (rx : RxCore) : Bool :=
  match rx.build with
  | .counterRx => rx.type = counterIngress
  | .tunnelRx => rx.type = tunnelEgress

def ipv4Addr (hdr : Nat) (source : Bool) : Nat := if source then hdr + 12 else hdr + 16

def ipv6Addr (hdr : Nat) (source : Bool) : Nat := if source then hdr + 8 else hdr + 24

/-- A frame of the UE a.x.y.z, or of an IPv6 address with x, y, z in bytes 5 to 7. -/
def CarriesUe (rx : RxCore) (x y z : UInt8) (m : Mbuf) : Prop :=
  let v4 := ipv4Addr rx.ueHdr rx.ueIsSource
  let v6 := ipv6Addr rx.ueHdr rx.ueIsSource
  (m.byte rx.ueHdr &&& 0xf0 = 0x40 ∧
      m.byte (v4 + 1) = x ∧ m.byte (v4 + 2) = y ∧ m.byte (v4 + 3) = z) ∨
    (m.byte rx.ueHdr &&& 0xf0 = 0x60 ∧
      m.byte (v6 + 5) = x ∧ m.byte (v6 + 6) = y ∧ m.byte (v6 + 7) = z)

/-! ## 3. Affinity -/

section

variable {β : Type}

theorem remainedLoop_eq (send : Nat → Mbuf → β) :
    ∀ (input : List Mbuf) (n : Nat), remainedLoop send n input = input.mapIdx fun k => send (n + k)
  | [], _ => rfl
  | m :: input, n => by
    rw [remainedLoop, remainedLoop_eq send input (n + 1), mapIdx_cons]
    simp only [Nat.add_zero, Nat.add_comm 1, Nat.add_assoc]

theorem prefetchLoop_append (send : Nat → Mbuf → β) (nburst : Nat) :
    ∀ (input : List Mbuf) (n : Nat),
      (prefetchLoop send nburst n input).1 ++
          remainedLoop send (prefetchLoop send nburst n input).2.1
            (prefetchLoop send nburst n input).2.2 =
        remainedLoop send n input := by
  intro input
  induction input with
  | nil => exact fun _ => rfl
  | cons m input ih =>
    intro n
    unfold prefetchLoop
    split
    · exact congrArg (send n m :: ·) (ih (n + 1))
    · rfl

theorem loops_eq (send : Nat → Mbuf → β) (input : List Mbuf) :
    loops send input = input.mapIdx send := by
  have hloops : loops send input = remainedLoop send 0 input :=
    prefetchLoop_append send input.length input 0
  rw [hloops, remainedLoop_eq]
  simp only [Nat.zero_add]

variable (rx : RxCore)

theorem cycleSends_eq (wkCnt : Nat) (input : List Mbuf) :
    cycleSends rx wkCnt input = input.map fun m => (flowIndex rx wkCnt m, m) := by
  rw [cycleSends, loops_eq]
  refine ext_getElem? fun n => ?_
  rw [getElem?_mapIdx, getElem?_map]

theorem flowIndex_lt {wkCnt : Nat} (hwk : 0 < wkCnt) (m : Mbuf) :
    flowIndex rx wkCnt m < wkCnt := Nat.mod_lt _ hwk

/-- The position is that of an address octet: the fourth of the IPv4 address or the eighth of
the IPv6 address. -/
theorem flowPos_eq (m : Mbuf) :
    flowHashPos rx.build + flowOffset rx m =
      if isVersion4 m rx.ueHdr then ipv4Addr rx.ueHdr rx.ueIsSource + 3
      else ipv6Addr rx.ueHdr rx.ueIsSource + 7 := by
  obtain ⟨build, type⟩ := rx
  cases build with
  | counterRx =>
    unfold flowOffset RxCore.ueHdr RxCore.ueIsSource
    by_cases htype : type = counterIngress
    · simp only [htype, if_true]
      split <;> rfl
    · simp only [htype, if_false]
      split <;> rfl
  | tunnelRx =>
    unfold flowOffset RxCore.ueHdr RxCore.ueIsSource
    by_cases htype : type = tunnelEgress
    · simp only [htype, if_true]
      split <;> rfl
    · simp only [htype, if_false]
      split <;> rfl

theorem flow_octet {rx : RxCore} {x y z : UInt8} {m : Mbuf} (h : CarriesUe rx x y z m) :
    m.byte (flowHashPos rx.build + flowOffset rx m) = z := by
  rw [flowPos_eq]
  rcases h with ⟨hver, -, -, hz⟩ | ⟨hver, -, -, hz⟩
  · have h4 : isVersion4 m rx.ueHdr = true := decide_eq_true hver
    rw [if_pos h4]
    exact hz
  · have hnot : ¬isVersion4 m rx.ueHdr = true := by
      intro h4
      have h46 : (0x60 : UInt8) = 0x40 := hver.symm.trans (of_decide_eq_true h4)
      cases h46
    rw [if_neg hnot]
    exact hz

/-- **Flow affinity.** Each packet of a burst is sent once, in its place, and all packets of one
UE, whichever of its addresses they carry, go to the same worker. -/
theorem flow_affinity (rx : RxCore) (wkCnt : Nat) (hmin : 1 ≤ wkCnt) :
    (∀ input, (cycleSends rx wkCnt input).map Prod.snd = input ∧
        ∀ send ∈ cycleSends rx wkCnt input, send.1 < wkCnt) ∧
      ∀ x y z, ∃ wk, ∀ (input : List Mbuf) (n : Nat) (m : Mbuf),
        input[n]? = some m → CarriesUe rx x y z m →
          (cycleSends rx wkCnt input)[n]? = some (wk, m) := by
  constructor
  · intro input
    rw [cycleSends_eq]
    constructor
    · rw [map_map]
      exact map_id input
    · intro send hsend
      obtain ⟨m, -, rfl⟩ := mem_map.mp hsend
      exact flowIndex_lt rx hmin m
  · intro x y z
    refine ⟨z.toInt8.toInt32.toUInt32.toNat % wkCnt, ?_⟩
    intro input n m hm hue
    rw [cycleSends_eq, getElem?_map, hm]
    simp only [Option.map_some, flowIndex, flow_octet hue]

def tunnelled (version octet : UInt8) : Mbuf where
  id := 0
  buf := fun i => if i = 50 then version else if i = 65 then octet else 0
  dataOff := 0
  pktLen := 128
  udata := UserDat.zero

theorem flow_affinity_three :
    ∃ wk, (cycleSends ⟨.counterRx, counterIngress⟩ 3 [tunnelled 0x45 9, tunnelled 0x60 9])[0]? =
        some (wk, tunnelled 0x45 9) ∧
      (cycleSends ⟨.counterRx, counterIngress⟩ 3 [tunnelled 0x45 9, tunnelled 0x60 9])[1]? =
        some (wk, tunnelled 0x60 9) := by
  obtain ⟨wk, hwk⟩ := (flow_affinity ⟨.counterRx, counterIngress⟩ 3 (by decide)).2 0 0 9
  refine ⟨wk, hwk _ 0 _ rfl ?_, hwk _ 1 _ rfl ?_⟩
  · exact .inl (by decide)
  · exact .inr (by decide)

end

end MixiPgw.Data
