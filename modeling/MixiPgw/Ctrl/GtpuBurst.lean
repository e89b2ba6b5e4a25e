/-
# Bursts of GTP-U packets

`event_gtpu_other_req` takes up to 32 packets off its queue. Two things tie a packet to those
before it: `mlen`, the least length of a solicitation, is also the offset of an Error Indication,
which leaves it at 8 or 12; and a solicitation for a row whose address has a first octet `break`s
out of the loop over the burst. `gtpu_burst_invisible` says EXACTLY when neither matters.
-/
import MixiPgw.Ctrl.UeAddress
import MixiPgw.Ctrl.NodeQueue

namespace MixiPgw.Ctrl

open Bytes CString Lib

/-! ## 1. The handler -/

structure GtpuIn where
  id : Nat
  rx : RxPacket
  ok : Bool

/-- The table, the EGRESS queue, the TEID and address of each `ERROR_IND_UPD_SQL`, and the packets
freed. -/
structure GtpuNode where
  table : TunnelTable
  egress : List TxPacket
  sqls : List (Nat × Text)
  freed : List Nat

/-- `sizeof(struct icmp6_hdr) + sizeof(struct ip6_hdr)`. -/
def solicitMlen : Nat := 8 + 40

/-- A solicitation whose row has an address with a first octet. -/
def breaksOff (mlen : Nat) (t : TunnelTable) (x : GtpuIn) : Bool :=
  let cs := solicitRecord x.ok t x.rx
  isRouterSolicit mlen x.rx && cs.flag .record && (uePaaAddress cs).isNone

def GtpuNode.free (node : GtpuNode) (x : GtpuIn) : GtpuNode :=
  { node with freed := node.freed ++ [x.id] }

/-- One turn of `event_gtpu_other_req`, with `mlen`. -/
def gtpuTurn (h : Handle) : Turn Nat GtpuNode GtpuIn := fun mlen node x =>
  if x.rx.data.byte 1 = gtpuGPdu then
    -- the `break` goes past `pgw_free_packet`
    if breaksOff mlen node.table x then (mlen, node, false)
    else
      match routerSolicit h mlen x.ok node.table x.rx with
      | some packet =>
        (mlen, { node with egress := pgwEnq node.egress packet }.free x, true)
      | none => (mlen, node.free x, true)
  else if x.rx.data.byte 1 = gtpuErrInd then
    let node :=
      if IsErrInd x.rx then
        { node with
          table := errorIndication x.ok x.rx node.table
          sqls := node.sqls ++
            [((bswap32 (errIndTeid x.rx)).toNat, inetNtoa (errIndPeer x.rx))] }
      else node
    (errIndOffset x.rx, node.free x, true)
  else (mlen, node.free x, true)

def eventGtpuOtherReq (h : Handle) (q : Queue GtpuIn) (node : GtpuNode) :
    Queue GtpuIn × GtpuNode × RetCd :=
  eventBurst (gtpuTurn h) solicitMlen q node

/-! ## 2. Bursts -/

/-- A solicitation is answered with nothing: it has no row, or the queue is full. -/
def Unanswered (node : GtpuNode) (x : GtpuIn) : Prop :=
  let cs := solicitRecord x.ok node.table x.rx
  cs.flag .record = false ∨ (uePaaAddress cs).isSome ∧ ringSizeMax ≤ node.egress.length

/-- A G-PDU that only an Error Indication before it makes a solicitation is not answered, and a
packet that breaks off is followed by such packets only. -/
def ReadAlone (mlen : Nat) (node : GtpuNode) (x : GtpuIn) (behind : List GtpuIn) : Prop :=
  (isRouterSolicit mlen x.rx ≠ isRouterSolicit solicitMlen x.rx → Unanswered node x) ∧
    (breaksOff mlen node.table x → ∀ y ∈ behind, breaksOff solicitMlen node.table y)

section

variable {h : Handle} {mlen : Nat} {node : GtpuNode} {x : GtpuIn}

theorem isGPdu_of_solicit (hrs : isRouterSolicit mlen x.rx = true) :
    x.rx.data.byte 1 = gtpuGPdu := by
  simp only [isRouterSolicit, Bool.and_eq_true, decide_eq_true_eq] at hrs
  exact hrs.1.1.1.1.1

theorem gtpuTurn_breaksOff (hbreak : breaksOff mlen node.table x = true) :
    (gtpuTurn h mlen node x).2 = (node, false) := by
  have hrs : isRouterSolicit mlen x.rx = true := by
    simp only [breaksOff, Bool.and_eq_true] at hbreak
    exact hbreak.1.1
  unfold gtpuTurn
  rw [if_pos (isGPdu_of_solicit hrs), if_pos hbreak]

theorem gtpuTurn_goes_on (hbreak : breaksOff mlen node.table x = false) :
    (gtpuTurn h mlen node x).2.2 = true ∧
      (gtpuTurn h mlen node x).2.1.freed = node.freed ++ [x.id] := by
  unfold gtpuTurn
  split
  · rw [if_neg (Bool.eq_false_iff.mp hbreak)]
    split <;> exact ⟨rfl, rfl⟩
  · split
    · dsimp only
      split <;> exact ⟨rfl, rfl⟩
    · exact ⟨rfl, rfl⟩

/-- A packet that does not break off is freed, so only one that does changes nothing. -/
theorem gtpuTurn_idle_iff :
    (gtpuTurn h mlen node x).2.1 = node ↔ breaksOff mlen node.table x = true := by
  constructor
  · intro hidle
    by_contra hgoes
    have hfreed := (gtpuTurn_goes_on (h := h) (Bool.eq_false_iff.mpr hgoes)).2
    rw [hidle] at hfreed
    simp at hfreed
  · intro hbreak
    rw [gtpuTurn_breaksOff hbreak]

theorem gtpuTurn_congr {mlen' : Nat}
    (hsame : isRouterSolicit mlen x.rx = isRouterSolicit mlen' x.rx) :
    (gtpuTurn h mlen node x).2 = (gtpuTurn h mlen' node x).2 := by
  have hbreak : breaksOff mlen node.table x = breaksOff mlen' node.table x := by
    unfold breaksOff
    rw [hsame]
  have hsent : routerSolicit h mlen x.ok node.table x.rx =
      routerSolicit h mlen' x.ok node.table x.rx := by
    unfold routerSolicit
    rw [hsame]
  unfold gtpuTurn
  rw [hbreak, hsent]
  split
  · split
    · rfl
    · split <;> rfl
  · split <;> rfl

theorem gtpuTurn_of_not_solicit (hgpdu : x.rx.data.byte 1 = gtpuGPdu)
    (hrs : isRouterSolicit mlen x.rx = false) : (gtpuTurn h mlen node x).2.1 = node.free x := by
  simp [gtpuTurn, hgpdu, breaksOff, routerSolicit, hrs]

theorem gtpuTurn_of_solicit (hrs : isRouterSolicit mlen x.rx = true) :
    (gtpuTurn h mlen node x).2.1 = node.free x ↔ Unanswered node x := by
  have hgpdu := isGPdu_of_solicit hrs
  unfold Unanswered
  cases hrow : (solicitRecord x.ok node.table x.rx).flag .record with
  | false => simp [gtpuTurn, hgpdu, breaksOff, routerSolicit, hrow]
  | true =>
    cases haddr : uePaaAddress (solicitRecord x.ok node.table x.rx) with
    | none =>
      have hbreak : breaksOff mlen node.table x = true := by simp [breaksOff, hrs, hrow, haddr]
      rw [gtpuTurn_breaksOff hbreak]
      refine iff_of_false (fun hsame => ?_) (by simp [hrow, haddr])
      have hfreed : node.freed = node.freed ++ [x.id] := congrArg GtpuNode.freed hsame
      simp at hfreed
    | some ueipv =>
      simp [gtpuTurn, hgpdu, breaksOff, routerSolicit, hrs, hrow, haddr, GtpuNode.free, pgwEnq]

theorem gtpuTurn_eq_iff {mlen' : Nat} :
    (gtpuTurn h mlen node x).2.1 = (gtpuTurn h mlen' node x).2.1 ↔
      (isRouterSolicit mlen x.rx ≠ isRouterSolicit mlen' x.rx → Unanswered node x) := by
  by_cases hsame : isRouterSolicit mlen x.rx = isRouterSolicit mlen' x.rx
  · exact iff_of_true (congrArg Prod.fst (gtpuTurn_congr hsame)) fun hne => absurd hsame hne
  · rw [imp_iff_right hsame]
    -- for one of the two lengths it is a solicitation, for the other it is not
    cases hrs : isRouterSolicit mlen x.rx with
    | true =>
      have hrs' : isRouterSolicit mlen' x.rx = false := by simpa [hrs] using hsame
      rw [gtpuTurn_of_not_solicit (isGPdu_of_solicit hrs) hrs']
      exact gtpuTurn_of_solicit hrs
    | false =>
      have hrs' : isRouterSolicit mlen' x.rx = true := by simpa [hrs] using hsame
      rw [gtpuTurn_of_not_solicit (isGPdu_of_solicit hrs') hrs, eq_comm]
      exact gtpuTurn_of_solicit hrs'

theorem readAlone_iff (behind : List GtpuIn) :
    AsAlone (gtpuTurn h) solicitMlen mlen node x behind ↔ ReadAlone mlen node x behind := by
  refine and_congr gtpuTurn_eq_iff ?_
  cases hbreak : breaksOff mlen node.table x with
  | true => simp [gtpuTurn_breaksOff hbreak, gtpuTurn_idle_iff]
  | false => simp [(gtpuTurn_goes_on (h := h) hbreak).1]

/-- **The packets of a burst of GTP-U packets are handled as they are alone** if and only if no
short G-PDU behind an Error Indication is answered as a solicitation, and behind a packet that
breaks off there are only such packets. -/
theorem gtpu_burst_invisible (h : Handle) (node : GtpuNode) (pkts : List GtpuIn)
    (hlen : pkts.length ≤ 32) :
    (∀ pre, pre <+: pkts → (eventGtpuOtherReq h (.of pre) node).2.1 =
      pre.foldl (fun node x => (eventGtpuOtherReq h (.of [x]) node).2.1) node) ↔
      EachTurn (gtpuTurn h) ReadAlone solicitMlen node pkts :=
  (eventBurst_eq_iff hlen).trans (eachTurn_congr fun _ _ _ behind => readAlone_iff behind)

end

def shortSolicitation : RxPacket :=
  { solicitation with data := ⟨solicitation.data.bytes.set 3 40, fun _ => 0⟩ }

def octetTable : TunnelTable :=
  ⟨[{ provisioned with ueipv4 := inetNtoa 0x07000001 }], by simp⟩

/-- Behind an Error Indication, a short G-PDU for a TEID without a row, and a solicitation. -/
def unknownBehind : List GtpuIn :=
  [⟨1, errIndFor [8, 0, 0, 8], true⟩,
    ⟨2, { shortSolicitation with data := ⟨shortSolicitation.data.bytes.set 7 9, fun _ => 0⟩ }, true⟩,
    ⟨3, solicitation, true⟩]

theorem gtpu_burst_of_three :
    (eventGtpuOtherReq plainHandle (.of unknownBehind) ⟨provisionedTable, [], [], []⟩).2.1 =
      unknownBehind.foldl (fun node x => (eventGtpuOtherReq plainHandle (.of [x]) node).2.1)
        ⟨provisionedTable, [], [], []⟩ := by
  refine (gtpu_burst_invisible plainHandle _ unknownBehind (by decide)).mpr ?_ _
    (List.prefix_refl _)
  refine ⟨⟨fun hne => absurd rfl hne, fun hbreak => ?_⟩, fun _ => ⟨⟨fun _ => .inl ?_,
    fun hbreak => ?_⟩, fun _ => ⟨⟨fun hne => ?_, fun _ _ hy => by cases hy⟩, fun _ => trivial⟩⟩⟩
  · exact absurd hbreak (by decide +kernel)
  · decide +kernel
  · exact absurd hbreak (by decide +kernel)
  · exact absurd hne (by decide +kernel)

/-- Behind an Error Indication a short G-PDU is answered; behind a solicitation for 1.0.0.7 a packet
is not freed. -/
theorem gtpu_burst_differs :
    ((eventGtpuOtherReq plainHandle
        (.of [⟨1, errIndFor [8, 0, 0, 8], true⟩, ⟨2, shortSolicitation, true⟩])
        ⟨provisionedTable, [], [], []⟩).2.1.egress.length = 1 ∧
      ([⟨1, errIndFor [8, 0, 0, 8], true⟩, ⟨2, shortSolicitation, true⟩].foldl
        (fun node x => (eventGtpuOtherReq plainHandle (.of [x]) node).2.1)
        ⟨provisionedTable, [], [], []⟩).egress = []) ∧
    ((eventGtpuOtherReq plainHandle
        (.of [⟨1, solicitation, true⟩, ⟨2, errIndFor [8, 0, 0, 8], true⟩])
        ⟨octetTable, [], [], []⟩).2.1.freed = [] ∧
      ([⟨1, solicitation, true⟩, ⟨2, errIndFor [8, 0, 0, 8], true⟩].foldl
        (fun node x => (eventGtpuOtherReq plainHandle (.of [x]) node).2.1)
        ⟨octetTable, [], [], []⟩).freed = [2]) := by
  decide +kernel

end MixiPgw.Ctrl
