/-
# Echo requests and restarted SGWs

`event_gtpc_echo_req` keeps the restart counter of each SGW in the peer cache, and when it changes
takes the SGW's sessions out of service by SQL.

* `echo_burst_invisible`: `restart_counter` outlives the packet it was read from. The packets of a
  burst are handled as they are alone EXACTLY if no request without a counter follows one with it,
  unless the cache has just that counter for its address already.
* `restart_detected_iff`: detection works EXACTLY as long as no SGW restarts, since the cache keeps
  the first counter of an address.
-/
import MixiPgw.Ctrl.SgwPeers

namespace MixiPgw.Ctrl

open Bytes CString Lib Function Option List SgwPeer

/-! ## 1. The handler -/

/-- A packet, `time(NULL)` in its turn, and whether the server answers. -/
structure EchoIn where
  rx : RxPacket
  now : UInt32
  ok : Bool

inductive EchoSql
  | restartUpd (ip : Text) (counter : UInt32)
  | changeStatus (srcIp : Text) (srcPort : Nat) (dstIp : Text) (dstPort : Nat) (serverId : Text)
deriving DecidableEq, Repr

/-- The peer cache, the EGRESS queue, the tunnel table and the statements run so far. -/
structure EchoNode where
  serverId : Text
  peers : SgwPeers
  egress : List TxPacket
  table : TunnelTable
  sqls : List EchoSql

/-- `(U32)-1`: no counter was read. -/
def noCounter : UInt32 := 0xffffffff

/-- The `WHERE` of `ECHO_RESTART_UPD_SQL`. -/
def whereRestart (ip : Text) (counter : UInt32) (r : Row) : Bool :=
  r.sgwGtpcIpv = ip && r.restartCounter < counter.toNat

def echoRestartUpd (r : Row) : Row := { r with active := 0, latestGtpVersion := 2 }

/-- `_on_sgw_peer_find_extend`; what it saves is in the records of the query. -/
def onSgwPeerFindExtend (now : UInt32) : PeerCallback := fun _ p => ({ p with expire := now }, .ok)

def observerSgwPeers (node : EchoNode) (x : EchoIn) (counter : UInt32) : EchoNode :=
  let ipv4 := x.rx.saddr.addr
  if ipv4 = 0 ∨ counter = noCounter then node
  else
    let (peers, _, visited) := pgwGetSgwPeer node.peers ipv4 (onSgwPeerFindExtend x.now)
    match visited.getLast? with
    | none => { node with peers := (pgwSetSgwPeer peers ipv4 counter x.now).1 }
    | some ot =>
      if ot.counter ≠ counter then
        let ip := inetNtoa ipv4
        { node with
          peers := peers
          sqls := node.sqls ++ [.restartUpd ip counter]
          table :=
            (dbQuery x.ok node.table (whereRestart ip counter) echoRestartUpd).getD node.table }
      else { node with peers := peers }

/-- The Recovery item is the only one, behind a header with or without TEID. -/
def recoveryAt (data : Source) : Option Nat :=
  if data.byte 0 &&& 0x08 ≠ 0 then
    if be16 (data.byte 2) (data.byte 3) = (12 - 4) + 5 ∧ data.byte 12 = gtpcTypeRecovery then
      some 12
    else none
  else
    if be16 (data.byte 2) (data.byte 3) = (12 - 8) + 5 ∧ data.byte 8 = gtpcTypeRecovery then some 8
    else none

def restartCounterAt (data : Source) (item : Nat) : UInt8 := data.byte (item + 4)

def setByte (data : Source) (i : Nat) (v : UInt8) : Source :=
  ⟨data.bytes.set i v, update data.past i v⟩

def swapped (rx : RxPacket) (data : Source) : TxPacket :=
  ⟨data.block 0 rx.datalen, rx.caddr, rx.saddr⟩

def ntohs (port : UInt16) : Nat := be16 port.toUInt8 (port >>> 8).toUInt8

/-- One turn of `event_gtpc_echo_req`, with `restart_counter`. The request goes out twice, first
still as a request. -/
def echoTurn : Turn UInt32 EchoNode EchoIn := fun restartCounter node x =>
  let data := x.rx.data
  if data.byte 1 = gtpcEchoReq then
    let (restartCounter, data) :=
      match recoveryAt data with
      | some item => ((restartCounterAt data item).toUInt32, setByte data (item + 4) 0)
      | none => (restartCounter, data)
    let node :=
      if restartCounter ≠ noCounter then observerSgwPeers node x restartCounter else node
    let egress := pgwEnq node.egress (swapped x.rx data)
    let egress := pgwEnq egress (swapped x.rx (setByte data 1 gtpcEchoRes))
    (restartCounter, { node with egress := egress }, true)
  else if data.byte 1 = gtpcEchoRes then
    let sip := inetNtoa x.rx.saddr.addr
    let dip := inetNtoa x.rx.caddr.addr
    let sql := EchoSql.changeStatus dip (ntohs x.rx.caddr.port) sip (ntohs x.rx.saddr.port)
      node.serverId
    (restartCounter, { node with sqls := node.sqls ++ [sql] }, true)
  else (restartCounter, node, true)

def eventGtpcEchoReq (q : Queue EchoIn) (node : EchoNode) : Queue EchoIn × EchoNode × RetCd :=
  eventBurst echoTurn noCounter q node

/-! ## 2. Bursts -/

def EchoIn.IsRequest (x : EchoIn) : Prop := x.rx.data.byte 1 = gtpcEchoReq

def EchoIn.HasCounter (x : EchoIn) : Prop := x.IsRequest ∧ (recoveryAt x.rx.data).isSome

/-- The records `pgw_get_sgw_peer` gives its callback. -/
def askedPeers (ip : UInt32) (peers : List SgwPeer) : List SgwPeer :=
  if ip = allPeers then peers else (peers.find? fun p1 => p1.ip = ip).toList

/-- The counter is the cached one, and the expiry of the record is not moved either. -/
def Unnoticed (node : EchoNode) (x : EchoIn) (counter : UInt32) : Prop :=
  x.rx.saddr.addr = 0 ∨
    (∃ ot ∈ (askedPeers x.rx.saddr.addr node.peers.peers).getLast?, ot.counter = counter) ∧
      ∀ p ∈ askedPeers x.rx.saddr.addr node.peers.peers, p.expire = x.now

/-- A request that reads no counter does not notice that of an earlier one. -/
def NoLeak (restartCounter : UInt32) (node : EchoNode) (x : EchoIn) (_behind : List EchoIn) :
    Prop :=
  x.IsRequest → ¬x.HasCounter → restartCounter ≠ noCounter → Unnoticed node x restartCounter

section

variable {v : UInt32} {node : EchoNode} {x : EchoIn}

theorem getLoop_asked (ip : UInt32) (callback : PeerCallback) (peers : List SgwPeer) :
    (getLoop ip callback [] peers).2 = askedPeers ip peers := by
  unfold askedPeers
  split
  · rename_i hall
    rw [hall]
    exact getLoop_all callback peers []
  · rename_i hone
    rw [getLoop_one hone]
    rfl

theorem getLoop_extend_eq_iff (ip now : UInt32) :
    ∀ peers visited : List SgwPeer,
      (getLoop ip (onSgwPeerFindExtend now) visited peers).1 = peers ↔
        ∀ p ∈ askedPeers ip peers, p.expire = now := by
  intro peers
  induction peers with
  | nil =>
    intro visited
    refine iff_of_true rfl ?_
    unfold askedPeers
    split <;> simp
  | cons p1 p2 ih =>
    intro visited
    have hp1 : (onSgwPeerFindExtend now visited p1).1 = p1 ↔ p1.expire = now := by
      obtain ⟨ip1, counter1, expire1⟩ := p1
      simp [onSgwPeerFindExtend, eq_comm]
    unfold getLoop
    by_cases hall : ip = allPeers
    · have hrest := ih (visited ++ [p1])
      rw [if_pos hall]
      rw [askedPeers, if_pos hall] at hrest ⊢
      rw [cons.injEq, forall_mem_cons]
      exact and_congr hp1 hrest
    · have hrest := ih visited
      rw [if_neg hall]
      rw [askedPeers, if_neg hall] at hrest ⊢
      by_cases hip : p1.ip = ip
      · rw [if_pos hip, find?_cons_of_pos (by simpa using hip), cons.injEq]
        simpa using hp1
      · rw [if_neg hip, find?_cons_of_neg (by simpa using hip), cons.injEq]
        exact (and_iff_right rfl).trans hrest

theorem observerSgwPeers_egress : (observerSgwPeers node x v).egress = node.egress := by
  unfold observerSgwPeers
  dsimp only
  split
  · rfl
  · split
    · rfl
    · split <;> rfl

theorem observerSgwPeers_eq_iff (hv : v ≠ noCounter) :
    observerSgwPeers node x v = node ↔ Unnoticed node x v := by
  unfold observerSgwPeers Unnoticed pgwGetSgwPeer
  by_cases hzero : x.rx.saddr.addr = 0
  · simp [hzero]
  · dsimp only
    rw [if_neg (not_or.mpr ⟨hzero, hv⟩), or_iff_right hzero, getLoop_asked,
      ← getLoop_extend_eq_iff x.rx.saddr.addr x.now node.peers.peers []]
    cases hlast : (askedPeers x.rx.saddr.addr node.peers.peers).getLast? with
    | none =>
      -- the address is new, and is entered
      refine iff_of_false (fun h => ?_) (fun h => by simp at h)
      have hnone : askedPeers x.rx.saddr.addr node.peers.peers = [] := by simpa using hlast
      have hsame : (getLoop x.rx.saddr.addr (onSgwPeerFindExtend x.now) [] node.peers.peers).1 =
          node.peers.peers := by
        rw [getLoop_extend_eq_iff, hnone]
        simp
      have hcount := congrArg (fun node => node.peers.count) h
      have hnew : node.peers.peers.find? (fun p1 => p1.ip = x.rx.saddr.addr) = none := by
        unfold askedPeers at hnone
        split at hnone
        · rw [hnone]
          rfl
        · exact toList_eq_nil_iff.mp hnone
      simp [hsame, pgwSetSgwPeer, hzero, modifyFirst_eq_none.mpr hnew] at hcount
    | some ot =>
      by_cases hot : ot.counter = v
      · simp only [hot, ne_eq, not_true_eq_false, if_false, mem_def, some.injEq, exists_eq_left',
          true_and]
        exact ⟨fun h => congrArg (fun node => node.peers.peers) h, fun h => by rw [h]⟩
      · -- the statement is run, whatever it changes
        refine iff_of_false (fun h => ?_) (fun h => ?_)
        · have hsqls := congrArg EchoNode.sqls h
          simp [hot] at hsqls
        · obtain ⟨⟨ot', hot', hv'⟩, -⟩ := h
          exact hot (some.inj hot' ▸ hv')

theorem echoTurn_goes_on : (echoTurn v node x).2.2 = true := by
  unfold echoTurn
  dsimp only
  split
  · rfl
  · split <;> rfl

theorem echoTurn_of_not_request (hx : ¬x.IsRequest) :
    (echoTurn v node x).2.1 = (echoTurn noCounter node x).2.1 := by
  have htype : ¬x.rx.data.byte 1 = gtpcEchoReq := hx
  unfold echoTurn
  dsimp only
  rw [if_neg htype]
  split <;> rfl

theorem echoTurn_of_hasCounter (hx : x.HasCounter) :
    (echoTurn v node x).2.1 = (echoTurn noCounter node x).2.1 := by
  obtain ⟨hreq, hsome⟩ := hx
  have htype : x.rx.data.byte 1 = gtpcEchoReq := hreq
  obtain ⟨item, hitem⟩ := isSome_iff_exists.mp hsome
  unfold echoTurn
  rw [if_pos htype, if_pos htype, hitem]

/-- Behind the observer both copies go out as ever, so its node alone decides. -/
theorem echoTurn_of_not_hasCounter (hreq : x.IsRequest) (hx : ¬x.HasCounter) (hv : v ≠ noCounter) :
    (echoTurn v node x).2.1 = (echoTurn noCounter node x).2.1 ↔
      observerSgwPeers node x v = node := by
  have htype : x.rx.data.byte 1 = gtpcEchoReq := hreq
  have hnone : recoveryAt x.rx.data = none :=
    not_isSome_iff_eq_none.mp fun hsome => hx ⟨hreq, hsome⟩
  have hegress : (observerSgwPeers node x v).egress = node.egress := observerSgwPeers_egress
  unfold echoTurn
  simp only [htype, if_true, hnone, hv, ne_eq, not_false_eq_true, not_true_eq_false, if_false,
    hegress]
  generalize observerSgwPeers node x v = seen at hegress
  obtain ⟨serverId, peers, egress, table, sqls⟩ := node
  obtain ⟨serverId', peers', egress', table', sqls'⟩ := seen
  obtain rfl : egress' = egress := hegress
  simp

theorem noLeak_iff (behind : List EchoIn) :
    AsAlone echoTurn noCounter v node x behind ↔ NoLeak v node x behind := by
  refine (and_iff_left (.inl echoTurn_goes_on)).trans ?_
  unfold NoLeak
  by_cases hreq : x.IsRequest
  · by_cases hcounter : x.HasCounter
    · exact iff_of_true (echoTurn_of_hasCounter hcounter) fun _ h => absurd hcounter h
    · by_cases hv : v = noCounter
      · exact iff_of_true (by rw [hv]) fun _ _ h => absurd hv h
      · rw [echoTurn_of_not_hasCounter hreq hcounter hv, observerSgwPeers_eq_iff hv]
        exact ⟨fun h _ _ _ => h, fun h => h hreq hcounter hv⟩
  · exact iff_of_true (echoTurn_of_not_request hreq) fun h => absurd h hreq

/-- **The packets of a burst of echo packets are handled as they are alone** if and only if no
request without a restart counter notices that of a request before it. -/
theorem echo_burst_invisible (node : EchoNode) (pkts : List EchoIn) (hlen : pkts.length ≤ 32) :
    (∀ pre, pre <+: pkts → (eventGtpcEchoReq (.of pre) node).2.1 =
      pre.foldl (fun node x => (eventGtpcEchoReq (.of [x]) node).2.1) node) ↔
      EachTurn echoTurn NoLeak noCounter node pkts :=
  (eventBurst_eq_iff hlen).trans (eachTurn_congr fun _ _ _ behind => noLeak_iff behind)

end

def echoRequest (addr : UInt32) (counter : Option UInt8) : RxPacket where
  data :=
    { bytes :=
        match counter with
        | some c => [0x40, 1, 0, 9, 0, 0, 1, 0, 3, 0, 1, 0, c]
        | none => [0x40, 1, 0, 4, 0, 0, 1, 0]
      past := fun _ => 0 }
  datalen := match counter with | some _ => 13 | none => 8
  saddr := ⟨2, 2123, addr⟩
  caddr := ⟨2, 2123, 9⟩

def echoNode : EchoNode := ⟨[], pgwCreateSgwPeers, [], ⟨[], UniqueTable.unique_nil⟩, []⟩

/-- The second request takes the counter of the first, from the same address. -/
def repeatedEcho : List EchoIn :=
  [⟨echoRequest 1 (some 5), 7, true⟩, ⟨echoRequest 1 none, 7, true⟩,
    ⟨echoRequest 2 (some 6), 8, true⟩]

theorem echo_burst_of_three : (eventGtpcEchoReq (.of repeatedEcho) echoNode).2.1 =
      repeatedEcho.foldl (fun node x => (eventGtpcEchoReq (.of [x]) node).2.1) echoNode := by
  refine (echo_burst_invisible echoNode repeatedEcho (by decide)).mpr ?_ _ (prefix_refl _)
  refine ⟨fun _ _ hv => absurd rfl hv, fun _ => ⟨fun _ _ _ => ?_, fun _ =>
    ⟨fun _ hnone => absurd ⟨rfl, by decide +kernel⟩ hnone, fun _ => trivial⟩⟩⟩
  exact .inr ⟨⟨⟨1, 5, 7⟩, by decide +kernel⟩, by decide +kernel⟩

/-- The counter of address 1 is cached for address 2, whose own request makes up for it. -/
example :
    ((eventGtpcEchoReq (.of [⟨echoRequest 1 (some 5), 7, true⟩, ⟨echoRequest 2 none, 7, true⟩,
        ⟨echoRequest 2 (some 5), 7, true⟩]) echoNode).2.1.peers.peers =
      ([⟨echoRequest 1 (some 5), 7, true⟩, ⟨echoRequest 2 none, 7, true⟩,
        ⟨echoRequest 2 (some 5), 7, true⟩].foldl
        (fun node x => (eventGtpcEchoReq (.of [x]) node).2.1) echoNode).peers.peers) := by
  decide +kernel

/-- The counter 5 of address 1 is cached for address 2. -/
theorem echo_burst_leaks :
    (eventGtpcEchoReq (.of [⟨echoRequest 1 (some 5), 7, true⟩, ⟨echoRequest 2 none, 7, true⟩])
        echoNode).2.1.peers.peers = [⟨1, 5, 7⟩, ⟨2, 5, 7⟩] ∧
      ([⟨echoRequest 1 (some 5), 7, true⟩, ⟨echoRequest 2 none, 7, true⟩].foldl
        (fun node x => (eventGtpcEchoReq (.of [x]) node).2.1) echoNode).peers.peers =
          [⟨1, 5, 7⟩] := by
  decide +kernel

/-! ## 3. Restarts -/

section

variable {node : EchoNode} {x : EchoIn} {counter : UInt32} {m : UInt32 → Option SgwPeer}

theorem pgwGetSgwPeer_extend {s : SgwPeers} {ip : UInt32} (hs : Represents SgwPeer.ip s.peers m)
    (hip : ip ≠ allPeers) (now : UInt32) :
    Represents SgwPeer.ip (pgwGetSgwPeer s ip (onSgwPeerFindExtend now)).1.peers
        (update m ip ((m ip).map fun p => { p with expire := now })) ∧
      (pgwGetSgwPeer s ip (onSgwPeerFindExtend now)).2.2 = (m ip).toList := by
  unfold pgwGetSgwPeer
  rw [getLoop_one hip, hs.find]
  refine ⟨?_, rfl⟩
  cases hmod : modifyFirst (fun p1 => p1.ip = ip)
      (fun p1 => (onSgwPeerFindExtend now [] p1).1) s.peers with
  | some peers => exact hs.modifyFirst hmod fun _ => rfl
  | none =>
    have hnone : m ip = none := (hs.find ip).symm.trans (modifyFirst_eq_none.mp hmod)
    have hsame : update m ip none = m := by rw [← hnone, update_eq_self]
    rw [hnone, map_none, hsame]
    exact hs

theorem observerSgwPeers_new (hm : Represents SgwPeer.ip node.peers.peers m)
    (hzero : x.rx.saddr.addr ≠ 0) (hall : x.rx.saddr.addr ≠ allPeers) (hc : counter ≠ noCounter)
    (hnew : m x.rx.saddr.addr = none) :
    Represents SgwPeer.ip (observerSgwPeers node x counter).peers.peers
        (update m x.rx.saddr.addr (some ⟨x.rx.saddr.addr, counter, x.now⟩)) ∧
      (observerSgwPeers node x counter).table = node.table := by
  obtain ⟨hrep, hvisited⟩ := pgwGetSgwPeer_extend hm hall x.now
  obtain ⟨peers, hset, hpeers, -⟩ := pgwSetSgwPeer_spec hrep hzero counter x.now
  rw [update_idem] at hpeers
  unfold observerSgwPeers
  dsimp only
  rw [if_neg (not_or.mpr ⟨hzero, hc⟩), hvisited, hnew]
  rw [hset]
  exact ⟨hpeers, rfl⟩

/-- The record of a known address keeps its counter, and only another one touches the table. -/
theorem observerSgwPeers_known (hm : Represents SgwPeer.ip node.peers.peers m)
    (hzero : x.rx.saddr.addr ≠ 0) (hall : x.rx.saddr.addr ≠ allPeers) (hc : counter ≠ noCounter)
    {p : SgwPeer} (hp : m x.rx.saddr.addr = some p) :
    Represents SgwPeer.ip (observerSgwPeers node x counter).peers.peers
        (update m x.rx.saddr.addr (some { p with expire := x.now })) ∧
      (p.counter = counter → (observerSgwPeers node x counter).table = node.table) := by
  obtain ⟨hrep, hvisited⟩ := pgwGetSgwPeer_extend hm hall x.now
  rw [hp] at hrep
  unfold observerSgwPeers
  dsimp only
  rw [if_neg (not_or.mpr ⟨hzero, hc⟩), hvisited, hp]
  dsimp only [toList_some, getLast?_singleton]
  split
  · rename_i hne
    exact ⟨hrep, fun heq => absurd heq hne⟩
  · exact ⟨hrep, fun _ => rfl⟩

end

/-- An echo request with a restart counter. -/
structure SgwEcho where
  x : EchoIn
  item : Nat
  request : x.IsRequest
  recovery : recoveryAt x.rx.data = some item
  nonzero : x.rx.saddr.addr ≠ 0
  unicast : x.rx.saddr.addr ≠ allPeers

namespace SgwEcho

variable (e : SgwEcho)

def addr : UInt32 := e.x.rx.saddr.addr

def counter : UInt8 := restartCounterAt e.x.rx.data e.item

theorem counter_ne : e.counter.toUInt32 ≠ noCounter := by
  intro h
  have hlt := e.counter.toNat_lt
  have hnat : e.counter.toNat = 0xffffffff := by
    rw [← UInt8.toNat_toUInt32, h]
    rfl
  omega

theorem handled (node : EchoNode) : (eventGtpcEchoReq (.of [e.x]) node).2.1.peers =
        (observerSgwPeers node e.x e.counter.toUInt32).peers ∧
      (eventGtpcEchoReq (.of [e.x]) node).2.1.table =
        (observerSgwPeers node e.x e.counter.toUInt32).table := by
  have htype : e.x.rx.data.byte 1 = gtpcEchoReq := e.request
  have hcounter : (restartCounterAt e.x.rx.data e.item).toUInt32 ≠ noCounter := e.counter_ne
  unfold eventGtpcEchoReq
  rw [eventBurst_of echoTurn noCounter (by simp) node, burst_singleton]
  unfold echoTurn
  rw [if_pos htype, e.recovery]
  dsimp only
  rw [if_pos hcounter]
  exact ⟨rfl, rfl⟩

end SgwEcho

/-- An echo, or a change of the table by anyone else. -/
inductive EchoEvent
  | echo (e : SgwEcho)
  | table (t : TunnelTable)

structure EchoRun where
  node : EchoNode
  heard : UInt32 → List UInt8

namespace EchoRun

def init (serverId : Text) (t : TunnelTable) : EchoRun :=
  ⟨⟨serverId, pgwCreateSgwPeers, [], t, []⟩, fun _ => []⟩

variable (s : EchoRun)

def step : EchoEvent → Option EchoRun
  | .echo e =>
    some ⟨(eventGtpcEchoReq (.of [e.x]) s.node).2.1,
      update s.heard e.addr (e.counter :: s.heard e.addr)⟩
  | .table t => some { s with node := { s.node with table := t } }

def Restarted (e : SgwEcho) : Prop := ∃ c ∈ (s.heard e.addr).head?, c ≠ e.counter

/-- What an echo is to do: the cache holds its counter, and a restart, and only that, takes all rows
from before out of service. -/
def Detected : EchoEvent → Prop
  | .echo e =>
    let node := (eventGtpcEchoReq (.of [e.x]) s.node).2.1
    (∀ callback, (pgwGetSgwPeer node.peers e.addr callback).2.2.map counter =
      [e.counter.toUInt32]) ∧
    (node.table ≠ s.node.table → s.Restarted e) ∧
    (s.Restarted e → ∀ r ∈ node.table.rows, r.sgwGtpcIpv = inetNtoa e.addr →
      (∃ c ∈ s.heard e.addr, c ≠ e.counter ∧ r.restartCounter = c.toNat) → r.active = 0)
  | .table _ => True

def SameCounter : EchoEvent → Prop
  | .echo e => ¬s.Restarted e
  | .table _ => True

/-- The cache holds the counter last heard from each address. -/
def Inv : Prop :=
  ∃ m, Represents SgwPeer.ip s.node.peers.peers m ∧
    ∀ ip, (m ip).map counter = (s.heard ip).head?.map UInt8.toUInt32

variable {s s' : EchoRun} {e : SgwEcho}

theorem init_inv (serverId : Text) (t : TunnelTable) : (init serverId t).Inv :=
  ⟨fun _ => none, represents_nil, fun _ => rfl⟩

/-- At the address stands the counter last heard, or the echo's if there is none. Without a restart
the table stays. -/
theorem Inv.echo (hs : s.Inv) (e : SgwEcho) :
    ∃ m p, Represents SgwPeer.ip (eventGtpcEchoReq (.of [e.x]) s.node).2.1.peers.peers
        (update m e.addr (some p)) ∧
      (∀ ip, (m ip).map counter = (s.heard ip).head?.map UInt8.toUInt32) ∧
      p.counter = ((s.heard e.addr).head?.getD e.counter).toUInt32 ∧
      (¬s.Restarted e → (eventGtpcEchoReq (.of [e.x]) s.node).2.1.table = s.node.table) := by
  obtain ⟨m, hm, hheard⟩ := hs
  obtain ⟨hpeers, htable⟩ := e.handled s.node
  rw [hpeers, htable]
  have haddr := hheard e.addr
  cases hlast : (s.heard e.addr).head? with
  | none =>
    rw [hlast, map_none, map_eq_none_iff] at haddr
    obtain ⟨hrep, hkeep⟩ := observerSgwPeers_new hm e.nonzero e.unicast e.counter_ne haddr
    exact ⟨m, _, hrep, hheard, rfl, fun _ => hkeep⟩
  | some c =>
    rw [hlast] at haddr
    obtain ⟨p, hp, hpc⟩ := map_eq_some_iff.mp haddr
    obtain ⟨hrep, hkeep⟩ := observerSgwPeers_known hm e.nonzero e.unicast e.counter_ne hp
    refine ⟨m, _, hrep, hheard, hpc, fun hsame => hkeep ?_⟩
    have hc : c = e.counter := by
      by_contra hne
      exact hsame ⟨c, hlast, hne⟩
    rw [hpc, hc]

theorem getD_head?_eq_iff :
    ((s.heard e.addr).head?.getD e.counter).toUInt32 = e.counter.toUInt32 ↔ ¬s.Restarted e := by
  unfold Restarted
  cases (s.heard e.addr).head? with
  | none => simp
  | some c => simp [UInt8.toUInt32_inj]

theorem Inv.detected_iff (hs : s.Inv) (ev : EchoEvent) : s.Detected ev ↔ s.SameCounter ev := by
  cases ev with
  | table t => exact Iff.rfl
  | echo e =>
    obtain ⟨m, p, hrep, -, hp, htable⟩ := hs.echo e
    have hunicast : e.addr ≠ allPeers := e.unicast
    have hget : ∀ callback, (pgwGetSgwPeer (eventGtpcEchoReq (.of [e.x]) s.node).2.1.peers e.addr
        callback).2.2.map counter = [p.counter] := by
      intro callback
      unfold pgwGetSgwPeer
      rw [getLoop_one hunicast, hrep.find, update_self]
      rfl
    constructor
    · rintro ⟨hcache, -, -⟩
      have hpc : p.counter = e.counter.toUInt32 := by
        have h := hcache fun _ p => (p, .ok)
        rw [hget] at h
        exact head_eq_of_cons_eq h
      exact getD_head?_eq_iff.mp (hp.symm.trans hpc)
    · intro hsame
      refine ⟨fun callback => ?_, fun hne => absurd (htable hsame) hne,
        fun hrestart => absurd hrestart hsame⟩
      rw [hget, hp, getD_head?_eq_iff.mpr hsame]

theorem Inv.step (hs : s.Inv) {ev : EchoEvent} (hsame : s.SameCounter ev)
    (hstep : s.step ev = some s') : s'.Inv := by
  cases ev with
  | table t =>
    obtain rfl := some.inj hstep
    exact hs
  | echo e =>
    obtain rfl := some.inj hstep
    obtain ⟨m, p, hrep, hheard, hp, -⟩ := hs.echo e
    refine ⟨_, hrep, fun ip => ?_⟩
    by_cases hip : ip = e.addr
    · subst hip
      simp only [update_self, map_some, head?_cons]
      rw [hp, getD_head?_eq_iff.mpr hsame]
    · simp only [update_of_ne hip]
      exact hheard ip

/-- **Restarts are detected in a run EXACTLY if there are none**: all echoes do what they should
as long as every SGW repeats its first counter, and not beyond. -/
theorem restart_detected_iff (serverId : Text) (t : TunnelTable) (es : List EchoEvent) :
    EachStep step Detected (init serverId t) es ↔
      EachStep step SameCounter (init serverId t) es :=
  eachStep_congr (fun _ ev hs => hs.detected_iff ev) (fun _ _ _ hs hsame => hs.step hsame)
    (init_inv serverId t)

def oldSession : Row where
  imsi := 1
  msisdn := 1
  ueipv4 := []
  pgwTeid := 1
  pgwGtpcIpv := []
  pgwGtpuIpv := []
  ebi := 5
  sgwGtpcTeid := 1
  sgwGtpcIpv := inetNtoa 0x0a000001
  sgwGtpuTeid := 1
  sgwGtpuIpv := []
  active := 1
  qci := 9
  rat := 6
  latestGtpVersion := 2
  restartCounter := 255

def oldTable : TunnelTable := ⟨[oldSession], by simp [tunnelKeys]⟩

def echoOf (counter : UInt8) : SgwEcho where
  x := ⟨echoRequest 0x0a000001 (some counter), 7, true⟩
  item := 8
  request := rfl
  recovery := by
    have hflag : (0x40 : UInt8) &&& 0x08 = 0 := by decide
    simp [recoveryAt, echoRequest, Source.byte, be16, gtpcTypeRecovery, hflag]
  nonzero := (by decide : (0x0a000001 : UInt32) ≠ 0)
  unicast := (by decide : (0x0a000001 : UInt32) ≠ allPeers)

/-- From 255 to 0: the cache stays at 255 and the session active. -/
theorem wrapped_restart_undetected :
    (([.echo (echoOf 255), .echo (echoOf 0)].foldlM step (init [] oldTable)).map fun s =>
        (s.node.peers.peers, s.node.table.rows.map Row.active)) =
      some ([⟨0x0a000001, 255, 7⟩], [1]) ∧
    ¬EachStep step Detected (init [] oldTable) [.echo (echoOf 255), .echo (echoOf 0)] := by
  refine ⟨by decide +kernel, ?_⟩
  rw [eachStep_congr (fun _ ev hs => hs.detected_iff ev) (fun _ _ _ hs hsame => hs.step hsame)
    (init_inv [] oldTable)]
  intro h
  obtain ⟨-, h⟩ := h _ rfl
  obtain ⟨hsame, -⟩ := h _ rfl
  exact hsame ⟨255, rfl, by decide⟩

end EchoRun

end MixiPgw.Ctrl
