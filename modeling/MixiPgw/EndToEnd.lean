/-
# From the Create Session to the user's packets

The two planes share no state. What the dataplane knows about a session is the Private Extension
that the control plane puts behind its response and that somebody delivers to the warm-up rings of
the workers. It becomes an entry of the table, until another warm-up frame comes for its key
(`Served.entry`); so a frame for the UE's address leaves with the TEID and the address of the SGW's
F-TEID, and a G-PDU on the response's TEID from the UE's address is let through
(`session_reaches_dataplane`).

The warm-up ring refuses zeroes, so the TEID has to be non-zero AFTER the EBI has been put into it
(`teidZero_not_served`), and the 6rd gateway's frames are looked up by other bytes.
-/
import MixiPgw.Ctrl.EbiTeid
import MixiPgw.Data.Cycle
import Mathlib.Tactic.IntervalCases

namespace MixiPgw

open Bytes Ctrl Data List Option Mbuf Lookup

/-! ## 1. From the warm-up ring into the table -/

section

variable {conf : Conf} {cs : GtpcParseState} {key : UInt32}

def sessionEntry (junk : Lookup) (cs : GtpcParseState) : Entry :=
  { junk.toEntry with
    ueIpv4 := cs.db.ueIpvN
    ueTeid := cs.db.pgwTeid
    sgwGtpuTeid := teidGrekey (cs.item .uTeid)
    sgwGtpuIpv4 := teidBlk (cs.item .uTeid)
    pgwGtpuIpv4 := cs.db.pgwUIpvN }

def sessionKey (conf : Conf) (cs : GtpcParseState) : UInt32 :=
  (sessionEntry zeroLookup cs).key conf

theorem key_sessionEntry (junk : Lookup) :
    (sessionEntry junk cs).key conf = sessionKey conf cs := by
  unfold sessionKey Entry.key
  split <;> rfl

def Spares (conf : Conf) (key : UInt32) (e : CycleIn) : Prop :=
  ∀ m ∈ e.warmups, (warmupItem e.junk m).toEntry.key conf ≠ key

/-- The extension arrives: the ring is looked at, a frame in it ends with the extension, and none
behind it is for the same key. -/
structure Arrives (cs : GtpcParseState) (s : Core conf) (e : CycleIn) : Prop where
  due : warmupDue s = true
  frame : ∃ pre m post, e.warmups = pre ++ m :: post ∧ 32 ≤ m.pktLen ∧
    m.bytes (m.pktLen - 32) 32 = gtpcPrivateExtensionSet cs ∧
    ∀ m' ∈ post, (warmupItem e.junk m').toEntry.key conf ≠ sessionKey conf cs

/-- **A core that has been told about the session**: no warm-up frame for its key came since. -/
def Served (cs : GtpcParseState) (s : Core conf) : Prop :=
  ∃ (s₀ s₁ : Core conf) (e : CycleIn) (es : List CycleIn), Arrives cs s₀ e ∧
    cycleStep s₀ e = some s₁ ∧ (∀ e' ∈ es, Spares conf (sessionKey conf cs) e') ∧
    es.foldlM cycleStep s₁ = some s

variable {s s' : Core conf}

theorem burst_sameEntries {fs : List Frame} (h : burst s fs = some s') :
    SameEntries s.worker.map s'.worker.map := by
  induction fs generalizing s with
  | nil =>
    obtain rfl := some.inj h
    exact .refl _
  | cons f fs ih =>
    rw [burst_cons] at h
    obtain ⟨s₁, hs₁, hrest⟩ := bind_eq_some_iff.mp h
    obtain ⟨r, hr, hw, -, -⟩ := frameStep_spec hs₁
    have hstep : SameEntries s.worker.map s₁.worker.map := hw ▸ (modifyPacket_spec hr).2.1
    exact hstep.trans (ih hrest)

variable {junk : Lookup} {m : Mbuf}

theorem warmupStep_other (h : (warmupItem junk m).toEntry.key conf ≠ key) :
    (warmupStep junk s m).worker.map key = s.worker.map key := by
  rw [key_toEntry] at h
  unfold warmupStep
  dsimp only
  split
  · exact Function.update_of_ne h.symm _ _
  · rfl

theorem foldl_warmupStep_other {ms : List Mbuf}
    (h : ∀ m ∈ ms, (warmupItem junk m).toEntry.key conf ≠ key) :
    (ms.foldl (warmupStep junk) s).worker.map key = s.worker.map key := by
  induction ms generalizing s with
  | nil => rfl
  | cons m ms ih =>
    have hrest : ∀ m' ∈ ms, (warmupItem junk m').toEntry.key conf ≠ key := by
      intro m' hm'
      exact h m' (mem_cons_of_mem _ hm')
    rw [foldl_cons, ih hrest]
    exact warmupStep_other (h m mem_cons_self)

variable {e : CycleIn}

theorem cycleStep_spares (hspares : Spares conf key e) (h : cycleStep s e = some s') :
    (s'.worker.map key).map toEntry = (s.worker.map key).map toEntry := by
  obtain ⟨s₁, hs₁, rfl⟩ := cycleStep_some h
  have hwarm : (warmup e s₁).worker.map key = s₁.worker.map key := by
    unfold warmup
    split
    · exact foldl_warmupStep_other hspares
    · rfl
  rw [flush_onlyMoves.worker, hwarm]
  exact burst_sameEntries hs₁ key

theorem cycles_spare {es : List CycleIn} (hspares : ∀ e ∈ es, Spares conf key e)
    (h : es.foldlM cycleStep s = some s') :
    (s'.worker.map key).map toEntry = (s.worker.map key).map toEntry := by
  induction es generalizing s with
  | nil => rw [some.inj h]
  | cons e es ih =>
    rw [foldlM_cons] at h
    obtain ⟨s₁, hs₁, hrest⟩ := bind_eq_some_iff.mp h
    have hspares' : ∀ e' ∈ es, Spares conf key e' := by
      intro e' he'
      exact hspares e' (mem_cons_of_mem _ he')
    rw [ih hspares' hrest]
    exact cycleStep_spares (hspares e mem_cons_self) hs₁

/-- The warm-up loop reads what `gtpc_private_extension_set` has written. -/
theorem warmupItem_extension (junk : Lookup)
    (h : m.bytes (m.pktLen - 32) 32 = gtpcPrivateExtensionSet cs) :
    (warmupItem junk m).toEntry = sessionEntry junk cs := by
  unfold warmupItem sessionEntry
  dsimp only
  have h12 : m.word (m.pktLen - 32 + 12) = teidBlk (cs.item .uTeid) :=
    (word_of_bytes h 12 (by decide)).trans (le32_byteOf _)
  have h16 : m.word (m.pktLen - 32 + 16) = teidGrekey (cs.item .uTeid) :=
    (word_of_bytes h 16 (by decide)).trans (le32_byteOf _)
  have h20 : m.word (m.pktLen - 32 + 20) = cs.db.ueIpvN :=
    (word_of_bytes h 20 (by decide)).trans (le32_byteOf _)
  have h24 : m.word (m.pktLen - 32 + 24) = cs.db.pgwTeid :=
    (word_of_bytes h 24 (by decide)).trans (le32_byteOf _)
  have h28 : m.word (m.pktLen - 32 + 28) = cs.db.pgwUIpvN :=
    (word_of_bytes h 28 (by decide)).trans (le32_byteOf _)
  rw [h12, h16, h20, h24, h28]

def Complete (cs : GtpcParseState) : Prop :=
  cs.db.ueIpvN ≠ 0 ∧ cs.db.pgwTeid ≠ 0 ∧ teidBlk (cs.item .uTeid) ≠ 0 ∧
    teidGrekey (cs.item .uTeid) ≠ 0 ∧ cs.db.pgwUIpvN ≠ 0

theorem warmupStep_extension (hc : Complete cs)
    (h : m.bytes (m.pktLen - 32) 32 = gtpcPrivateExtensionSet cs) :
    ((warmupStep junk s m).worker.map (sessionKey conf cs)).map toEntry =
      some (sessionEntry junk cs) := by
  have hentry : (warmupItem junk m).toEntry = sessionEntry junk cs := warmupItem_extension junk h
  have hvalid : warmupValid (warmupItem junk m) = true := by
    obtain ⟨hue, hteid, hip, hsgw, hpgw⟩ := hc
    simp [warmupValid, hentry, sessionEntry, hue, hteid, hip, hsgw, hpgw]
  have hkey : bswap32 (nkey conf (warmupItem junk m)) = sessionKey conf cs := by
    rw [← key_toEntry, hentry, key_sessionEntry]
  unfold warmupStep
  dsimp only
  rw [if_pos hvalid, hkey]
  dsimp only
  rw [Function.update_self, map_some, hentry]

theorem cycleStep_arrives (hc : Complete cs) (harr : Arrives cs s e) (h : cycleStep s e = some s') :
    (s'.worker.map (sessionKey conf cs)).map toEntry = some (sessionEntry e.junk cs) := by
  obtain ⟨s₁, hs₁, rfl⟩ := cycleStep_some h
  obtain ⟨pre, m, post, hms, -, hm, hpost⟩ := harr.frame
  have hdue : warmupDue s₁ = true := by
    have hcount := burst_warmupCount hs₁
    unfold warmupDue
    rw [hcount]
    exact harr.due
  rw [flush_onlyMoves.worker]
  unfold warmup
  rw [if_pos hdue, hms, foldl_append, foldl_cons]
  dsimp only
  rw [foldl_warmupStep_other hpost]
  exact warmupStep_extension hc hm

theorem Served.entry (h : Served cs s) (hc : Complete cs) :
    ∃ itm junk, s.worker.map (sessionKey conf cs) = some itm ∧
      itm.toEntry = sessionEntry junk cs := by
  obtain ⟨s₀, s₁, e, es, harr, hstep, hspares, hrun⟩ := h
  have hmap := (cycles_spare hspares hrun).trans (cycleStep_arrives hc harr hstep)
  obtain ⟨itm, hitm, hentry⟩ := map_eq_some_iff.mp hmap
  exact ⟨itm, e.junk, hitm, hentry⟩

end

/-! ## 2. What the response says -/

section

variable {h : Handle} {rx : RxPacket} {o : Outcome} {pckt : TxPacket}

/-- The address in the PAA of the response, the third item, behind the item header and the PDN
type. -/
def paaAddress (pckt : TxPacket) : UInt32 := load32 pckt.data 36

/-- Where the TEID of the PGW's GTP-U F-TEID is: behind five fixed items and the protocol
options, in the bearer context behind the header, the cause and the EBI. -/
def userTeidOffset (cs : GtpcParseState) : Nat :=
  57 + ((optionalItem gtpcTypePco (setupPco cs)).map fun it => it.2.length).sum + 20

def userTeid (cs : GtpcParseState) (pckt : TxPacket) : UInt32 :=
  load32 pckt.data (userTeidOffset cs)

theorem createSessionPaa_ipv4 {cs : GtpcParseState} {paa : List UInt8} (hpdn : cs.flag .pdn = true)
    (htype : pdnType (cs.item .pdn) = 1) (hpaa : createSessionPaa h cs = some paa) :
    paa = gtpcCommHeader gtpcTypePaa 5 0 ++ [1] ++
      bytesOf (bswap32 (bswap32 cs.db.ueIpvN ||| 0x0a000000)) := by
  unfold createSessionPaa uePaaAddress at hpaa
  rw [if_pos hpdn] at hpaa
  dsimp only at hpaa
  by_cases hzero : bswap32 cs.db.ueIpvN >>> 24 ≠ 0
  · rw [if_pos hzero] at hpaa
    exact absurd hpaa (by simp)
  · rw [if_neg hzero] at hpaa
    dsimp only at hpaa
    rw [if_pos htype] at hpaa
    exact (some.inj hpaa).symm

theorem paaAddress_eq (hv : o.verdict = .accepted) (hsent : createSessionAnswer h rx o = some pckt)
    (hpdn : o.cs.flag .pdn = true) (htype : pdnType (o.cs.item .pdn) = 1) :
    paaAddress pckt = bswap32 (bswap32 o.cs.db.ueIpvN ||| 0x0a000000) := by
  obtain ⟨paa, hpaa, hitems⟩ := createSessionAnswer_items hv hsent
  obtain rfl := createSessionPaa_ipv4 hpdn htype hpaa
  have hload := hitems.load32_eq
    [(gtpcTypeCause, gtpcCauseSet gtpcCauseRequestAccepted),
      (gtpcTypeFTeid, fteidImage 1 7 o.cs.db.pgwTeid o.cs.db.pgwCIpvN)] 5 rfl (Nat.le_refl 9)
  exact hload.trans (le32_byteOf _)

theorem userTeid_eq (hv : o.verdict = .accepted) (hsent : createSessionAnswer h rx o = some pckt)
    (hpdn : o.cs.flag .pdn = true) (htype : pdnType (o.cs.item .pdn) = 1) :
    userTeid o.cs pckt = bswap32 o.cs.db.pgwTeid := by
  obtain ⟨paa, hpaa, hitems⟩ := createSessionAnswer_items hv hsent
  obtain rfl := createSessionPaa_ipv4 hpdn htype hpaa
  -- the items in front of the bearer context; the PAA of a request for IPv4 has 9 bytes
  have hload := hitems.load32_eq ((createSessionItems h o.cs _).take 5 ++
    optionalItem gtpcTypePco (setupPco o.cs)) 20 rfl (Nat.le_of_ble_eq_true rfl)
  have hoffset : userTeidOffset o.cs = 12 + (((createSessionItems h o.cs
      (gtpcCommHeader gtpcTypePaa 5 0 ++ [1] ++
        bytesOf (bswap32 (bswap32 o.cs.db.ueIpvN ||| 0x0a000000)))).take 5 ++
      optionalItem gtpcTypePco (setupPco o.cs)).map fun it => it.2.length).sum + 20 := by
    rw [map_append, sum_append]
    unfold userTeidOffset
    rw [← Nat.add_assoc]
    rfl
  unfold userTeid
  rw [hoffset, hload]
  exact le32_byteOf _

end

/-! ## 3. The session in both directions -/

/-- `10.b.c.d` for a row's `0.b.c.d`. -/
def withTen (ueIpvN : UInt32) : UInt32 := bswap32 (bswap32 ueIpvN ||| 0x0a000000)

variable {x : UInt32}

theorem withTen_eq (h : byteOf x 0 = 0) :
    withTen x = le32 0x0a (byteOf x 1) (byteOf x 2) (byteOf x 3) := by
  have hx : bswap32 x = le32 (byteOf x 3) (byteOf x 2) (byteOf x 1) 0 := by rw [← h]; rfl
  have hten : (0x0a000000 : UInt32) = le32 0 0 0 0x0a := rfl
  unfold withTen
  rw [hx, hten, le32_or_zero, bswap32_le32]

theorem withTen_masked (h : byteOf x 0 = 0) : withTen x &&& 0xffffff00 = x := by
  rw [withTen_eq h, le32_and_ffffff00, ← h, le32_byteOf]

theorem masked_of_zero (h : byteOf x 0 = 0) : x &&& 0xffffff00 = x := by
  have hx : x = le32 0 (byteOf x 1) (byteOf x 2) (byteOf x 3) := by rw [← h, le32_byteOf]
  rw [hx, le32_and_ffffff00]

variable {m : Mbuf}

theorem isUser_withTen (hip : isIpv4 m = true) (h : byteOf x 0 = 0)
    (hdst : m.word 30 = withTen x) : isUser m = true := by
  unfold isUser
  rw [hip, hdst, withTen_eq h, le32_and_ff]
  rfl

theorem encapsulate_ipv4 (itm : Lookup) (hsixrd : isSixrd m = false) (hroom : 36 ≤ m.dataOff) :
    ∃ pkt, encapsulate m itm = some pkt ∧ ∀ j < 4,
      pkt.byte (30 + j) = byteOf itm.sgwGtpuIpv4 j ∧
      pkt.byte (46 + j) = byteOf itm.sgwGtpuTeid j := by
  unfold encapsulate
  simp only [hsixrd, Bool.false_eq_true, if_false]
  rw [prepend_eq hroom]
  refine ⟨_, rfl, fun j hj => ⟨?_, ?_⟩⟩
  · rw [byte_write_of_lt (by omega), byte_write_of_lt (by omega),
      show 30 + j = 14 + (16 + j) by omega, byte_write_mid (show 16 + j < 20 by omega)]
    interval_cases j <;> rfl
  · rw [show 46 + j = 42 + (4 + j) by omega, byte_write_mid (show 4 + j < 8 by omega)]
    interval_cases j <;> rfl

section

variable {conf : Conf} {cs : GtpcParseState} {s : Core conf} {m : Mbuf}

theorem Served.egress (hs : Served cs s) (hc : Complete cs) (hkind : conf.kind = .egressTunnel)
    (hzero : byteOf cs.db.ueIpvN 0 = 0) (hip : isIpv4 m = true) (hsixrd : isSixrd m = false)
    (hroom : 36 ≤ m.dataOff) (hdst : m.word 30 = withTen cs.db.ueIpvN) (now : UInt32)
    (errEnq : Bool) :
    ∃ res, modifyPacket conf now errEnq s.worker m = some res ∧ res.ret = 0 ∧
      res.mbuf.udata.flag = .pdu ∧ ∀ j < 4,
        res.mbuf.byte (30 + j) = (cs.item .uTeid).getD (9 + j) 0 ∧
        res.mbuf.byte (46 + j) = (cs.item .uTeid).getD (5 + j) 0 := by
  obtain ⟨itm, junk, hitm, hentry⟩ := hs.entry hc
  have hown : ownKey m = cs.db.ueIpvN := by
    unfold ownKey
    rw [hsixrd, if_neg (by simp), hdst, withTen_masked hzero]
  have hkey : sessionKey conf cs = bswap32 (ownKey m) := by
    rw [hown]
    unfold sessionKey Entry.key
    rw [hkind]
    rfl
  rw [hkey] at hitm
  have hpoliced := (itm.police_toEntry now (udatSize m)).trans hentry
  obtain ⟨pkt, hpkt, hbytes⟩ := encapsulate_ipv4 (itm.police now (udatSize m)).1 hsixrd hroom
  unfold modifyPacket
  rw [hkind]
  dsimp only
  rw [egressTunnel_found (isUser_withTen hip hzero hdst) hitm, hpkt]
  refine ⟨_, rfl, rfl, rfl, fun j hj => ?_⟩
  obtain ⟨hip4, hteid⟩ := hbytes j hj
  rw [hpoliced] at hip4 hteid
  constructor
  · refine hip4.trans ?_
    interval_cases j <;> simp [sessionEntry, teidBlk, load32]
  · refine hteid.trans ?_
    interval_cases j <;> simp [sessionEntry, teidGrekey, load32]

theorem Served.authentic (hs : Served cs s) (hc : Complete cs) (hkind : conf.kind = .ingressTunnel)
    (hzero : byteOf cs.db.ueIpvN 0 = 0) (hteid : gtphTid m = bswap32 cs.db.pgwTeid)
    (hversion : innerVersion m = 0x40) (hsrc : m.word 62 = withTen cs.db.ueIpvN) :
    authentic s.worker.map m = true := by
  obtain ⟨itm, junk, hitm, hentry⟩ := hs.entry hc
  have hkey : sessionKey conf cs = gtphTid m := by
    rw [hteid]
    unfold sessionKey Entry.key
    rw [hkind]
    rfl
  have hinner : innerSource m = some (withTen cs.db.ueIpvN) := by
    unfold innerSource
    rw [if_pos hversion, ← hsrc]
  rw [hkey] at hitm
  unfold Data.authentic
  rw [hinner, hitm]
  dsimp only
  rw [hentry, withTen_masked hzero]
  exact beq_iff_eq.mpr (masked_of_zero hzero)

end

def Ctrl.Row.gtpuAddress (r : Row) : UInt32 := (onTunnelRecord GtpcParseState.zero r).db.pgwUIpvN

/-- **The session contract across the two planes.** In every core that has been told about an
accepted session
* downlink, an IPv4 frame for the PAA's address that is not the 6rd gateway's leaves with the SGW's
  address and TEID, byte for byte as in the request's F-TEID;
* uplink, a G-PDU with the TEID of the response's GTP-U F-TEID and the PAA's address as its inner
  source passes the lookup and the source check and is handed on. -/
theorem session_reaches_dataplane (h : Handle) (env : Env) (rx : RxPacket) (t : TunnelTable)
    (cs : GtpcParseState) (r : Row) (hrx : receive env rx (savedSeqno rx) = some cs)
    (hacc : CreateSessionAccepts h env t cs r) (hpdn : cs.flag .pdn = true)
    (htype : pdnType (cs.item .pdn) = 1) (hzero : byteOf r.ueAddress 0 = 0)
    (hue : r.ueAddress ≠ 0) (hpgw : r.gtpuAddress ≠ 0) (hteid : sessionTeid cs r ≠ 0)
    (hsgwTeid : teidGrekey (cs.item .uTeid) ≠ 0) (hsgwIp : teidBlk (cs.item .uTeid) ≠ 0) :
    ∃ pckt, createSessionAnswer h rx (createSessionStore h env t cs) = some pckt ∧
      (∀ (conf : Conf) (s : Core conf), conf.kind = .egressTunnel →
        Served (createSessionStore h env t cs).cs s →
        ∀ (m : Mbuf) (now : UInt32) (errEnq : Bool), isIpv4 m = true → isSixrd m = false →
          36 ≤ m.dataOff → m.word 30 = paaAddress pckt →
          ∃ res, modifyPacket conf now errEnq s.worker m = some res ∧ res.ret = 0 ∧
            res.mbuf.udata.flag = .pdu ∧ ∀ j < 4,
              res.mbuf.byte (30 + j) = (cs.item .uTeid).getD (9 + j) 0 ∧
              res.mbuf.byte (46 + j) = (cs.item .uTeid).getD (5 + j) 0) ∧
      (∀ (conf : Conf) (s : Core conf), conf.kind = .ingressTunnel →
        Served (createSessionStore h env t cs).cs s →
        ∀ (m : Mbuf), gtphTid m = userTeid (createSessionStore h env t cs).cs pckt →
          innerVersion m = 0x40 → m.word 62 = paaAddress pckt →
          authentic s.worker.map m = true ∧
          ∀ (now : UInt32) (errEnq : Bool), isPdu m = true → 36 ≤ m.pktLen →
            ∃ res, modifyPacket conf now errEnq s.worker m = some res ∧ res.ret = 0 ∧
              res.mbuf.udata.flag = .pdu) := by
  have hrec : cs.flag .record = false := (receive_spec hrx).record
  have hdb : cs.db = GtpcParseState.zero.db := (receive_spec hrx).db
  obtain ⟨hv, hcs, -⟩ := hacc.spec hrec
  have hsame := createSessionStore_sameRequest h env t cs
  have hsent : ∃ pckt, createSessionAnswer h rx (createSessionStore h env t cs) = some pckt :=
    (createSession_answers rx hrec hdb).mpr fun r' hr' _ => hacc.unique hr' ▸ hzero
  obtain ⟨pckt, hsent⟩ := hsent
  generalize createSessionStore h env t cs = o at hv hcs hsame hsent
  have hue' : o.cs.db.ueIpvN = r.ueAddress := by
    rw [hcs]
    show (onTunnelRecord cs r).db.ueIpvN = _
    rw [onTunnelRecord_db hdb, Row.ueAddress]
  have hpgw' : o.cs.db.pgwUIpvN = r.gtpuAddress := by
    rw [hcs]
    show (onTunnelRecord cs r).db.pgwUIpvN = _
    rw [onTunnelRecord_db hdb, Row.gtpuAddress]
  have hteid' : o.cs.db.pgwTeid = sessionTeid cs r := by rw [hcs, withEbi_pgwTeid]
  have hpdn' : o.cs.flag .pdn = true := (hsame.flag .pdn (by decide)).trans hpdn
  have htype' : pdnType (o.cs.item .pdn) = 1 := by rw [hsame.item, htype]
  have hcomplete : Complete o.cs := by
    unfold Complete
    rw [hue', hpgw', hteid', hsame.item]
    exact ⟨hue, hteid, hsgwIp, hsgwTeid, hpgw⟩
  have hpaa : paaAddress pckt = withTen o.cs.db.ueIpvN := paaAddress_eq hv hsent hpdn' htype'
  have hzero' : byteOf o.cs.db.ueIpvN 0 = 0 := hue'.symm ▸ hzero
  refine ⟨pckt, hsent, ?_, ?_⟩
  · intro conf s hkind hserved m now errEnq hip hsixrd hroom hdst
    rw [hpaa] at hdst
    have hout := hserved.egress hcomplete hkind hzero' hip hsixrd hroom hdst now errEnq
    rwa [hsame.item] at hout
  · intro conf s hkind hserved m htid hversion hsrc
    rw [hpaa] at hsrc
    rw [userTeid_eq hv hsent hpdn' htype'] at htid
    have hauth := hserved.authentic hcomplete hkind hzero' htid hversion hsrc
    refine ⟨hauth, fun now errEnq hpdu hlen => ?_⟩
    have hinner : innerSource m = some (m.word 62) := if_pos hversion
    have hsome : (decapsulate m (m.word 62)).isSome = true := by
      simp [decapsulate_isSome, hversion, hlen]
    obtain ⟨⟨pkt, size⟩, hdec⟩ := isSome_iff_exists.mp hsome
    obtain ⟨res, hres, hret, udata, hmbuf, hflag⟩ := ingressTunnel_authentic hpdu hinner hdec hauth
    unfold modifyPacket
    rw [hkind]
    exact ⟨res, hres, hret, hmbuf ▸ hflag⟩

/-! ## 4. Runs -/

def tellCycle (cs : GtpcParseState) : CycleIn :=
  plainCycle [] [frameOf (gtpcPrivateExtensionSet cs)]

def toldCore (kind : Kind) (cs : GtpcParseState) : Core (plainConf kind) :=
  ((cycleStep (idleCore (plainConf kind)) (tellCycle cs)).getD (idleCore (plainConf kind)))

theorem bytes_frameOf (data : List UInt8) : (frameOf data).bytes 0 data.length = data := by
  refine ext_getD (by simp) fun j hj => ?_
  rw [length_bytes] at hj
  rw [getD_bytes hj]
  simp [frameOf, byte]

theorem tellCycle_arrives (kind : Kind) (cs : GtpcParseState) :
    Arrives cs (idleCore (plainConf kind)) (tellCycle cs) where
  due := by cases kind <;> decide
  frame := ⟨[], frameOf (gtpcPrivateExtensionSet cs), [], rfl, Nat.le_refl 32,
    bytes_frameOf (gtpcPrivateExtensionSet cs), by simp⟩

theorem toldCore_served (kind : Kind) (cs : GtpcParseState) : Served cs (toldCore kind cs) :=
  ⟨idleCore _, toldCore kind cs, tellCycle cs, [], tellCycle_arrives kind cs, rfl, by simp, rfl⟩

def uplinkFrame (teid src : UInt32) : Mbuf :=
  frameOf (List.replicate 12 0 ++ [0x08, 0x00] ++ [0x45, 0, 0, 56, 0, 0, 0, 0, 64, 17, 0, 0] ++
    [10, 0, 0, 2, 10, 9, 9, 9] ++ [0x08, 0x68, 0x08, 0x68, 0, 36, 0, 0] ++
    [0x30, 255, 0, 20] ++ bytesOf teid ++ [0x45, 0, 0, 20, 0, 0, 0, 0, 64, 17, 0, 0] ++
    bytesOf src ++ [198, 51, 100, 1])

/-- The provisioned subscriber's session in both directions. -/
theorem created_reaches_dataplane :
    (∃ res, modifyPacket (plainConf .egressTunnel) 0 true
        (toldCore .egressTunnel createdStore.cs).worker
        (downlinkFrame (paaAddress createdResponse)) = some res ∧ res.ret = 0 ∧
      res.mbuf.udata.flag = .pdu ∧ ∀ j < 4,
        res.mbuf.byte (30 + j) = (createdCs.item .uTeid).getD (9 + j) 0 ∧
        res.mbuf.byte (46 + j) = (createdCs.item .uTeid).getD (5 + j) 0) ∧
    authentic (toldCore .ingressTunnel createdStore.cs).worker.map
      (uplinkFrame (userTeid createdStore.cs createdResponse) (paaAddress createdResponse)) := by
  obtain ⟨pckt, hsent, hegress, hingress⟩ := session_reaches_dataplane plainHandle calmEnv
    createSessionRequest provisionedTable createdCs provisioned (some_get _).symm
    created_accepts (by decide +kernel) (by decide +kernel) (by decide +kernel)
    (by decide +kernel) (by decide +kernel) (by decide +kernel) (by decide +kernel)
    (by decide +kernel)
  obtain rfl : createdResponse = pckt := some.inj ((some_get _).trans hsent)
  exact ⟨hegress _ _ rfl (toldCore_served _ _) _ 0 true (by decide +kernel) (by decide +kernel)
      (by decide) (by decide +kernel),
    (hingress _ _ rfl (toldCore_served _ _) _ (by decide +kernel) (by decide +kernel)
      (by decide +kernel)).1⟩

/-- The same request with EBI 0, for a row whose TEID is 0. -/
def zeroEbiRequest : RxPacket :=
  { createSessionRequest with
    data := ⟨createSessionRequest.data.bytes.set 72 0, fun _ => 0⟩ }

def zeroTeidRow : Row := { provisioned with pgwTeid := 0 }

def zeroTeidTable : TunnelTable := ⟨[zeroTeidRow], by simp⟩

def zeroTeidCs : GtpcParseState :=
  (receive calmEnv zeroEbiRequest (savedSeqno zeroEbiRequest)).get (by decide +kernel)

def zeroTeidStore : Outcome := createSessionStore plainHandle calmEnv zeroTeidTable zeroTeidCs

def zeroTeidResponse : TxPacket :=
  (createSessionAnswer plainHandle zeroEbiRequest zeroTeidStore).get (by decide +kernel)

theorem zeroTeid_accepts :
    CreateSessionAccepts plainHandle calmEnv zeroTeidTable zeroTeidCs zeroTeidRow := by
  decide +kernel

/-- The extension is delivered, and the frames for its address go to the error-indication ring. -/
theorem teidZero_not_served :
    CreateSessionAccepts plainHandle calmEnv zeroTeidTable zeroTeidCs zeroTeidRow ∧
    (zeroTeidCs.flag .pdn = true ∧ pdnType (zeroTeidCs.item .pdn) = 1 ∧
      byteOf zeroTeidRow.ueAddress 0 = 0 ∧ zeroTeidRow.ueAddress ≠ 0 ∧
      zeroTeidRow.gtpuAddress ≠ 0 ∧ teidGrekey (zeroTeidCs.item .uTeid) ≠ 0 ∧
      teidBlk (zeroTeidCs.item .uTeid) ≠ 0) ∧
    Served zeroTeidStore.cs (toldCore .egressTunnel zeroTeidStore.cs) ∧
    (downlinkFrame (paaAddress zeroTeidResponse)).word 30 = paaAddress zeroTeidResponse ∧
    isSixrd (downlinkFrame (paaAddress zeroTeidResponse)) = false ∧
    (modifyPacket (plainConf .egressTunnel) 0 true (toldCore .egressTunnel zeroTeidStore.cs).worker
      (downlinkFrame (paaAddress zeroTeidResponse))).map (fun res => (res.ret, res.err)) =
        some (1, true) :=
  ⟨zeroTeid_accepts, by decide +kernel, toldCore_served _ _, by decide +kernel, by decide +kernel,
    by decide +kernel⟩

end MixiPgw
