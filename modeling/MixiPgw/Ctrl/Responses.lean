/-
# Every request gets one answer, or why not

The request/response law of the four session procedures: one packet on the EGRESS queue, of the
request's type plus one, with its sequence number, back where it came from.

A response always fits the packet buffer, so a builder can only break off where a VALUE is refused:
a UE address whose first octet is in use, or an MSISDN of more than twelve digits.
**`handle_answers_iff`**: the law holds EXACTLY when neither occurs and the procedure is not a
denied Delete Bearer, which is answered as a Delete Session. The last section is what the response
to a Create Session has in it.
-/
import MixiPgw.Ctrl.StoreSpec

namespace MixiPgw.Ctrl

open Bytes CString Lib List Option Procedure

/-! ## 1. The common tail -/

structure Finished (type : UInt8) (pkt : GtpPacket) : Prop where
  wf : pkt.Wf
  offset_ge : 12 ≤ pkt.offset
  type_eq : pkt.packet.getD 1 0 = type

variable {type : UInt8} {items : List (UInt8 × List UInt8)} {pkt : GtpPacket}

theorem finished_of_append (htype : gtpcTypeHeaderlen type = 12)
    (h : gtpcAppendItems (gtpcAllocPacket type) items = some pkt) : Finished type pkt := by
  obtain ⟨hwf, hoff, hkeep⟩ := gtpcAppendItems_keeps (gtpcAllocPacket_wf type) h
  rw [gtpcAllocPacket_offset, htype] at hoff hkeep
  exact ⟨hwf, hoff, (hkeep 1 (by omega) (by omega)).trans (gtpcAllocPacket_type type)⟩

theorem Finished.teid_fits (h : Finished type pkt) (teid : UInt32) :
    4 + (bytesOf teid).length ≤ pkt.offset := by
  have hge := h.offset_ge
  simp only [bytesOf, length_cons, length_nil]
  omega

theorem reply_data_length (h : Finished type pkt) (teid : UInt32) :
    (splice (pkt.packet.take pkt.offset) 4 (bytesOf teid)).length = pkt.offset :=
  h.wf.room.length_splice_take (h.teid_fits teid)

theorem Finished.seqno_fits (h : Finished type pkt)
    (teid seqno : UInt32) : 8 + [byteOf seqno 0, byteOf seqno 1, byteOf seqno 2].length ≤
      (splice (pkt.packet.take pkt.offset) 4 (bytesOf teid)).length := by
  have hge := h.offset_ge
  rw [reply_data_length h]
  simp only [length_cons, length_nil]
  omega

variable {j : Nat}

theorem reply_getD_of_outside (h : Finished type pkt)
    (rx : RxPacket) (teid seqno : UInt32) (hout : ¬ (4 ≤ j ∧ j < 11)) (hlt : j < pkt.offset) :
    (reply rx teid seqno pkt).data.getD j 0 = pkt.packet.getD j 0 := by
  have hteid : (bytesOf teid).length = 4 := rfl
  have hseqno : [byteOf seqno 0, byteOf seqno 1, byteOf seqno 2].length = 3 := rfl
  unfold reply
  rw [getD_splice (h.seqno_fits teid seqno), if_neg (by omega),
    h.wf.room.getD_splice_take (h.teid_fits teid) hlt (by omega)]

theorem reply_type (h : Finished type pkt) (rx : RxPacket)
    (teid seqno : UInt32) : (reply rx teid seqno pkt).data.getD 1 0 = type := by
  have hge := h.offset_ge
  rw [reply_getD_of_outside h rx teid seqno (by omega) (by omega), h.type_eq]

theorem reply_seqno (h : Finished type pkt) (rx : RxPacket) (teid : UInt32) (j : Nat) (hj : j < 3) :
    (reply rx teid (seqnoOf rx.data) pkt).data.getD (8 + j) 0 = rx.data.byte (8 + j) := by
  unfold reply
  rw [getD_splice_mid (h.seqno_fits teid (seqnoOf rx.data)) hj]
  match j, hj with
  | 0, _ => simp [seqnoOf]
  | 1, _ => simp [seqnoOf]
  | 2, _ => simp [seqnoOf]

theorem reply_getD (h : Finished type pkt) (rx : RxPacket)
    (teid seqno : UInt32) (hj : 11 ≤ j) (hlt : j < pkt.offset) :
    (reply rx teid seqno pkt).data.getD j 0 = pkt.packet.getD j 0 :=
  reply_getD_of_outside h rx teid seqno (by omega) hlt

/-! ## 2. Sizes -/

section

@[simp] theorem length_gtpcRecoverySet (c : UInt8) : (gtpcRecoverySet c).length = 5 := rfl
@[simp] theorem length_gtpcCauseSet (c : UInt8) : (gtpcCauseSet c).length = 6 := rfl
@[simp] theorem length_gtpcEbiSet (i e : UInt8) : (gtpcEbiSet i e).length = 5 := rfl
@[simp] theorem length_gtpcChargingIdSet (c : UInt32) : (gtpcChargingIdSet c).length = 8 := rfl
@[simp] theorem length_gtpcAmbrSet (u d : UInt32) : (gtpcAmbrSet u d).length = 12 := rfl

@[simp] theorem length_gtpcApnRestrictionSet (t : UInt8) :
    (gtpcApnRestrictionSet t).length = 5 := rfl

@[simp] theorem length_gtpcBearerCtxBytes (children : List UInt8) :
    (gtpcBearerCtxBytes children).length = 4 + children.length := by
  simp [gtpcBearerCtxBytes]

end

theorem foldlM_addChild : ∀ (children : List (List UInt8)) (acc : List UInt8),
    acc.length + children.flatten.length < 256 →
      children.foldlM gtpcBearerCtxAddChild acc = some (acc ++ children.flatten)
  | [], acc, _ => by simp
  | c :: children, acc, h => by
    simp only [flatten_cons, length_append] at h
    have hstep : gtpcBearerCtxAddChild acc c = some (acc ++ c) := by
      rw [gtpcBearerCtxAddChild, if_neg (by omega)]
    have hrest := foldlM_addChild children (acc ++ c) (by rw [length_append]; omega)
    rw [foldlM_cons, hstep]
    simp only [bind_eq_bind, bind_some, hrest, flatten_cons, append_assoc]

theorem bearerCtxOf_eq {children : List (List UInt8)} (h : children.flatten.length < 256) :
    bearerCtxOf children = some (gtpcBearerCtxBytes children.flatten) := by
  rw [bearerCtxOf, foldlM_addChild children [] (by simpa using h)]
  simp

theorem gtpcMsisdnSet_isSome (n : Nat) : (∃ item, gtpcMsisdnSet n = some item) ↔ n < 10 ^ 12 := by
  rw [← Nat.length_toDigits_le_iff (b := 10) (by omega) (k := 12) (by omega)]
  unfold gtpcMsisdnSet gtpcDigitsSet
  simp only [decimalDigits, length_map]
  split
  · rename_i h
    simp [h]
  · rename_i h
    simpa using h

variable {n : Nat} {item : List UInt8}

theorem length_gtpcMsisdnSet (h : gtpcMsisdnSet n = some item) : item.length = 10 := by
  unfold gtpcMsisdnSet gtpcDigitsSet at h
  simp only [map_eq_some_iff] at h
  obtain ⟨digits, hdigits, rfl⟩ := h
  split at hdigits
  · obtain rfl := some.inj hdigits
    have := length_digitPairs (decimalDigits n)
    simp only [length_append, length_gtpcCommHeader, length_replicate]
    omega
  · exact absurd hdigits (by simp)

theorem bswap32_shiftRight_24 (x : UInt32) : bswap32 x >>> 24 = 0 ↔ byteOf x 0 = 0 := by
  obtain ⟨b0, b1, b2, b3, rfl⟩ : ∃ b0 b1 b2 b3, x = le32 b0 b1 b2 b3 :=
    ⟨_, _, _, _, (le32_byteOf x).symm⟩
  have h1 := b1.toNat_lt
  have h2 := b2.toNat_lt
  have h3 := b3.toNat_lt
  rw [bswap32_le32, byteOf_le32_zero, ← UInt32.toNat_inj, ← UInt8.toNat_inj, UInt32.toNat_shiftRight,
    toNat_le32]
  simp only [UInt32.reduceToNat, UInt32.toNat_zero, UInt8.toNat_zero, Nat.reduceMod,
    Nat.shiftRight_eq_div_pow, Nat.reducePow]
  omega

theorem createSessionPaa_isSome (h : Handle) (cs : GtpcParseState) :
    (∃ paa, createSessionPaa h cs = some paa) ↔
      (cs.flag .pdn = true → byteOf cs.db.ueIpvN 0 = 0) := by
  unfold createSessionPaa uePaaAddress
  by_cases hpdn : cs.flag .pdn = true
  · simp only [hpdn, if_true, true_imp_iff, ← bswap32_shiftRight_24 cs.db.ueIpvN]
    by_cases h0 : bswap32 cs.db.ueIpvN >>> 24 = 0
    · simp only [h0, ne_eq, not_true_eq_false, if_false, iff_true]
      repeat' split
      all_goals exact ⟨_, rfl⟩
    · simp [h0]
  · simp only [hpdn, Bool.false_eq_true, if_false, false_imp_iff, iff_true]
    exact ⟨_, rfl⟩

theorem length_gtpcPaaSet {t : UInt8} {paa item : List UInt8} (h : gtpcPaaSet t paa = some item) :
    0 < item.length ∧ item.length ≤ 26 := by
  unfold gtpcPaaSet at h
  split at h
  · exact absurd h (by simp)
  · obtain rfl := some.inj h
    simp only [length_append, length_gtpcCommHeader, length_cons, length_nil]
    omega

variable {h : Handle} {cs : GtpcParseState}

theorem length_createSessionPaa
    (hpaa : createSessionPaa h cs = some item) : 0 < item.length ∧ item.length ≤ 26 := by
  unfold createSessionPaa at hpaa
  repeat' split at hpaa
  all_goals first | exact length_gtpcPaaSet hpaa | exact absurd hpaa (by simp)

def Sized (n : Nat) (items : List (UInt8 × List UInt8)) : Prop :=
  (∀ it ∈ items, 0 < it.2.length) ∧ (items.map fun it => it.2.length).sum ≤ n

theorem sized_nil : Sized 0 [] := ⟨by simp, by simp⟩

theorem Sized.cons {n m : Nat} {data : List UInt8}
    {rest : List (UInt8 × List UInt8)} (hdata : 0 < data.length ∧ data.length ≤ n)
    (h : Sized m rest) : Sized (n + m) ((type, data) :: rest) := by
  refine ⟨fun it hit => ?_, ?_⟩
  · rcases mem_cons.mp hit with rfl | hit
    · exact hdata.1
    · exact h.1 it hit
  · have := h.2
    simp only [map_cons, sum_cons]
    omega

theorem Sized.append {n m : Nat} {xs ys : List (UInt8 × List UInt8)} (h : Sized n xs)
    (h' : Sized m ys) : Sized (n + m) (xs ++ ys) := by
  refine ⟨fun it hit => ?_, ?_⟩
  · rcases mem_append.mp hit with hit | hit
    · exact h.1 it hit
    · exact h'.1 it hit
  · have := h.2
    have := h'.2
    simp only [map_append, sum_append]
    omega

theorem sized_optionalItem {o : Option (List UInt8)}
    (h : ∀ d, o = some d → 0 < d.length ∧ d.length ≤ n) : Sized n (optionalItem type o) := by
  cases o with
  | none => exact ⟨by simp [optionalItem], by simp [optionalItem]⟩
  | some d => simpa [optionalItem, Sized] using h d rfl

theorem Sized.isSome (h : Sized n items)
    (hn : n < 1500) : ∃ pkt, gtpcAppendItems (gtpcAllocPacket type) items = some pkt := by
  refine gtpcAppendItems_isSome (gtpcAllocPacket_wf type).room h.1 ?_
  have hsum := h.2
  rcases gtpcTypeHeaderlen_cases type with h8 | h12
  · rw [gtpcAllocPacket_offset, h8]
    unfold etherMaxLen
    omega
  · rw [gtpcAllocPacket_offset, h12]
    unfold etherMaxLen
    omega

theorem sized_setupPco (cs : GtpcParseState) : Sized 81 (optionalItem gtpcTypePco (setupPco cs)) :=
  sized_optionalItem fun _ h => length_setupPco h

theorem createSessionAccept_isSome (h : Handle) (cs : GtpcParseState) :
    (∃ pkt, createSessionAccept h cs = some pkt) ↔
      (cs.flag .pdn = true → byteOf cs.db.ueIpvN 0 = 0) := by
  rw [← createSessionPaa_isSome h cs]
  unfold createSessionAccept createSessionAcceptItems
  simp only [gtpcFTeidSet, bind_eq_bind, bind_some]
  cases hpaa : createSessionPaa h cs with
  | none => simp
  | some paa =>
    simp only [bind_some, some.injEq, exists_eq', iff_true]
    rw [bearerCtxOf_eq (by simp [bytesOf])]
    refine Sized.isSome (n := 6 + (13 + (26 + (5 + (12 + 0)))) + 81 + (36 + (5 + (32 + 0))))
      (Sized.append (Sized.append ?_ (sized_setupPco cs)) ?_) (by omega)
    · refine .cons (by simp) (.cons (by simp [bytesOf]) (.cons (length_createSessionPaa hpaa) ?_))
      exact .cons (by simp) (.cons (by simp) sized_nil)
    · exact .cons (by simp [bytesOf]) (.cons (by simp) (.cons (by simp) sized_nil))

theorem modifyBearerAccept_isSome (h : Handle) (cs : GtpcParseState) :
    (∃ pkt, modifyBearerAccept h cs = some pkt) ↔ cs.db.msisdnNum < 10 ^ 12 := by
  rw [← gtpcMsisdnSet_isSome]
  unfold modifyBearerAccept modifyBearerAcceptItems
  simp only [bind_eq_bind]
  cases hms : gtpcMsisdnSet cs.db.msisdnNum with
  | none => simp
  | some msisdn =>
    have hlen := length_gtpcMsisdnSet hms
    -- the Private Extension is there only with both TEIDs
    have hext : Sized 32 (optionalItem gtpcTypePrivateExtension
        (if bothTeids cs then some (gtpcPrivateExtensionSet cs) else none)) := by
      refine sized_optionalItem fun d hd => ?_
      split at hd
      · obtain rfl := some.inj hd
        simp
      · exact absurd hd (by simp)
    simp only [bind_some, some.injEq, exists_eq', iff_true]
    rw [bearerCtxOf_eq (by simp)]
    refine Sized.isSome (n := 6 + (10 + (5 + (5 + 0))) + 81 + (23 + (5 + 0)) + 32)
      (Sized.append (Sized.append (Sized.append ?_ (sized_setupPco cs)) ?_) hext) (by omega)
    · exact .cons (by simp) (.cons (by simp [hlen]) (.cons (by simp) (.cons (by simp) sized_nil)))
    · exact .cons (by simp) (.cons (by simp) sized_nil)

theorem createSessionDenied_isSome : ∃ pkt, createSessionDenied = some pkt := by
  unfold createSessionDenied createSessionDeniedItems
  dsimp only
  rw [bearerCtxOf_eq (by simp)]
  exact Sized.isSome (n := 6 + (15 + 0)) (.cons (by simp) (.cons (by simp) sized_nil)) (by omega)

theorem modifyBearerDenied_isSome : ∃ pkt, modifyBearerDenied = some pkt :=
  Sized.isSome (n := 6 + 0) (.cons (by simp) sized_nil) (by omega)

theorem deleteSessionAccept_isSome (h : Handle) (cs : GtpcParseState) :
    ∃ pkt, deleteSessionAccept h cs = some pkt :=
  Sized.isSome (n := 6 + 0 + 81 + (5 + 0))
    (Sized.append (Sized.append (.cons (by simp) sized_nil) (sized_setupPco cs))
      (.cons (by simp) sized_nil)) (by omega)

theorem deleteSessionDenied_isSome (h : Handle) : ∃ pkt, deleteSessionDenied h = some pkt :=
  Sized.isSome (n := 6 + (5 + 0)) (.cons (by simp) (.cons (by simp) sized_nil)) (by omega)

theorem deleteBearerAccept_isSome (cs : GtpcParseState) : ∃ pkt, deleteBearerAccept cs = some pkt :=
  Sized.isSome (n := 6 + (5 + 0) + 81)
    (Sized.append (.cons (by simp) (.cons (by simp) sized_nil)) (sized_setupPco cs)) (by omega)

/-! ## 3. The law -/

/-- The message type that a procedure's builder allocates. -/
def Procedure.resType (p : Procedure) (v : Verdict) : UInt8 :=
  match p, v with
  | .deleteBearer, .denied => gtpcDeleteSessionRes
  | _, _ => p.reqType + 1

section

variable {h : Handle} {env : Env} {cs : GtpcParseState} {pkt : GtpPacket}

theorem finished_of_items {type : UInt8} {items : BuiltItems} (h12 : gtpcTypeHeaderlen type = 12)
    (hb : items.bind (gtpcAppendItems (gtpcAllocPacket type)) = some pkt) : Finished type pkt := by
  obtain ⟨_, -, happ⟩ := bind_eq_some_iff.mp hb
  exact finished_of_append h12 happ

theorem createSessionAccept_finished (hb : createSessionAccept h cs = some pkt) :
    Finished gtpcCreateSessionRes pkt := finished_of_items rfl hb

theorem createSessionDenied_finished (hb : createSessionDenied = some pkt) :
    Finished gtpcCreateSessionRes pkt := finished_of_items rfl hb

theorem modifyBearerAccept_finished (hb : modifyBearerAccept h cs = some pkt) :
    Finished gtpcModifyBearerRes pkt := finished_of_items rfl hb

theorem modifyBearerDenied_finished (hb : modifyBearerDenied = some pkt) :
    Finished gtpcModifyBearerRes pkt := finished_of_append rfl hb

theorem deleteSessionAccept_finished (hb : deleteSessionAccept h cs = some pkt) :
    Finished gtpcDeleteSessionRes pkt := finished_of_append rfl hb

theorem deleteSessionDenied_finished (hb : deleteSessionDenied h = some pkt) :
    Finished gtpcDeleteSessionRes pkt := finished_of_append rfl hb

theorem deleteBearerAccept_finished (hb : deleteBearerAccept cs = some pkt) :
    Finished gtpcDeleteBearerRes pkt := finished_of_append rfl hb

theorem deleteBearerDenied_finished (hb : deleteBearerDenied h env cs = some pkt) :
    Finished gtpcDeleteSessionRes pkt := finished_of_append rfl hb

end

variable {rx : RxPacket}

theorem map_reply_cases {teid seqno : UInt32}
    {built : Option GtpPacket} (hfin : ∀ {pkt}, built = some pkt → Finished type pkt) :
    built.map (reply rx teid seqno) = none ∨ ∃ teid' pkt, Finished type pkt ∧
      built.map (reply rx teid seqno) = some (reply rx teid' seqno pkt) := by
  cases built with
  | none => exact Or.inl rfl
  | some pkt => exact Or.inr ⟨teid, pkt, hfin rfl, rfl⟩

theorem Procedure.answer_cases (p : Procedure) (h : Handle) (env : Env) (rx : RxPacket) :
    ∀ o : Outcome, p.answer h env rx o = none ∨
      ∃ teid pkt, Finished (p.resType o.verdict) pkt ∧
        p.answer h env rx o = some (reply rx teid o.cs.gtphSeqno pkt)
  | ⟨_, _, .accepted⟩ =>
    match p with
    | .createSession => map_reply_cases createSessionAccept_finished
    | .modifyBearer => map_reply_cases modifyBearerAccept_finished
    | .deleteSession => map_reply_cases deleteSessionAccept_finished
    | .deleteBearer => map_reply_cases deleteBearerAccept_finished
  | ⟨_, _, .denied⟩ =>
    match p with
    | .createSession => map_reply_cases createSessionDenied_finished
    | .modifyBearer => map_reply_cases modifyBearerDenied_finished
    | .deleteSession => map_reply_cases deleteSessionDenied_finished
    | .deleteBearer => map_reply_cases deleteBearerDenied_finished

/-- The law: one more packet on the queue, and it answers this request. -/
def AnsweredOnce (rx : RxPacket) (s s' : NodeState) : Prop :=
  ∃ pckt, s'.egress = s.egress ++ [pckt] ∧ pckt.data.getD 1 0 = rx.data.byte 1 + 1 ∧
    (∀ j < 3, pckt.data.getD (8 + j) 0 = rx.data.byte (8 + j)) ∧
    pckt.saddr = rx.caddr ∧ pckt.caddr = rx.saddr

/-- The UE address that `on_tunnel_record` reads, in network order. -/
def Row.ueAddress (r : Row) : UInt32 := (onTunnelRecord GtpcParseState.zero r).db.ueIpvN

theorem onTunnelRecord_db (hdb : cs.db = GtpcParseState.zero.db) (r : Row) :
    (onTunnelRecord cs r).db = (onTunnelRecord GtpcParseState.zero r).db := by
  simp only [onTunnelRecord, hdb]

/-- **When a request can be answered.** -/
def CanAnswer (h : Handle) (env : Env) (p : Procedure) (t : TunnelTable) (cs : GtpcParseState) :
    Prop :=
  match p with
  | .createSession =>
    ∀ r, CreateSessionAccepts h env t cs r → cs.flag .pdn = true → byteOf r.ueAddress 0 = 0
  | .modifyBearer => ∀ r, ModifyBearerAccepts env t cs r → r.msisdn < 10 ^ 12
  | .deleteSession => True
  | .deleteBearer => DeleteSessionAccepts env t cs

variable {env : Env}

theorem receive_spec {saved cs : GtpcParseState}
    (h : receive env rx saved = some cs) : SameSession saved cs := by
  unfold receive at h
  split at h
  · exact absurd h (by simp)
  · obtain rfl := some.inj h
    exact gtpcIterateItem_keeps _ _ _

theorem Procedure.saved_seqno (p : Procedure) (rx : RxPacket) :
    (p.saved rx).gtphSeqno = seqnoOf rx.data := by cases p <;> rfl

theorem Procedure.saved_db (p : Procedure) (rx : RxPacket) :
    (p.saved rx).db = GtpcParseState.zero.db := by cases p <;> rfl

theorem Procedure.saved_record (p : Procedure) (rx : RxPacket) :
    (p.saved rx).flag .record = false := by cases p <;> rfl

theorem answeredOnce_iff {p : Procedure} {s : NodeState}
    (hparse : receive env rx (p.saved rx) = some cs)
    (htype : rx.data.byte 1 = p.reqType) (hroom : s.egress.length < ringSizeMax) :
    AnsweredOnce rx s (handle h env p rx s) ↔
      (∃ pckt, p.answer h env rx (p.store h env s.table cs) = some pckt) ∧
        p.resType (p.store h env s.table cs).verdict = p.reqType + 1 := by
  have hseq : (p.store h env s.table cs).cs.gtphSeqno = seqnoOf rx.data := by
    rw [(p.store_sameRequest h env s.table cs).seqno, (receive_spec hparse).seqno, p.saved_seqno]
  unfold AnsweredOnce handle
  simp only [hparse, htype]
  rcases p.answer_cases h env rx (p.store h env s.table cs) with hnone | ⟨teid, pkt, hfin, hsome⟩
  · simp [hnone]
  · rw [hsome, hseq]
    simp only [pgwEnq, if_neg (Nat.not_le.mpr hroom), append_cancel_left_eq,
      List.cons.injEq, and_true, exists_eq_left', reply_type hfin, some.injEq]
    constructor
    · exact fun hlaw => ⟨⟨_, rfl⟩, hlaw.1⟩
    · exact fun hres => ⟨hres.2, fun j hj => reply_seqno hfin rx teid j hj, rfl, rfl⟩

theorem isSome_map_iff {α β : Type} {f : α → β} {o : Option α} :
    (∃ b, o.map f = some b) ↔ ∃ a, o = some a := by
  cases o <;> simp

variable {t : TunnelTable}

theorem createSession_answers
    (rx : RxPacket) (hrec : cs.flag .record = false) (hdb : cs.db = GtpcParseState.zero.db) :
    (∃ pckt, createSessionAnswer h rx (createSessionStore h env t cs) = some pckt) ↔
      CanAnswer h env .createSession t cs := by
  unfold createSessionAnswer CanAnswer
  rw [isSome_map_iff]
  rcases createSessionStore_cases h env t hrec with ⟨r, hacc, hv, hcs, -⟩ | ⟨hno, hv⟩
  · have hflag : (onTunnelRecord cs r).withEbi.flag .pdn = cs.flag .pdn :=
      ((onTunnelRecord_sameRequest cs r).trans (withEbi_sameRequest _)).flag .pdn (by decide)
    have hue : (onTunnelRecord cs r).withEbi.db.ueIpvN = r.ueAddress := by
      show (onTunnelRecord cs r).db.ueIpvN = _
      rw [onTunnelRecord_db hdb, Row.ueAddress]
    rw [hv, hcs]
    simp only [createSessionAccept_isSome, hflag, hue]
    exact ⟨fun hpdn r' hr' => hacc.unique hr' ▸ hpdn, fun hall => hall r hacc⟩
  · rw [hv]
    exact ⟨fun _ r hr => absurd hr (hno r), fun _ => createSessionDenied_isSome⟩

theorem modifyBearer_answers (rx : RxPacket) (hrec : cs.flag .record = false) :
    (∃ pckt, modifyBearerAnswer h rx (modifyBearerStore env t cs) = some pckt) ↔
      CanAnswer h env .modifyBearer t cs := by
  unfold modifyBearerAnswer CanAnswer
  rw [isSome_map_iff]
  rcases modifyBearerStore_cases env t hrec with ⟨r, hacc, hv, hms, -⟩ | ⟨hno, hv⟩
  · rw [hv]
    simp only [modifyBearerAccept_isSome, hms]
    refine ⟨fun hlt r' hr' => ?_, fun hall => hall r hacc⟩
    obtain rfl : r = r' := UniqueTable.eq_of_key pgwTeid_mem_keys hacc.mem hr'.mem
      ((teid_of_modifyLookup hacc.found.2).1.trans (teid_of_modifyLookup hr'.found.2).1.symm)
    exact hlt
  · rw [hv]
    exact ⟨fun _ r hr => absurd hr (hno r), fun _ => modifyBearerDenied_isSome⟩

theorem deleteSession_answers (h : Handle) (rx : RxPacket) :
    ∀ o : Outcome, ∃ pckt, deleteSessionAnswer h rx o = some pckt
  | ⟨_, cs, .accepted⟩ => isSome_map_iff.mpr (deleteSessionAccept_isSome h cs)
  | ⟨_, _, .denied⟩ => isSome_map_iff.mpr (deleteSessionDenied_isSome h)

/-- **The request/response law, exactly.** An accepted datagram puts one answer on the queue if
and only if it can be answered: not a session whose UE address has its first octet in use, not a
bearer whose MSISDN has more than twelve digits, not a denied Delete Bearer. -/
theorem handle_answers_iff (h : Handle) (env : Env) (p : Procedure) (rx : RxPacket) (s : NodeState)
    (cs : GtpcParseState) (hparse : receive env rx (p.saved rx) = some cs)
    (htype : rx.data.byte 1 = p.reqType) (hroom : s.egress.length < ringSizeMax) :
    AnsweredOnce rx s (handle h env p rx s) ↔ CanAnswer h env p s.table cs := by
  have hsame := receive_spec hparse
  have hrec : cs.flag .record = false := hsame.record.trans (p.saved_record rx)
  have hdb : cs.db = GtpcParseState.zero.db := hsame.db.trans (p.saved_db rx)
  rw [answeredOnce_iff hparse htype hroom]
  cases p with
  | createSession =>
    have hres : ∀ v, createSession.resType v = gtpcCreateSessionReq + 1 := fun v => by
      cases v <;> rfl
    exact (and_iff_left (hres _)).trans (createSession_answers rx hrec hdb)
  | modifyBearer =>
    have hres : ∀ v, modifyBearer.resType v = gtpcModifyBearerReq + 1 := fun v => by
      cases v <;> rfl
    exact (and_iff_left (hres _)).trans (modifyBearer_answers rx hrec)
  | deleteSession =>
    have hres : ∀ v, deleteSession.resType v = gtpcDeleteSessionReq + 1 := fun v => by
      cases v <;> rfl
    exact iff_of_true ⟨deleteSession_answers h rx _, hres _⟩ trivial
  | deleteBearer =>
    rcases deleteSessionStore_cases env s.table hrec with ⟨hacc, hv, -⟩ | ⟨hno, hv, -⟩
    · refine iff_of_true ⟨?_, ?_⟩ hacc
      · simp only [Procedure.store, Procedure.answer, deleteBearerAnswer, hv]
        exact isSome_map_iff.mpr (deleteBearerAccept_isSome _)
      · simp only [Procedure.store, hv]
        rfl
    · refine iff_of_false (fun hlaw => ?_) hno
      simp only [Procedure.store, hv] at hlaw
      exact absurd hlaw.2 (by decide)

def deleteBearerRequest : RxPacket where
  data := ⟨[0x48, 99, 0, 8, 0, 0, 0, 5, 0, 0, 9, 0], fun _ => 0⟩
  datalen := 12
  saddr := ⟨2, 2123, 1⟩
  caddr := ⟨2, 2123, 2⟩

def calmEnv : Env where
  mem := ⟨fun _ => 0, fun _ => 0⟩
  errnoRange := fun _ => false
  db := fun _ => true

def plainHandle : Handle where
  serverGtpc := none
  extSetNum := 0
  pgwUnitNum := 0
  recoveryCount := 1

def subscriber : Row where
  imsi := 1
  msisdn := 2
  ueipv4 := [48, 46, 48, 46, 48, 46, 55]
  pgwTeid := 5
  pgwGtpcIpv := []
  pgwGtpuIpv := []
  ebi := 0
  sgwGtpcTeid := 0
  sgwGtpcIpv := []
  sgwGtpuTeid := 0
  sgwGtpuIpv := []
  active := 1
  qci := 0
  rat := 0
  latestGtpVersion := 2
  restartCounter := 0

def emptyTable : TunnelTable := ⟨[], UniqueTable.unique_nil⟩
def subscriberTable : TunnelTable := ⟨[subscriber], by simp⟩

/-- A Create Session Request of IMSI 440100000000001, MSISDN 819012345678, EBI 5, PDN type IPv4. -/
def createSessionRequest : RxPacket where
  data := ⟨[0x48, 32, 0, 108, 0, 0, 0, 0, 0, 0, 1, 0, 1, 0, 8, 0, 0x44, 0x10, 0x00, 0x00, 0x00,
    0x00, 0x00, 0xf1, 76, 0, 6, 0, 0x18, 0x09, 0x21, 0x43, 0x65, 0x87, 87, 0, 9, 0, 0x86, 0, 0, 0,
    7, 10, 0, 0, 1, 72, 0, 8, 0, 0, 0, 0, 1, 0, 0, 0, 1, 99, 0, 1, 0, 1, 93, 0, 44, 0, 73, 0, 1, 0,
    5, 87, 0, 9, 0, 0x84, 0, 0, 0, 8, 10, 0, 0, 2, 80, 0, 22, 0, 0, 9, 0, 0, 0, 0, 0, 0, 0, 0, 0, 0,
    0, 0, 0, 0, 0, 0, 0, 0, 0, 0], fun _ => 0⟩
  datalen := 112
  saddr := ⟨2, 2123, 1⟩
  caddr := ⟨2, 2123, 2⟩

def provisioned : Row :=
  { subscriber with
    imsi := 440100000000001
    msisdn := 819012345678
    pgwGtpuIpv := [49, 48, 46, 57, 46, 57, 46, 57]
    active := 0 }

def provisionedTable : TunnelTable := ⟨[provisioned], by simp⟩

/-- Another subscriber, with a session. -/
def neighbour : Row := { subscriber with imsi := 3, msisdn := 4, pgwTeid := 9 }

theorem deleteBearer_known :
    receive calmEnv deleteBearerRequest (deleteBearer.saved deleteBearerRequest) =
        some (savedSeqnoTeid deleteBearerRequest) ∧
      AnsweredOnce deleteBearerRequest ⟨subscriberTable, []⟩
        (handle plainHandle calmEnv .deleteBearer deleteBearerRequest ⟨subscriberTable, []⟩) :=
  ⟨rfl, (handle_answers_iff plainHandle calmEnv .deleteBearer deleteBearerRequest
    ⟨subscriberTable, []⟩ (savedSeqnoTeid deleteBearerRequest) rfl (by decide) (by decide)).mpr
      ⟨rfl, rfl, subscriber, by simp [subscriberTable], by decide⟩⟩

/-- An unknown one is answered with a Delete SESSION Response. -/
theorem deleteBearer_unknown :
    receive calmEnv deleteBearerRequest (deleteBearer.saved deleteBearerRequest) =
        some (savedSeqnoTeid deleteBearerRequest) ∧
      ¬ AnsweredOnce deleteBearerRequest ⟨emptyTable, []⟩
        (handle plainHandle calmEnv .deleteBearer deleteBearerRequest ⟨emptyTable, []⟩) := by
  refine ⟨rfl, fun hlaw => ?_⟩
  have hres := ((answeredOnce_iff (p := .deleteBearer) (s := ⟨emptyTable, []⟩) rfl (by decide)
    (by decide)).mp hlaw).2
  exact absurd hres (by decide)

/-! ## 4. The items of an accepted Create Session -/

def fteidImage (inst iftype : UInt8) (teid v4 : UInt32) : List UInt8 :=
  gtpcCommHeader gtpcTypeFTeid 9 inst ++ [(iftype &&& 0x1f) ||| 0x80] ++
    bytesOf (bswap32 teid) ++ bytesOf v4

theorem gtpcFTeidSet_some (inst iftype : UInt8) (teid v4 : UInt32) (v6 : Option (List UInt8)) :
    gtpcFTeidSet inst iftype teid (some v4) v6 = some (fteidImage inst iftype teid v4) := rfl

@[simp] theorem length_fteidImage (inst iftype : UInt8) (teid v4 : UInt32) :
    (fteidImage inst iftype teid v4).length = 13 := rfl

theorem load32_fteidImage (inst iftype : UInt8) (teid v4 : UInt32) :
    load32 (fteidImage inst iftype teid v4) 5 = bswap32 teid := le32_byteOf _

def createSessionBearerCtx (cs : GtpcParseState) : List UInt8 :=
  gtpcBearerCtxBytes [gtpcCauseSet gtpcCauseRequestAccepted, gtpcEbiSet 0 (ebiLow (cs.item .ebiB)),
    fteidImage 2 5 cs.db.pgwTeid cs.db.pgwUIpvN, gtpcChargingIdSet cs.db.pgwTeid].flatten

def createSessionItems (h : Handle) (cs : GtpcParseState) (paa : List UInt8) :
    List (UInt8 × List UInt8) :=
  [(gtpcTypeCause, gtpcCauseSet gtpcCauseRequestAccepted),
    (gtpcTypeFTeid, fteidImage 1 7 cs.db.pgwTeid cs.db.pgwCIpvN), (gtpcTypePaa, paa),
    (gtpcTypeApnRestriction, gtpcApnRestrictionSet 0),
    (gtpcTypeAmbr, gtpcAmbrSet (bswap32 (load32 (cs.item .ambrR) 4))
      (bswap32 (load32 (cs.item .ambrR) 8)))] ++
    optionalItem gtpcTypePco (setupPco cs) ++
    [(gtpcTypeBearerCtx, createSessionBearerCtx cs), (gtpcTypeRecovery,
      gtpcRecoverySet h.recoveryCount), (gtpcTypePrivateExtension, gtpcPrivateExtensionSet cs)]

theorem createSessionAccept_items (hb : createSessionAccept h cs = some pkt) :
    ∃ paa, createSessionPaa h cs = some paa ∧
      gtpcAppendItems (gtpcAllocPacket gtpcCreateSessionRes) (createSessionItems h cs paa) =
        some pkt := by
  simp only [createSessionAccept, createSessionAcceptItems, gtpcFTeidSet_some, bind_eq_bind,
    bind_some, bind_assoc, bind_eq_some_iff] at hb
  obtain ⟨paa, hpaa, bctx, hbctx, happ⟩ := hb
  rw [bearerCtxOf_eq (by simp)] at hbctx
  obtain rfl := some.inj hbctx
  exact ⟨paa, hpaa, happ⟩

/-- The items lie behind the header in their order. -/
def ItemsAt (data : List UInt8) (items : List (UInt8 × List UInt8)) : Prop :=
  ∀ before type image after, items = before ++ (type, image) :: after → ∀ j < image.length,
    data.getD (12 + (before.map fun it => it.2.length).sum + j) 0 = image.getD j 0

variable {o : Outcome} {pckt : TxPacket}

theorem createSessionAnswer_items
    (hv : o.verdict = .accepted) (hsent : createSessionAnswer h rx o = some pckt) :
    ∃ paa, createSessionPaa h o.cs = some paa ∧
      ItemsAt pckt.data (createSessionItems h o.cs paa) := by
  simp only [createSessionAnswer, hv, map_eq_some_iff] at hsent
  obtain ⟨pkt, hb, rfl⟩ := hsent
  obtain ⟨paa, hpaa, happ⟩ := createSessionAccept_items hb
  refine ⟨paa, hpaa, fun before type image after hitems j hj => ?_⟩
  rw [hitems] at happ
  obtain ⟨hlt, hbyte⟩ := gtpcAppendItems_getD (gtpcAllocPacket_wf _).room happ j hj
  have hoff : (gtpcAllocPacket gtpcCreateSessionRes).offset = 12 := gtpcAllocPacket_offset _
  rw [hoff] at hlt hbyte
  rw [reply_getD (createSessionAccept_finished hb) _ _ _ (by omega) hlt, hbyte]

theorem ItemsAt.load32_eq {data image : List UInt8} {items after : List (UInt8 × List UInt8)}
    (h : ItemsAt data items) (before : List (UInt8 × List UInt8)) (i : Nat)
    (hitems : items = before ++ (type, image) :: after) (hi : i + 4 ≤ image.length) :
    load32 data (12 + (before.map fun it => it.2.length).sum + i) = load32 image i := by
  have hbyte : ∀ k < 4, data.getD (12 + (before.map fun it => it.2.length).sum + i + k) 0 =
      image.getD (i + k) 0 := fun k hk => by
    rw [Nat.add_assoc _ i k]
    exact h before type image after hitems (i + k) (by omega)
  unfold load32
  rw [← hbyte 1 (by omega), ← hbyte 2 (by omega), ← hbyte 3 (by omega)]
  exact congrArg (le32 · _ _ _) (hbyte 0 (by omega))

/-- The TEID in the control F-TEID of a Create Session Response, behind the 6 bytes of the cause. -/
def controlTeid (pckt : TxPacket) : UInt32 := bswap32 (load32 pckt.data 23)

theorem createSessionAnswer_controlTeid (hv : o.verdict = .accepted)
    (hsent : createSessionAnswer h rx o = some pckt) : controlTeid pckt = o.cs.db.pgwTeid := by
  obtain ⟨paa, -, hitems⟩ := createSessionAnswer_items hv hsent
  have hload := hitems.load32_eq [(gtpcTypeCause, gtpcCauseSet gtpcCauseRequestAccepted)] 5 rfl
    (by simp)
  rw [load32_fteidImage] at hload
  unfold controlTeid
  exact (congrArg bswap32 hload).trans (bswap32_bswap32 _)

end MixiPgw.Ctrl
