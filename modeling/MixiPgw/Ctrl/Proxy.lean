/-
# The proxy between SGWs and PGWs

The proxy forwards an SGW's request to the PGW of the subscriber and remembers the SGW's address
under the sequence number and the SGW's TEID; a PGW's response carries both, and goes to the address
they lead to. The session cache holds the FIRST request of every key (`run_cached`), so a response
reaches the SGW that has asked last exactly when the first request under its key came from there too
(`response_to_requester_iff`). The key of a response has the byte behind the sequence number in it,
that of a request has not.
-/
import MixiPgw.Lib.Run
import MixiPgw.Ctrl.Parser
import MixiPgw.Ctrl.WalkV1

namespace MixiPgw.Ctrl.Proxy

open Bytes Lib Option List

/-! ## 1. Sockets -/

structure Datagram where
  bytes : List UInt8
  src : SockAddr
deriving DecidableEq, Repr

/-- `extsock_` and `intsock_`. -/
inductive Sock
  | ext
  | int
deriving DecidableEq, Repr

structure Sent where
  sock : Sock
  dest : SockAddr
  data : List UInt8
deriving DecidableEq, Repr

/-- `ntohs(rh->length)`. -/
def lengthOf (rbuf : Source) : Nat := be16 (rbuf.byte 2) (rbuf.byte 3)

/-- `q.seqno`, all four bytes; `q.sq_t.seqno` has three. -/
def seqnoWord (rbuf : Source) : UInt32 :=
  le32 (rbuf.byte 8) (rbuf.byte 9) (rbuf.byte 10) (rbuf.byte 11)

def datalenOf (rbuf : Source) : Nat :=
  4 + lengthOf rbuf +
    if flagsVersion (rbuf.byte 0) = 1 ∧ rbuf.byte 0 &&& 0x07 ≠ 0 then 4 else 0

/-- How far a handler gets with the datagram at the head of its queue. -/
inductive Received
  /-- refused at `MSG_PEEK`: the datagram stays -/
  | kept
  /-- so many datagrams are gone -/
  | dropped (count : Nat)
  | packet (rbuf : Source) (datalen : Nat)

/-- The first part of both handlers. `past` is what the stack has behind the bytes received; the
checks of the header read four of these. After a datagram that is too short another one is read off
the socket; `unnamed` is how many are gone when `getsockname` fails. -/
def receive (unnamed : Nat) (past : Nat → UInt8) (getsockname : Bool) (d : Datagram) : Received :=
  let header : Source := ⟨d.bytes, past⟩
  if d.bytes.length < 8 then .kept
  else if lengthOf header < 4 ∨ lengthOf header > etherMaxLen then .kept
  else if ¬(gtpcValidateHeader header).val then .kept
  else if d.bytes.length < datalenOf header then .dropped 2
  else if ¬getsockname then .dropped unnamed
  else .packet ⟨d.bytes.take (datalenOf header), past⟩ (datalenOf header)

def gtpcV1MsgCreatePdpContextReq : UInt8 := 16

def gtpcV1MsgDeletePdpContextRes : UInt8 := 21

/-- The messages a handler takes: of version 2 one type and Echo Request, of version 1 those of PDP
contexts. -/
def supported (type : UInt8) (rbuf : Source) : Bool :=
  if flagsVersion (rbuf.byte 0) = 2 then rbuf.byte 1 = type || rbuf.byte 1 = gtpcEchoReq
  else if flagsVersion (rbuf.byte 0) = 1 then
    gtpcV1MsgCreatePdpContextReq ≤ rbuf.byte 1 && rbuf.byte 1 ≤ gtpcV1MsgDeletePdpContextRes
  else false

/-- `_ModifyEchoReq`: the restart counter is cleared, if it is the only item, and the request
becomes the response. -/
def modifyEchoReq (rbuf : Source) : List UInt8 :=
  let cleared (offset : Nat) :=
    if rbuf.byte offset = gtpcTypeRecovery then rbuf.bytes.set (offset + 4) 0 else rbuf.bytes
  let bytes :=
    if rbuf.byte 0 &&& 0x08 ≠ 0 then
      if lengthOf rbuf = (12 - 4) + 5 then cleared 12 else rbuf.bytes
    else if lengthOf rbuf = (12 - 8) + 5 then cleared 8 else rbuf.bytes
  bytes.set 1 gtpcEchoRes

/-! ## 2. The handlers -/

structure RouteSession where
  imsi : Nat
  seqno : UInt32
  teid : UInt32
  host : SockAddr

def sessionKey (seqno teid : UInt32) : UInt64 := seqno.toUInt64 <<< 32 ||| teid.toUInt64

/-- Three bytes in version 2, two in version 1. -/
def sequenceNumber (rbuf : Source) : UInt32 :=
  if flagsVersion (rbuf.byte 0) = 2 then seqnoOf rbuf else le32 (rbuf.byte 8) (rbuf.byte 9) 0 0

/-- A cached request: its sequence number and SGW's TEID, if it carries one, its key, where it came
from, and whether it was sent on. -/
structure Request where
  pair : Option (UInt32 × UInt32)
  seqno : UInt32
  teid : UInt32
  host : SockAddr
  forwarded : Bool
deriving DecidableEq, Repr

/-- `session_`, the queues of the sockets, and the record of the requests. -/
structure State where
  session : UInt64 → Option RouteSession
  extQueue : List Datagram
  intQueue : List Datagram
  log : List Request

def init : State := ⟨fun _ => none, [], [], []⟩

def findSessionBySeqnoTeid (s : State) (seqno teid : UInt32) : Option RouteSession :=
  s.session (sessionKey seqno teid)

def setSession (session : UInt64 → Option RouteSession) (imsi : Nat) (seqno teid : UInt32)
    (addr : SockAddr) : UInt64 → Option RouteSession :=
  if (session (sessionKey seqno teid)).isNone then
    Function.update session (sessionKey seqno teid) (some ⟨imsi, seqno, teid, addr⟩)
  else session

/-- What a call of `OnRecieveExt` depends on: the stack, with which `parse_state` starts as well,
the system calls, and `route`, which is `FindGroupByImsi` and the first of the group's routes. -/
structure ExtCall where
  past : Nat → UInt8
  getsockname : Bool
  fuel : Nat
  mem : ItemMemory
  errnoRange : Bool
  parseState : GtpcParseState
  route : Nat → Option SockAddr
  sendOk : Bool

structure IntCall where
  past : Nat → UInt8
  getsockname : Bool
  sendOk : Bool

/-- The sequence number and the SGW's TEID of a request, parsed from a state that has none. -/
def requestPair (c : ExtCall) (rbuf : Source) (datalen : Nat) : Option (UInt32 × UInt32) :=
  match parseImsi c.fuel c.mem c.errnoRange rbuf datalen GtpcParseState.zero with
  | some (some (_, cs)) =>
    if cs.flag .fteidC ∨ cs.flagV1 .v1TeidCtrl then
      some (sequenceNumber rbuf, teidGrekey (cs.item .cTeid))
    else none
  | _ => none

def sendSock (sendOk : Bool) (sent : Sent) : List Sent := if sendOk then [sent] else []

/-- `OnRecieveExt`; `none` when a loop of `_ParseImsi` has not ended. -/
def onRecieveExt (s : State) (c : ExtCall) : Option (State × List Sent) :=
  match s.extQueue with
  | [] => some (s, [])
  | d :: queue =>
    match receive 2 c.past c.getsockname d with
    | .kept => some (s, [])
    | .dropped count => some ({ s with extQueue := s.extQueue.drop count }, [])
    | .packet rbuf datalen =>
      let s' := { s with extQueue := queue }
      if ¬supported gtpcCreateSessionReq rbuf then some (s', [])
      else if rbuf.byte 1 = gtpcEchoReq then
        some (s', sendSock c.sendOk ⟨.ext, d.src, modifyEchoReq rbuf⟩)
      else
        match parseImsi c.fuel c.mem c.errnoRange rbuf datalen c.parseState with
        | none => none
        | some none => some (s', [])
        | some (some (imsi, cs)) =>
          match c.route imsi with
          | none => some (s', [])
          | some dest =>
            let seqno := seqnoOf rbuf
            let teid := teidGrekey (cs.item .cTeid)
            some
              ({ s' with
                session := setSession s.session imsi seqno teid d.src
                log := s.log ++ [⟨requestPair c rbuf datalen, seqno, teid, d.src, c.sendOk⟩] },
                sendSock c.sendOk ⟨.int, dest, rbuf.bytes⟩)

def onRecieveInt (s : State) (c : IntCall) : State × List Sent :=
  match s.intQueue with
  | [] => (s, [])
  | d :: queue =>
    match receive 1 c.past c.getsockname d with
    | .kept => (s, [])
    | .dropped count => ({ s with intQueue := s.intQueue.drop count }, [])
    | .packet rbuf _ =>
      let s' := { s with intQueue := queue }
      if ¬supported gtpcCreateSessionRes rbuf then (s', [])
      else if flagsVersion (rbuf.byte 0) = 2 ∧ rbuf.byte 1 = gtpcEchoReq then
        (s', sendSock c.sendOk ⟨.int, d.src, modifyEchoReq rbuf⟩)
      else
        match findSessionBySeqnoTeid s (seqnoWord rbuf) (teidOf rbuf) with
        | none => (s', [])
        | some sess => (s', sendSock c.sendOk ⟨.ext, sess.host, rbuf.bytes⟩)

inductive Event
  | arriveExt (d : Datagram)
  | arriveInt (d : Datagram)
  | recieveExt (c : ExtCall)
  | recieveInt (c : IntCall)

def step (s : State) : Event → Option State
  | .arriveExt d => some { s with extQueue := s.extQueue ++ [d] }
  | .arriveInt d => some { s with intQueue := s.intQueue ++ [d] }
  | .recieveExt c => (onRecieveExt s c).map Prod.fst
  | .recieveInt c => some (onRecieveInt s c).1

/-! ## 3. The cache -/

def firstCached (log : List Request) (seqno teid : UInt32) : Option Request :=
  log.find? fun r => r.seqno = seqno ∧ r.teid = teid

/-- The last request with these that was sent on to a PGW. -/
def mostRecent (log : List Request) (pair : UInt32 × UInt32) : Option Request :=
  log.reverse.find? fun r => r.forwarded ∧ r.pair = some pair

theorem toNat_sessionKey (seqno teid : UInt32) :
    (sessionKey seqno teid).toNat = seqno.toNat * 2 ^ 32 + teid.toNat := by
  have hseqno : seqno.toNat < 2 ^ 32 := seqno.toNat_lt
  have hshift : seqno.toNat <<< 32 % 2 ^ 64 = seqno.toNat * 2 ^ 32 := by
    rw [Nat.shiftLeft_eq]
    exact Nat.mod_eq_of_lt (by omega)
  have hor := Nat.shiftLeft_add_eq_or_of_lt teid.toNat_lt seqno.toNat
  rw [Nat.shiftLeft_eq] at hor
  show seqno.toNat <<< 32 % 2 ^ 64 ||| teid.toNat = _
  rw [hshift, hor]

theorem sessionKey_inj {seqno teid seqno' teid' : UInt32} :
    sessionKey seqno teid = sessionKey seqno' teid' ↔ seqno = seqno' ∧ teid = teid' := by
  constructor
  · intro h
    have hnat := congrArg UInt64.toNat h
    rw [toNat_sessionKey, toNat_sessionKey] at hnat
    have ht : teid.toNat < 2 ^ 32 := teid.toNat_lt
    have ht' : teid'.toNat < 2 ^ 32 := teid'.toNat_lt
    exact ⟨UInt32.toNat_inj.mp (by omega), UInt32.toNat_inj.mp (by omega)⟩
  · rintro ⟨rfl, rfl⟩
    rfl

/-- **The cache keeps the first request** of every key. -/
def Cached (s : State) : Prop :=
  ∀ seqno teid, (findSessionBySeqnoTeid s seqno teid).map RouteSession.host =
    (firstCached s.log seqno teid).map Request.host

variable {s s' : State}

theorem Cached.of_eq (h : Cached s) (hsession : s'.session = s.session)
    (hlog : s'.log = s.log) : Cached s' := by
  unfold Cached findSessionBySeqnoTeid at *
  rw [hsession, hlog]
  exact h

theorem setSession_apply (session : UInt64 → Option RouteSession) (imsi : Nat) (seqno teid : UInt32)
    (addr : SockAddr) (key : UInt64) :
    setSession session imsi seqno teid addr key =
      (session key).or
        (if key = sessionKey seqno teid then some ⟨imsi, seqno, teid, addr⟩ else none) := by
  unfold setSession
  by_cases hkey : key = sessionKey seqno teid
  · subst hkey
    cases hold : session (sessionKey seqno teid) <;> simp [hold]
  · rw [if_neg hkey, or_none]
    split
    · rw [Function.update_of_ne hkey]
    · rfl

theorem Cached.setSession (h : Cached s) {imsi : Nat} {r : Request}
    (hsession : s'.session = setSession s.session imsi r.seqno r.teid r.host)
    (hlog : s'.log = s.log ++ [r]) : Cached s' := by
  intro seqno teid
  have hold := h seqno teid
  unfold firstCached findSessionBySeqnoTeid at *
  rw [hsession, hlog, find?_append, setSession_apply, map_or, map_or, hold]
  congr 1
  by_cases hkey : seqno = r.seqno ∧ teid = r.teid
  · obtain ⟨rfl, rfl⟩ := hkey
    simp
  · rw [if_neg fun heq => hkey (sessionKey_inj.mp heq)]
    have hother : ¬(r.seqno = seqno ∧ r.teid = teid) := fun heq => hkey ⟨heq.1.symm, heq.2.symm⟩
    simp [hother]

theorem onRecieveExt_cached {c : ExtCall} {sent : List Sent} (h : Cached s)
    (hcall : onRecieveExt s c = some (s', sent)) : Cached s' := by
  unfold onRecieveExt at hcall
  cases hqueue : s.extQueue with
  | nil =>
    simp only [hqueue, some.injEq, Prod.mk.injEq] at hcall
    exact hcall.1 ▸ h
  | cons d queue =>
    simp only [hqueue] at hcall
    cases hreceive : receive 2 c.past c.getsockname d with
    | kept =>
      simp only [hreceive, some.injEq, Prod.mk.injEq] at hcall
      exact hcall.1 ▸ h
    | dropped count =>
      simp only [hreceive, some.injEq, Prod.mk.injEq] at hcall
      exact hcall.1 ▸ h.of_eq rfl rfl
    | packet rbuf datalen =>
      simp only [hreceive] at hcall
      by_cases hsupported : supported gtpcCreateSessionReq rbuf = true
      · rw [if_neg (not_not.mpr hsupported)] at hcall
        by_cases hecho : rbuf.byte 1 = gtpcEchoReq
        · rw [if_pos hecho] at hcall
          obtain ⟨rfl, -⟩ := Prod.mk.inj (some.inj hcall)
          exact h.of_eq rfl rfl
        · rw [if_neg hecho] at hcall
          rcases hparse : parseImsi c.fuel c.mem c.errnoRange rbuf datalen c.parseState with
            _ | _ | ⟨imsi, cs⟩ <;> rw [hparse] at hcall
          · cases hcall
          · obtain ⟨rfl, -⟩ := Prod.mk.inj (some.inj hcall)
            exact h.of_eq rfl rfl
          · dsimp only at hcall
            cases hroute : c.route imsi with
            | none =>
              rw [hroute] at hcall
              obtain ⟨rfl, -⟩ := Prod.mk.inj (some.inj hcall)
              exact h.of_eq rfl rfl
            | some dest =>
              rw [hroute] at hcall
              obtain ⟨rfl, -⟩ := Prod.mk.inj (some.inj hcall)
              exact Cached.setSession h (r := ⟨requestPair c rbuf datalen,
                seqnoOf rbuf, teidGrekey (cs.item .cTeid), d.src, c.sendOk⟩) rfl rfl
      · rw [if_pos hsupported] at hcall
        obtain ⟨rfl, -⟩ := Prod.mk.inj (some.inj hcall)
        exact h.of_eq rfl rfl

theorem onRecieveInt_cached {s : State} (c : IntCall) (h : Cached s) :
    Cached (onRecieveInt s c).1 := by
  unfold onRecieveInt
  repeat' split
  all_goals exact h.of_eq rfl rfl

theorem run_cached {events : List Event} {s : State} (hrun : events.foldlM step init = some s) :
    Cached s := by
  refine foldlM_invariant (fun s e s' hs hstep => ?_) (fun _ _ => rfl) hrun
  cases e with
  | arriveExt d => exact some.inj hstep ▸ hs.of_eq rfl rfl
  | arriveInt d => exact some.inj hstep ▸ hs.of_eq rfl rfl
  | recieveExt c =>
    obtain ⟨⟨s'', sent⟩, hcall, rfl⟩ := map_eq_some_iff.mp hstep
    exact onRecieveExt_cached hs hcall
  | recieveInt c => exact some.inj hstep ▸ onRecieveInt_cached c hs

/-! ## 4. Responses -/

/-- A response with a sequence number and a TEID: a Create Session Response, or a PDP context
response of version 1 with the sequence number flag. -/
structure IsResponse (rbuf : Source) : Prop where
  whole : 12 ≤ rbuf.bytes.length
  kind : (flagsVersion (rbuf.byte 0) = 2 ∧ rbuf.byte 1 = gtpcCreateSessionRes ∧
      rbuf.bytes.length = 4 + lengthOf rbuf) ∨
    (flagsVersion (rbuf.byte 0) = 1 ∧ rbuf.byte 1 ∈ [17, 19, (21 : UInt8)] ∧
      rbuf.byte 0 &&& 0x02 ≠ 0 ∧ rbuf.bytes.length = 8 + lengthOf rbuf)

/-- Besides, `OnRecieveInt` wants no more than a frame, and no second message in it. -/
def Accepted (rbuf : Source) : Prop :=
  lengthOf rbuf ≤ etherMaxLen ∧ ¬(flagsVersion (rbuf.byte 0) = 2 ∧ flagsPiggy (rbuf.byte 0) ≠ 0)

instance (rbuf : Source) : Decidable (Accepted rbuf) := by
  unfold Accepted
  infer_instance

section

variable {rbuf : Source}

theorem IsResponse.datalen (h : IsResponse rbuf) : datalenOf rbuf = rbuf.bytes.length := by
  unfold datalenOf
  rcases h.kind with ⟨hversion, -, hlength⟩ | ⟨hversion, -, hflag, hlength⟩
  · rw [if_neg (by rw [hversion]; exact fun h => absurd h.1 (by decide)), hlength, Nat.add_zero]
  · have hany : rbuf.byte 0 &&& 0x07 ≠ 0 := by
      intro hnone
      refine hflag ?_
      rw [show (0x02 : UInt8) = 0x07 &&& 0x02 by decide, ← UInt8.and_assoc, hnone, UInt8.zero_and]
    rw [if_pos ⟨hversion, hany⟩]
    omega

theorem IsResponse.supported (h : IsResponse rbuf) :
    supported gtpcCreateSessionRes rbuf = true := by
  unfold Proxy.supported
  rcases h.kind with ⟨hversion, htype, -⟩ | ⟨hversion, htype, -, -⟩
  · simp [hversion, htype]
  · simp only [mem_cons, not_mem_nil, or_false] at htype
    rw [if_neg (by rw [hversion]; decide), if_pos hversion]
    rcases htype with htype | htype | htype <;> rw [htype] <;> decide

theorem IsResponse.not_echo (h : IsResponse rbuf) :
    ¬(flagsVersion (rbuf.byte 0) = 2 ∧ rbuf.byte 1 = gtpcEchoReq) := by
  rintro ⟨hversion, hecho⟩
  rcases h.kind with ⟨-, htype, -⟩ | ⟨hone, -⟩
  · rw [htype] at hecho
    cases hecho
  · rw [hversion] at hone
    cases hone

theorem IsResponse.receive {d : Datagram} {past : Nat → UInt8} (h : IsResponse ⟨d.bytes, past⟩)
    (unnamed : Nat) :
    receive unnamed past true d =
      if Accepted ⟨d.bytes, past⟩ then .packet ⟨d.bytes, past⟩ d.bytes.length else .kept := by
  have hwhole : 12 ≤ d.bytes.length := h.whole
  have hdatalen : datalenOf ⟨d.bytes, past⟩ = d.bytes.length := h.datalen
  have hlength : 4 ≤ lengthOf ⟨d.bytes, past⟩ := by
    rcases h.kind with ⟨-, -, hlen⟩ | ⟨-, -, -, hlen⟩
    · have : d.bytes.length = 4 + lengthOf ⟨d.bytes, past⟩ := hlen
      omega
    · have : d.bytes.length = 8 + lengthOf ⟨d.bytes, past⟩ := hlen
      omega
  have hknown : (decide (flagsVersion ((⟨d.bytes, past⟩ : Source).byte 0) = 1) ||
      gtpcTypeIssupported ((⟨d.bytes, past⟩ : Source).byte 1)) = true := by
    rcases h.kind with ⟨-, htype, -⟩ | ⟨hversion, -⟩
    · rw [htype, show gtpcTypeIssupported gtpcCreateSessionRes = true by decide, Bool.or_true]
    · rw [decide_eq_true hversion, Bool.true_or]
  have haccepted : Accepted ⟨d.bytes, past⟩ ↔ lengthOf ⟨d.bytes, past⟩ ≤ etherMaxLen ∧
      (gtpcValidateHeader ⟨d.bytes, past⟩).val = true := by
    refine and_congr_right' ?_
    rw [gtpcValidateHeader_val, hknown, decide_eq_true (show 4 ≤ be16 _ _ from hlength)]
    simp [imp_iff_not_or]
  unfold Proxy.receive
  dsimp only
  rw [if_neg (by omega), hdatalen]
  by_cases hmax : lengthOf ⟨d.bytes, past⟩ ≤ etherMaxLen
  · rw [if_neg (by omega)]
    by_cases hok : (gtpcValidateHeader ⟨d.bytes, past⟩).val = true
    · rw [if_neg (not_not.mpr hok), if_neg (Nat.lt_irrefl _), if_neg (by simp),
        if_pos (haccepted.mpr ⟨hmax, hok⟩), take_length]
    · rw [if_pos hok, if_neg fun hc => hok (haccepted.mp hc).2]
  · rw [if_pos (Or.inr (Nat.not_le.mp hmax)), if_neg fun hc => hmax (haccepted.mp hc).1]

end

/-- The SGW whose request with its sequence number and TEID was sent on last gets a response. -/
def toRequester (log : List Request) (rbuf : Source) : List Sent :=
  (mostRecent log (sequenceNumber rbuf, teidOf rbuf)).toList.map fun r =>
    ⟨.ext, r.host, rbuf.bytes⟩

/-- **A response and the SGW that has asked.** `OnRecieveInt` sends a response to where the last
request with its sequence number and TEID came from exactly when it accepts the response and the
first request cached under its key came from there too. -/
theorem response_to_requester_iff (events : List Event) (s : State)
    (hrun : events.foldlM step init = some s) (d : Datagram) (queue : List Datagram)
    (hqueue : s.intQueue = d :: queue) (past : Nat → UInt8) (hresponse : IsResponse ⟨d.bytes, past⟩)
    (hrequest : (mostRecent s.log
      (sequenceNumber ⟨d.bytes, past⟩, teidOf ⟨d.bytes, past⟩)).isSome = true) :
    (onRecieveInt s ⟨past, true, true⟩).2 = toRequester s.log ⟨d.bytes, past⟩ ↔
      Accepted ⟨d.bytes, past⟩ ∧
        (firstCached s.log (seqnoWord ⟨d.bytes, past⟩) (teidOf ⟨d.bytes, past⟩)).map Request.host =
          (mostRecent s.log
            (sequenceNumber ⟨d.bytes, past⟩, teidOf ⟨d.bytes, past⟩)).map Request.host := by
  have hcached := run_cached hrun (seqnoWord ⟨d.bytes, past⟩) (teidOf ⟨d.bytes, past⟩)
  obtain ⟨request, hrequest⟩ := isSome_iff_exists.mp hrequest
  unfold onRecieveInt toRequester
  rw [hqueue, hrequest, ← hcached]
  dsimp only
  rw [hresponse.receive 1]
  by_cases haccepted : Accepted ⟨d.bytes, past⟩
  · rw [if_pos haccepted]
    dsimp only
    rw [if_neg (not_not.mpr hresponse.supported), if_neg hresponse.not_echo]
    cases findSessionBySeqnoTeid s (seqnoWord ⟨d.bytes, past⟩) (teidOf ⟨d.bytes, past⟩) with
    | none => simp
    | some sess => simp [haccepted, sendSock]
  · rw [if_neg haccepted]
    simp [haccepted]

def peer (addr : UInt32) : SockAddr := ⟨2, 2123, addr⟩

def createSession (addr : UInt32) : Datagram where
  bytes := [0x48, 32, 0, 33, 0, 0, 0, 0, 0, 0, 1, 0] ++
    [1, 0, 8, 0, 0x44, 0x10, 0x21, 0x43, 0x65, 0x87, 0x09, 0xf1] ++
    [87, 0, 9, 0, 0x86, 0, 0, 0, 7, 10, 0, 0, 1]
  src := peer addr

def created : Datagram where
  bytes := [0x48, 33, 0, 14, 0, 0, 0, 7, 0, 0, 1, 0] ++ [2, 0, 2, 0, 16, 0]
  src := peer 9

/-- Every system call succeeds and every subscriber has a PGW. -/
def smoothCall : ExtCall where
  past := fun _ => 0
  getsockname := true
  fuel := 0
  mem := ⟨fun _ => 0, fun _ => 0⟩
  errnoRange := false
  parseState := GtpcParseState.zero
  route := fun _ => some (peer 9)
  sendOk := true

def twoRequests (first second : UInt32) : List Event :=
  [.arriveExt (createSession first), .recieveExt smoothCall, .arriveExt (createSession second),
    .recieveExt smoothCall, .arriveInt created]

theorem twoRequests_run : ((twoRequests 1 1).foldlM step init).isSome = true := by
  decide +kernel

theorem one_sgw_answered :
    ∃ s, (twoRequests 1 1).foldlM step init = some s ∧
      (onRecieveInt s ⟨fun _ => 0, true, true⟩).2 =
        toRequester s.log ⟨created.bytes, fun _ => 0⟩ :=
  ⟨_, (some_get twoRequests_run).symm, (response_to_requester_iff (twoRequests 1 1) _
    (some_get twoRequests_run).symm created [] (by decide +kernel) (fun _ => 0)
    ⟨by decide, Or.inl (by decide)⟩ (by decide +kernel)).mpr (by decide +kernel)⟩

/-- **The first SGW gets the second one's response**, under the same sequence number and TEID. -/
theorem first_sgw_answered :
    ((twoRequests 1 2).foldlM step init).map (fun s =>
        ((onRecieveInt s ⟨fun _ => 0, true, true⟩).2,
          toRequester s.log ⟨created.bytes, fun _ => 0⟩)) =
      some ([⟨.ext, peer 1, created.bytes⟩], [⟨.ext, peer 2, created.bytes⟩]) := by
  decide +kernel

end MixiPgw.Ctrl.Proxy
