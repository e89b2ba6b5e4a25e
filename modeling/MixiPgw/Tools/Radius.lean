/-
# The RADIUS server

`mod_radius` answers access and accounting requests from its table of subscribers. The server keeps
an object for each client, with the identifier and the authenticator of the last request: a request
with the same identifier is a duplicate, and the answer is written from the object.
**`radius_answer_iff`** says when an answer matches its request, exactly. All handlers refuse with
Access-Reject, the one for accounting too.
-/
import MixiPgw.Lib.Run
import MixiPgw.Tools.RadiusParse

namespace MixiPgw.Radius

open Bytes CString Lib Option

/-! ## 1. The server and its clients -/

structure SockAddr where
  port : UInt16
  addr : UInt32
deriving DecidableEq

/-- `radius_link_t`, with `stat.type` of its flags. -/
structure RadiusLink where
  key : UInt64
  ipv4 : UInt32
  ipv6 : Vector UInt32 4
  nasipv : UInt32
  type : UInt8

abbrev Md5 := List UInt8 → Vector UInt8 16

open List

/-- A `RadiusClient`. Its constructor does not return for a secret of `RADIUS_SECRET_MAX` bytes or
more. -/
structure Client where
  addr : SockAddr
  seq : UInt8
  auth : List UInt8
  secret : Text
  auth_length : auth.length = 16
  secret_short : secret.length < 64

/-- The `RadiusServer`: the secret, the table of subscribers by key and NAS, and the clients. -/
structure Server where
  radiusSecret : Text
  radiusLink : UInt64 → UInt32 → Option RadiusLink
  radiusIdentifier : UInt64 → Option Client

def makeUll (ssa : SockAddr) : UInt64 :=
  (ssa.port.toUInt64 &&& 0xffffffff) <<< 32 ||| (ssa.addr.toUInt64 &&& 0xffffffff)

structure Response where
  addr : SockAddr
  bytes : List UInt8

/-- An answer is written into `wbf` with the secret behind it, the digest goes over the request's
authenticator, and the first `trgtlen` bytes are sent. -/
def Client.response (cli : Client) (md5 : Md5) (size : Nat) (code : UInt8) (trgtlen : Nat)
    (attrs : List UInt8) : Response :=
  let filled := [code, cli.seq] ++ beBytes 2 trgtlen ++ cli.auth ++ attrs ++ cli.secret
  let wbf := filled ++ replicate (size - filled.length) 0
  let digest := md5 (wbf.take trgtlen ++ (wbf.drop trgtlen).take cli.secret.length)
  ⟨cli.addr, (splice wbf 4 digest.toList).take trgtlen⟩

def Client.responseWithCode (cli : Client) (md5 : Md5) (code : UInt8) : Response :=
  cli.response md5 84 code 20 []

def RadiusLink.hav6 (lnk : RadiusLink) : Bool := lnk.ipv6.toList.any (· ≠ 0)

/-- The `trgtlen` of `ResponseAcceptFrameIp`. -/
def RadiusLink.acceptLength (lnk : RadiusLink) (flag : UInt32) : Nat :=
  if flag = 2 ∧ lnk.hav6 then 20 + 20
  else if flag = 3 ∧ lnk.hav6 then 20 + 20 + 6
  else 20 + 6

/-- A Framed-IPv6-Prefix and a Framed-IP-Address. -/
def RadiusLink.ipv6Attr (lnk : RadiusLink) : List UInt8 :=
  [97, 20, 0, 64] ++ lnk.ipv6.toList.flatMap bytesOf
def RadiusLink.ipv4Attr (lnk : RadiusLink) : List UInt8 := [8, 6] ++ bytesOf lnk.ipv4

def RadiusLink.acceptAttrs (lnk : RadiusLink) (flag : UInt32) : List UInt8 :=
  if flag = 2 ∧ lnk.hav6 then lnk.ipv6Attr
  else if flag = 3 ∧ lnk.hav6 then lnk.ipv6Attr ++ lnk.ipv4Attr
  else lnk.ipv4Attr

def Client.responseAcceptFrameIp (cli : Client) (md5 : Md5) (lnk : RadiusLink) (flag : UInt32) :
    Response :=
  cli.response md5 110 2 (lnk.acceptLength flag) (lnk.acceptAttrs flag)

/-! ## 2. `RecvEvent` -/

namespace Server

def operateTable (inst : Server) (lnk : RadiusLink) : Server :=
  { inst with
    radiusLink := fun key nasipv =>
      if key = lnk.key ∧ nasipv = lnk.nasipv then (if lnk.type = 1 then some lnk else none)
      else inst.radiusLink key nasipv }

def findTable (inst : Server) (ie : IE) : Option RadiusLink :=
  match ie 31, ie 4 with
  | some station, some nas =>
    inst.radiusLink (UInt64.ofNat (strtoulDec (cstr station)))
      (UInt32.ofNat (strtoulDec (cstr nas)))
  | _, _ => none

def setClient (inst : Server) (ssa : SockAddr) (cli : Client) : Server :=
  { inst with
    radiusIdentifier := fun rid =>
      if rid = makeUll ssa then some cli else inst.radiusIdentifier rid }

/-- `ValidateRadius`: the client to answer to, if the packet is to be answered; `none` if the call
never returns or throws. -/
def validateRadius (inst : Server) (ssa : SockAddr) (h : Source) (rlen : Nat) :
    Option (Server × Option Client) :=
  match validLayout h rlen with
  | none => none
  | some false => some (inst, none)
  | some true =>
    match inst.radiusIdentifier (makeUll ssa) with
    | some cli =>
      -- A duplicate.
      if cli.seq = h.byte 1 then some (inst, none)
      else
        let cli' := { cli with
          seq := h.byte 1, auth := h.block 4 16, auth_length := h.length_block 4 16 }
        some (inst.setClient ssa cli', some cli')
    | none =>
      if hsecret : inst.radiusSecret.length < 64 then
        let cli : Client :=
          ⟨ssa, h.byte 1, h.block 4 16, inst.radiusSecret, h.length_block 4 16, hsecret⟩
        some (inst.setClient ssa cli, some cli)
      else none

/-- `RADIUS_VENDOR_VSA_CODE(ntohl(atoi(…)))`, or IPv4 without the attribute. -/
def pdnType (ie : IE) : UInt32 :=
  match ie vendorPdpType with
  | some text => bswap32 (atoi (cstr text)) &&& 0xffff
  | none => 0

def reqAccess (inst : Server) (md5 : Md5) (ie : IE) (cli : Client) : Response :=
  match inst.findTable ie with
  | none => cli.responseWithCode md5 3
  | some lnk => cli.responseAcceptFrameIp md5 lnk (pdnType ie)

def reqAccount (inst : Server) (md5 : Md5) (ie : IE) (cli : Client) : Response :=
  match inst.findTable ie with
  | none => cli.responseWithCode md5 3
  | some _ => cli.responseWithCode md5 5

/-- The answer to a packet that passed `ValidateRadius`; `none` if the parser never returns. -/
def answer (inst : Server) (md5 : Md5) (bf : Source) (cli : Client) : Option (Option Response) :=
  (parsePacketToVector bf).map fun (ok, mpkt) =>
    if ok = false then some (cli.responseWithCode md5 3)
    else if bf.byte 0 = 1 then some (inst.reqAccess md5 mpkt cli)
    else if bf.byte 0 = 4 then some (inst.reqAccount md5 mpkt cli)
    else none

/-- `RecvEvent`; `none` if it never returns. -/
def recvEvent (inst : Server) (md5 : Md5) (ssa : SockAddr) (bf : Source) (bflen : Nat) :
    Option (Server × Option Response) :=
  match inst.validateRadius ssa bf bflen with
  | none => none
  | some (inst', none) => some (inst', none)
  | some (inst', some cli) => (inst'.answer md5 bf cli).map fun response => (inst', response)

/-- What happens to a server: packets and changes of the table. -/
inductive Event
  | packet (ssa : SockAddr) (bf : Source) (bflen : Nat)
  | operate (lnk : RadiusLink)

def step (md5 : Md5) (inst : Server) : Event → Option Server
  | .packet ssa bf bflen => (inst.recvEvent md5 ssa bf bflen).map Prod.fst
  | .operate lnk => some (inst.operateTable lnk)

def start (secret : Text) (table : UInt64 → UInt32 → Option RadiusLink) : Server :=
  ⟨secret, table, fun _ => none⟩

/-! ## 3. What every history keeps -/

theorem toNat_makeUll (ssa : SockAddr) :
    (makeUll ssa).toNat = ssa.port.toNat * 2 ^ 32 + ssa.addr.toNat := by
  have hport := ssa.port.toNat_lt
  have haddr := ssa.addr.toNat_lt
  have hmask : (0xffffffff : UInt64).toNat = 2 ^ 32 - 1 := rfl
  have hshift : (32 : UInt64).toNat % 64 = 32 := rfl
  rw [makeUll, UInt64.toNat_or, UInt64.toNat_shiftLeft, UInt64.toNat_and, UInt64.toNat_and, hmask,
    Nat.and_two_pow_sub_one_eq_mod, Nat.and_two_pow_sub_one_eq_mod, UInt16.toNat_toUInt64,
    UInt32.toNat_toUInt64, hshift, Nat.shiftLeft_eq,
    Nat.mod_eq_of_lt (by omega : ssa.port.toNat < 2 ^ 32),
    Nat.mod_eq_of_lt (by omega : ssa.addr.toNat < 2 ^ 32), Nat.mod_eq_of_lt (by omega),
    Nat.or_comm, or_eq_add _ _ _ haddr, Nat.add_comm]

theorem makeUll_inj {a b : SockAddr} (h : makeUll a = makeUll b) : a = b := by
  have hnat := congrArg UInt64.toNat h
  rw [toNat_makeUll, toNat_makeUll] at hnat
  have ha := a.addr.toNat_lt
  have hb := b.addr.toNat_lt
  cases a with
  | mk port addr =>
    cases b with
    | mk port' addr' =>
      obtain rfl : port = port' := UInt16.toNat_inj.mp (by dsimp only at *; omega)
      obtain rfl : addr = addr' := UInt32.toNat_inj.mp (by dsimp only at *; omega)
      rfl

/-- The clients are those of the server, each under its own address. -/
structure Consistent (secret : Text) (inst : Server) : Prop where
  secret_eq : inst.radiusSecret = secret
  client_secret : ∀ rid cli, inst.radiusIdentifier rid = some cli → cli.secret = secret
  client_addr : ∀ rid cli, inst.radiusIdentifier rid = some cli → makeUll cli.addr = rid

structure Ready (secret : Text) (ssa : SockAddr) (bf : Source) (cli : Client) : Prop where
  addr_eq : cli.addr = ssa
  seq_eq : cli.seq = bf.byte 1
  auth_eq : cli.auth = bf.block 4 16
  secret_eq : cli.secret = secret

section

variable {md5 : Md5} {secret : Text} {inst inst' : Server} {ssa : SockAddr} {bf : Source}
  {bflen : Nat} {cli : Client}

theorem Consistent.start (secret : Text) (table : UInt64 → UInt32 → Option RadiusLink) :
    Consistent secret (start secret table) :=
  ⟨rfl, fun _ _ h => (by cases h), fun _ _ h => (by cases h)⟩

theorem Consistent.setClient (h : Consistent secret inst) (hready : Ready secret ssa bf cli) :
    Consistent secret (inst.setClient ssa cli) := by
  refine ⟨h.secret_eq, fun rid cli' hcli => ?_, fun rid cli' hcli => ?_⟩
  · simp only [Server.setClient] at hcli
    split at hcli
    · cases hcli
      exact hready.secret_eq
    · exact h.client_secret rid cli' hcli
  · simp only [Server.setClient] at hcli
    split at hcli
    · rename_i hrid
      cases hcli
      rw [hready.addr_eq, hrid]
    · exact h.client_addr rid cli' hcli

variable {target : Option Client}

theorem validateRadius_cases (h : Consistent secret inst)
    (hvalid : inst.validateRadius ssa bf bflen = some (inst', target)) :
    (inst' = inst ∧ target = none) ∨
      ∃ cli, target = some cli ∧ inst' = inst.setClient ssa cli ∧ Ready secret ssa bf cli ∧
        validLayout bf bflen = some true := by
  unfold validateRadius at hvalid
  split at hvalid
  · cases hvalid
  · cases hvalid
    exact .inl ⟨rfl, rfl⟩
  · rename_i hlayout
    split at hvalid
    · rename_i cli hcli
      split at hvalid
      · cases hvalid
        exact .inl ⟨rfl, rfl⟩
      · cases hvalid
        exact .inr ⟨_, rfl, rfl, ⟨makeUll_inj (h.client_addr _ cli hcli), rfl, rfl,
          h.client_secret _ cli hcli⟩, hlayout⟩
    · split at hvalid
      · cases hvalid
        exact .inr ⟨_, rfl, rfl, ⟨rfl, rfl, rfl, h.secret_eq⟩, hlayout⟩
      · cases hvalid

theorem Consistent.validateRadius (h : Consistent secret inst)
    (hvalid : inst.validateRadius ssa bf bflen = some (inst', target)) :
    Consistent secret inst' := by
  rcases validateRadius_cases h hvalid with ⟨rfl, -⟩ | ⟨cli, -, rfl, hready, -⟩
  · exact h
  · exact h.setClient hready

theorem validateRadius_of_recvEvent {response : Option Response}
    (h : inst.recvEvent md5 ssa bf bflen = some (inst', response)) :
    inst.validateRadius ssa bf bflen = some (inst', none) ∧ response = none ∨
      ∃ cli, inst.validateRadius ssa bf bflen = some (inst', some cli) ∧
        inst'.answer md5 bf cli = some response := by
  unfold recvEvent at h
  split at h
  · cases h
  · rename_i hvalid
    cases h
    exact .inl ⟨hvalid, rfl⟩
  · rename_i cli hvalid
    obtain ⟨response, hanswer, heq⟩ := map_eq_some_iff.mp h
    cases heq
    exact .inr ⟨cli, hvalid, hanswer⟩

theorem Consistent.step {event : Event} (h : Consistent secret inst)
    (hstep : inst.step md5 event = some inst') : Consistent secret inst' := by
  cases event with
  | packet ssa bf bflen =>
    obtain ⟨⟨inst'', response⟩, hrecv, rfl⟩ := map_eq_some_iff.mp hstep
    rcases validateRadius_of_recvEvent hrecv with ⟨hvalid, -⟩ | ⟨cli, hvalid, -⟩
    · exact h.validateRadius hvalid
    · exact h.validateRadius hvalid
  | operate lnk =>
    cases hstep
    exact ⟨h.secret_eq, h.client_secret, h.client_addr⟩

theorem Consistent.run {history : List Event} {table : UInt64 → UInt32 → Option RadiusLink}
    (hrun : history.foldlM (Server.step md5) (Server.start secret table) = some inst) :
    Consistent secret inst :=
  foldlM_invariant (fun _ _ _ h hstep => h.step hstep) (.start secret table) hrun

end

end Server

/-! ## 4. Answers -/

inductive Tiles : List UInt8 → Prop
  | nil : Tiles []
  | attr (type : UInt8) {value rest : List UInt8} (h : value.length + 2 < 256)
      (hrest : Tiles rest) :
      Tiles (type :: UInt8.ofNat (value.length + 2) :: (value ++ rest))

/-- **The answer to a request**: from the server with the secret to the client at `ssa`. -/
structure Answers (md5 : Md5) (secret : Text) (ssa : SockAddr) (bf : Source) (r : Response) :
    Prop where
  addr : r.addr = ssa
  identifier : r.bytes.getD 1 0 = bf.byte 1
  length : ofBe (slice r.bytes 2 2) = r.bytes.length
  authenticator : slice r.bytes 4 16 =
    (md5 (r.bytes.take 4 ++ bf.block 4 16 ++ r.bytes.drop 20 ++ secret)).toList
  tiles : Tiles (r.bytes.drop 20)
  access : bf.byte 0 = 1 → r.bytes.getD 0 0 = 2 ∨ r.bytes.getD 0 0 = 3
  accounting : bf.byte 0 = 4 → r.bytes.getD 0 0 = 5

variable (lnk : RadiusLink)

theorem RadiusLink.length_ipv6 : (lnk.ipv6.toList.flatMap bytesOf).length = 16 := by
  simp [bytesOf]

theorem RadiusLink.tiles_ipv4Attr : Tiles lnk.ipv4Attr :=
  @Tiles.attr 8 (bytesOf lnk.ipv4) [] (by simp [bytesOf]) .nil

theorem RadiusLink.tiles_ipv6Attr {rest : List UInt8} (h : Tiles rest) :
    Tiles (lnk.ipv6Attr ++ rest) := by
  have hlen : ([0, 64] ++ lnk.ipv6.toList.flatMap bytesOf).length = 18 := by
    rw [length_append, lnk.length_ipv6]
    rfl
  have htiles := Tiles.attr 97 (by rw [hlen]; decide) h
  rw [hlen] at htiles
  exact htiles

theorem RadiusLink.acceptLength_eq (flag : UInt32) :
    lnk.acceptLength flag = 20 + (lnk.acceptAttrs flag).length ∧
      (lnk.acceptAttrs flag).length ≤ 26 ∧ Tiles (lnk.acceptAttrs flag) := by
  have h6 : lnk.ipv6Attr.length = 20 := by
    rw [ipv6Attr, length_append, lnk.length_ipv6]
    rfl
  have h4 : lnk.ipv4Attr.length = 6 := rfl
  unfold acceptLength acceptAttrs
  split
  · exact ⟨by omega, by omega, by simpa using lnk.tiles_ipv6Attr .nil⟩
  · split
    · rw [length_append]
      exact ⟨by omega, by omega, lnk.tiles_ipv6Attr lnk.tiles_ipv4Attr⟩
    · exact ⟨by omega, by omega, lnk.tiles_ipv4Attr⟩

theorem Client.response_eq (cli : Client) (md5 : Md5) (size : Nat) (code : UInt8)
    (attrs : List UInt8) :
    (cli.response md5 size code (20 + attrs.length) attrs).bytes =
      ([code, cli.seq] ++ beBytes 2 (20 + attrs.length)) ++
        ((md5 ([code, cli.seq] ++ beBytes 2 (20 + attrs.length) ++ cli.auth ++ attrs ++
          cli.secret)).toList ++ attrs) := by
  have hhead : ([code, cli.seq] ++ beBytes 2 (20 + attrs.length)).length = 4 := by
    rfl
  simp only [response]
  generalize [code, cli.seq] ++ beBytes 2 (20 + attrs.length) = head at hhead ⊢
  generalize replicate _ (0 : UInt8) = zeros
  -- The buffer up to `trgtlen`, and the secret behind it.
  have hfront : (head ++ cli.auth ++ attrs).length = 20 + attrs.length := by
    rw [length_append, length_append, hhead, cli.auth_length]
  have hsplit : head ++ cli.auth ++ attrs ++ cli.secret ++ zeros =
      (head ++ cli.auth ++ attrs) ++ (cli.secret ++ zeros) := append_assoc _ _ _
  have hdigested : (head ++ cli.auth ++ attrs ++ cli.secret ++ zeros).take (20 + attrs.length) ++
      ((head ++ cli.auth ++ attrs ++ cli.secret ++ zeros).drop (20 + attrs.length)).take
        cli.secret.length = head ++ cli.auth ++ attrs ++ cli.secret := by
    rw [hsplit, take_left' hfront, drop_left' hfront, take_left]
  rw [hdigested]
  generalize md5 _ = digest
  have hdigest : digest.toList.length = 16 := digest.length_toList
  rw [hsplit, append_assoc head, append_assoc head, append_assoc cli.auth,
    splice_append hhead (cli.auth_length.trans hdigest.symm), ← append_assoc digest.toList,
    ← append_assoc head]
  exact take_left' (by rw [length_append, length_append, hhead, hdigest]; omega)

namespace Server

variable {md5 : Md5} {secret : Text} {inst inst' : Server} {ssa : SockAddr} {bf : Source}
  {bflen : Nat} {cli : Client}

/-- The subscriber of the packet is in the table. -/
def Knows (inst : Server) (bf : Source) : Prop :=
  ∃ ie lnk, parsePacketToVector bf = some (true, ie) ∧ inst.findTable ie = some lnk

theorem reqAccess_cases (inst : Server) (md5 : Md5) (ie : IE) (cli : Client) :
    ∃ size code attrs,
      inst.reqAccess md5 ie cli = cli.response md5 size code (20 + attrs.length) attrs ∧
      attrs.length ≤ 26 ∧ Tiles attrs ∧ (code = 2 ∨ code = 3) := by
  unfold reqAccess
  split
  · exact ⟨84, 3, [], rfl, Nat.zero_le _, .nil, .inr rfl⟩
  · rename_i lnk hfind
    obtain ⟨hlen, hshort, htiles⟩ := lnk.acceptLength_eq (pdnType ie)
    refine ⟨110, 2, lnk.acceptAttrs (pdnType ie), ?_, hshort, htiles, .inl rfl⟩
    rw [Client.responseAcceptFrameIp, hlen]

theorem knows_iff {ok : Bool} {ie : IE} (hparse : parsePacketToVector bf = some (ok, ie)) :
    inst.Knows bf ↔ ok = true ∧ (inst.findTable ie).isSome := by
  constructor
  · rintro ⟨ie', lnk, hparse', hfind⟩
    obtain ⟨rfl, rfl⟩ := Prod.mk.inj (some.inj (hparse.symm.trans hparse'))
    exact ⟨rfl, isSome_iff_exists.mpr ⟨lnk, hfind⟩⟩
  · rintro ⟨rfl, hsome⟩
    obtain ⟨lnk, hfind⟩ := isSome_iff_exists.mp hsome
    exact ⟨ie, lnk, hparse, hfind⟩

theorem answer_cases {r : Response} (hcode : bf.byte 0 = 1 ∨ bf.byte 0 = 4)
    (h : inst.answer md5 bf cli = some (some r)) :
    ∃ size code attrs, r = cli.response md5 size code (20 + attrs.length) attrs ∧
      attrs.length ≤ 26 ∧ Tiles attrs ∧
      (bf.byte 0 = 1 ∧ (code = 2 ∨ code = 3) ∨
        bf.byte 0 = 4 ∧ (inst.Knows bf ∧ code = 5 ∨ ¬ inst.Knows bf ∧ code = 3)) := by
  obtain ⟨⟨ok, ie⟩, hparse, heq⟩ := map_eq_some_iff.mp h
  have hknows := @knows_iff inst bf ok ie hparse
  dsimp only at heq
  split at heq
  · rename_i hok
    cases heq
    refine ⟨84, 3, [], rfl, Nat.zero_le _, .nil, ?_⟩
    rcases hcode with h1 | h4
    · exact .inl ⟨h1, .inr rfl⟩
    · exact .inr ⟨h4, .inr ⟨by simp [hknows, hok], rfl⟩⟩
  · rename_i hok
    split at heq
    · rename_i h1
      cases heq
      obtain ⟨size, code, attrs, hr, hshort, htiles, haccess⟩ := inst.reqAccess_cases md5 ie cli
      exact ⟨size, code, attrs, hr, hshort, htiles, .inl ⟨h1, haccess⟩⟩
    · split at heq
      · rename_i h4
        cases heq
        unfold reqAccount
        split
        · rename_i hfind
          exact ⟨84, 3, [], rfl, Nat.zero_le _, .nil,
            .inr ⟨h4, .inr ⟨by simp [hknows, hfind], rfl⟩⟩⟩
        · rename_i lnk hfind
          exact ⟨84, 5, [], rfl, Nat.zero_le _, .nil,
            .inr ⟨h4, .inl ⟨by simp [hknows, hok, hfind], rfl⟩⟩⟩
      · cases heq

theorem exists_answer (inst : Server) (md5 : Md5) (ssa : SockAddr)
    (hlayout : validLayout bf bflen = some true) (hsecret : inst.radiusSecret.length < 64)
    (hnew : ∀ cli, inst.radiusIdentifier (makeUll ssa) = some cli → cli.seq ≠ bf.byte 1) :
    ∃ inst' r, inst.recvEvent md5 ssa bf bflen = some (inst', some r) := by
  obtain ⟨inst', cli, hvalid⟩ : ∃ inst' cli,
      inst.validateRadius ssa bf bflen = some (inst', some cli) := by
    rw [validateRadius, hlayout]
    dsimp only
    split
    · rename_i cli hcli
      exact ⟨_, _, if_neg (hnew cli hcli)⟩
    · exact ⟨_, _, dif_pos hsecret⟩
  obtain ⟨ok, ie, hparse⟩ := parse_of_validLayout hlayout
  obtain ⟨r, hanswer⟩ : ∃ r, inst'.answer md5 bf cli = some (some r) := by
    rw [answer, hparse, map_some]
    dsimp only
    split
    · exact ⟨_, rfl⟩
    · rcases code_of_validLayout hlayout with h1 | h4
      · exact ⟨_, congrArg some (if_pos h1)⟩
      · have hnot1 : bf.byte 0 ≠ 1 := by rw [h4]; decide
        exact ⟨_, congrArg some ((if_neg hnot1).trans (if_pos h4))⟩
  exact ⟨inst', r, by rw [recvEvent, hvalid]; dsimp only; rw [hanswer, map_some]⟩

theorem Ready.answers_iff (hready : Ready secret ssa bf cli) {size : Nat} {code : UInt8}
    {attrs : List UInt8} (hshort : attrs.length ≤ 26) (htiles : Tiles attrs) :
    Answers md5 secret ssa bf (cli.response md5 size code (20 + attrs.length) attrs) ↔
      (bf.byte 0 = 1 → code = 2 ∨ code = 3) ∧ (bf.byte 0 = 4 → code = 5) := by
  have hbytes := cli.response_eq md5 size code attrs
  have haddr : (cli.response md5 size code (20 + attrs.length) attrs).addr = cli.addr := rfl
  generalize cli.response md5 size code (20 + attrs.length) attrs = r at hbytes haddr ⊢
  rw [hready.seq_eq, hready.auth_eq, hready.secret_eq] at hbytes
  rw [hready.addr_eq] at haddr
  have hhead : ([code, bf.byte 1] ++ beBytes 2 (20 + attrs.length)).length = 4 := by
    rw [length_append, length_beBytes]
    rfl
  have hcode : r.bytes.getD 0 0 = code := by rw [hbytes]; rfl
  constructor
  · intro h
    rw [← hcode]
    exact ⟨h.access, h.accounting⟩
  · rintro ⟨haccess, haccounting⟩
    rw [← hcode] at haccess haccounting
    generalize hdigest : md5 _ = digest at hbytes
    have h16 : digest.toList.length = 16 := digest.length_toList
    have hbody : r.bytes.drop 4 = digest.toList ++ attrs := by rw [hbytes, drop_left' hhead]
    have hattrs : r.bytes.drop 20 = attrs := by
      rw [show 20 = 4 + 16 from rfl, ← drop_drop, hbody, drop_left' h16]
    refine ⟨haddr, ?_, ?_, ?_, ?_, haccess, haccounting⟩
    · rw [hbytes]
      rfl
    · have hfield : slice r.bytes 2 2 = beBytes 2 (20 + attrs.length) := by
        rw [hbytes, slice, append_assoc]
        exact take_left' (length_beBytes _ _)
      rw [hfield, ofBe_beBytes_of_lt (by omega), hbytes, length_append, hhead, length_append, h16]
      omega
    · have htake : r.bytes.take 4 = [code, bf.byte 1] ++ beBytes 2 (20 + attrs.length) := by
        rw [hbytes, take_left' hhead]
      rw [slice, hbody, take_left' h16, htake, hattrs, hdigest]
    · rw [hattrs]
      exact htiles

end Server

/-- **An answer matches its request, whatever came before, exactly if** the request is not an
accounting request of an unknown subscriber. -/
theorem radius_answer_iff (md5 : Md5) (secret : Text) (table : UInt64 → UInt32 → Option RadiusLink)
    (history : List Server.Event) (inst inst' : Server) (ssa : SockAddr) (bf : Source) (bflen : Nat)
    (r : Response) (hrun : history.foldlM (Server.step md5) (Server.start secret table) = some inst)
    (hrecv : inst.recvEvent md5 ssa bf bflen = some (inst', some r)) :
    Answers md5 secret ssa bf r ↔ (bf.byte 0 = 4 → inst.Knows bf) := by
  have hconsistent := Server.Consistent.run hrun
  rcases Server.validateRadius_of_recvEvent hrecv with ⟨-, hnone⟩ | ⟨cli, hvalid, hanswer⟩
  · cases hnone
  · rcases Server.validateRadius_cases hconsistent hvalid with
      ⟨-, hnone⟩ | ⟨cli', hsome, rfl, hready, hlayout⟩
    · cases hnone
    · obtain rfl := some.inj hsome
      obtain ⟨size, code, attrs, rfl, hshort, htiles, hcode⟩ :=
        Server.answer_cases (code_of_validLayout hlayout) hanswer
      rw [hready.answers_iff hshort htiles]
      rcases hcode with ⟨h1, hcode⟩ | ⟨h4, ⟨hknows, rfl⟩ | ⟨hno, rfl⟩⟩
      · have hnot4 : bf.byte 0 ≠ 4 := by rw [h1]; decide
        exact ⟨fun _ h4 => absurd h4 hnot4, fun _ => ⟨fun _ => hcode, fun h4 => absurd h4 hnot4⟩⟩
      · have hnot1 : bf.byte 0 ≠ 1 := by rw [h4]; decide
        exact ⟨fun _ _ => hknows, fun _ => ⟨fun h1 => absurd h1 hnot1, fun _ => rfl⟩⟩
      · exact ⟨fun h => absurd (h.2 h4) (by decide), fun h => absurd (h h4) hno⟩

/-- An accounting request of the subscriber 440 behind the NAS 10.0.0.1. -/
def accountingRequest : Source :=
  ⟨[4, 7, 0, 31] ++ replicate 16 0xaa ++ [31, 5, 52, 52, 48] ++ [4, 6, 10, 0, 0, 1], fun _ => 0⟩

def sampleMd5 : Md5 := fun _ => Vector.replicate 16 0

theorem accountingRequest_layout : validLayout accountingRequest 31 = some true := by
  decide +kernel

/-- The request of another client is refused, and then its subscriber is entered. -/
def enteredLate : List Server.Event :=
  [.packet ⟨1812, 2⟩ accountingRequest 31, .operate ⟨440, 1, Vector.replicate 4 0, 0x0100000a, 1⟩]

theorem radius_answer_known : ∃ inst inst' r,
    enteredLate.foldlM (Server.step sampleMd5) (.start [115] fun _ _ => none) = some inst ∧
      inst.recvEvent sampleMd5 ⟨1812, 1⟩ accountingRequest 31 = some (inst', some r) ∧
      Answers sampleMd5 [115] ⟨1812, 1⟩ accountingRequest r := by
  have hstate : (enteredLate.foldlM (Server.step sampleMd5) (.start [115] fun _ _ => none)).map
      (fun inst => (inst.radiusSecret.length, (inst.radiusIdentifier (makeUll ⟨1812, 1⟩)).isNone,
        (parsePacketToVector accountingRequest).map fun p =>
          (p.1, (inst.findTable p.2).isSome))) = some (1, true, some (true, true)) := by
    decide +kernel
  obtain ⟨inst, hrun, heq⟩ := map_eq_some_iff.mp hstate
  simp only [Prod.mk.injEq, isNone_iff_eq_none, map_eq_some_iff] at heq
  obtain ⟨hsecret, hnew, ⟨ok, ie⟩, hparse, rfl, hfound⟩ := heq
  obtain ⟨lnk, hlnk⟩ := isSome_iff_exists.mp hfound
  obtain ⟨inst', r, hrecv⟩ := inst.exists_answer sampleMd5 ⟨1812, 1⟩ accountingRequest_layout
    (by omega) (fun cli h => by rw [hnew] at h; cases h)
  exact ⟨inst, inst', r, hrun, hrecv, (radius_answer_iff sampleMd5 [115] _ enteredLate inst inst' _
    _ _ r hrun hrecv).mpr fun _ => ⟨ie, lnk, hparse, hlnk⟩⟩

/-- The same request with nobody in the table: an Access-Reject. -/
theorem accounting_of_unknown_is_rejected :
    accountingRequest.byte 0 = 4 ∧
      ((Server.start [115] fun _ _ => none).recvEvent sampleMd5 ⟨1812, 1⟩ accountingRequest 31).map
        (fun p => p.2.map fun r => r.bytes.getD 0 0) = some (some 3) := by
  decide +kernel

end MixiPgw.Radius
