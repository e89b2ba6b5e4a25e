/-
# The statistics of the proxy

`Routes::StatAdd` and `Routes::StatReject` book the traffic of an address and a group, and
`Routes::StatCount` sums it up for an address and a group, for an address, or in total. A booking
uses the plain address as the key of the `std::map`; the query takes the address from the upper half
of the 64-bit key and the group from the 16 bits below. **`stats_addUp_iff`**: the sums are right
EXACTLY as long as every booking that counts is for address 0 and group 0, and the reject counter,
which looks at the bytes accumulated so far instead of its argument, is not misled.
-/
import MixiPgw.Lib.KeyedList
import MixiPgw.Lib.Run
import Mathlib.Data.UInt

namespace MixiPgw.Ctrl.Proxy

open Lib List

/-! ## 1. The functions -/

inductive PStatCount
  | dc
  | pid
  | uptime
  | time
  | version
  | bytesRequest
  | bytesResponse
  | countRequest
  | countResponse
  | countDelay
  | rejectedRequest
  | rejectedResponse
  | countSession
deriving DecidableEq, Repr

/-- `ProxyStat`, without the fields no count reads. -/
structure ProxyStat where
  reqBytes : UInt64
  reqCnt : UInt64
  resBytes : UInt64
  resCnt : UInt64
  delay : UInt64
  reqRejectBytes : UInt64
  resRejectBytes : UInt64
  reqRejectCnt : UInt64
  resRejectCnt : UInt64
deriving DecidableEq, Repr

def ProxyStat.new (reqCnt resCnt delay reqBytes resBytes : UInt64) : ProxyStat :=
  ⟨reqBytes, reqCnt, resBytes, resCnt, delay, 0, 0, 0, 0⟩

def ProxyStat.add (i : ProxyStat) (reqBytes resBytes delay : UInt64) : ProxyStat :=
  { i with
    reqBytes := i.reqBytes + reqBytes
    resBytes := i.resBytes + resBytes
    reqCnt := if reqBytes ≠ 0 then i.reqCnt + 1 else i.reqCnt
    resCnt := if resBytes ≠ 0 then i.resCnt + 1 else i.resCnt
    delay := i.delay + delay }

/-- `ProxyStat::Reject`, which looks at the MEMBER `res_reject_bytes_`, not at the argument. -/
def ProxyStat.reject (i : ProxyStat) (reqRejectBytes resRejectBytes : UInt64) : ProxyStat :=
  { i with
    reqRejectBytes := i.reqRejectBytes + reqRejectBytes
    reqRejectCnt := if reqRejectBytes ≠ 0 then i.reqRejectCnt + 1 else i.reqRejectCnt
    resRejectBytes := i.resRejectBytes + resRejectBytes
    resRejectCnt :=
      if i.resRejectBytes + resRejectBytes ≠ 0 then i.resRejectCnt + 1 else i.resRejectCnt }

abbrev ProxyStats := List (UInt64 × ProxyStat)

/-- `stats_.find(ip)`: the key is the address, widened. -/
def hasKey (ip : UInt32) (it : UInt64 × ProxyStat) : Bool := it.1 = ip.toUInt64

/-- `Routes::StatAdd`. Nothing reads the group in a new record. -/
def statAdd (stats : ProxyStats) (ip : UInt32) (_group : UInt16)
    (reqBytes resBytes delay : UInt64) : ProxyStats :=
  match modifyFirst (hasKey ip) (fun it => (it.1, it.2.add reqBytes resBytes delay)) stats with
  | some stats => stats
  | none =>
    stats ++ [(ip.toUInt64, .new (if reqBytes ≠ 0 then 1 else 0) (if resBytes ≠ 0 then 1 else 0)
      delay reqBytes resBytes)]

def statReject (stats : ProxyStats) (ip : UInt32) (_group : UInt16)
    (reqRejectBytes resRejectBytes : UInt64) : ProxyStats :=
  match modifyFirst (hasKey ip)
    (fun it => (it.1, it.2.reject reqRejectBytes resRejectBytes)) stats with
  | some stats => stats
  | none =>
    stats ++ [(ip.toUInt64, (ProxyStat.new 0 0 0 0 0).reject reqRejectBytes resRejectBytes)]

/-- The process and its session cache, as far as the query reports them. -/
structure StatEnv where
  pid : UInt64
  uptime : UInt64
  time : UInt64
  sessions : Nat

/-- `ADDCOUNT`: what a record adds to a count. -/
def ProxyStat.addCount (i : ProxyStat) (env : StatEnv) : PStatCount → UInt64
  | .bytesRequest => i.reqBytes
  | .bytesResponse => i.resBytes
  | .countRequest => i.reqCnt
  | .countResponse => i.resCnt
  | .countDelay => i.delay
  | .rejectedRequest => i.reqRejectCnt
  | .rejectedResponse => i.resRejectCnt
  | .countSession => UInt64.ofNat env.sessions
  | _ => 0

def allAddresses : UInt32 := 0xffffffff

def allGroups : UInt16 := 0xffff

def selects (ip : UInt32) (group : UInt16) (kIp : UInt32) (kGroup : UInt16) : Bool :=
  if ip ≠ allAddresses ∧ group ≠ allGroups then ip = kIp ∧ group = kGroup
  else if ip ≠ allAddresses ∧ group = allGroups then ip = kIp
  else true

def kIp (key : UInt64) : UInt32 := (key >>> 32 &&& 0xffffffff).toUInt32

def kGroup (key : UInt64) : UInt16 := (key >>> 16 &&& 0xffff).toUInt16

def statCount (env : StatEnv) (stats : ProxyStats) (e : PStatCount) (ip : UInt32)
    (group : UInt16) : UInt64 :=
  match e with
  | .pid => env.pid
  | .uptime => env.uptime
  | .time => env.time
  | .version => 1000000
  | e =>
    stats.foldl (fun count it =>
      if selects ip group (kIp it.1) (kGroup it.1) then count + it.2.addCount env e else count) 0

/-! ## 2. One booking -/

inductive StatCall
  | add (ip : UInt32) (group : UInt16) (reqBytes resBytes delay : UInt64)
  | reject (ip : UInt32) (group : UInt16) (reqRejectBytes resRejectBytes : UInt64)
deriving DecidableEq, Repr

def StatCall.ip : StatCall → UInt32
  | .add ip _ _ _ _ | .reject ip _ _ _ => ip

def StatCall.group : StatCall → UInt16
  | .add _ group _ _ _ | .reject _ group _ _ => group

def ProxyStats.call (stats : ProxyStats) : StatCall → ProxyStats
  | .add ip group reqBytes resBytes delay => statAdd stats ip group reqBytes resBytes delay
  | .reject ip group reqRejectBytes resRejectBytes =>
    statReject stats ip group reqRejectBytes resRejectBytes

def PStatCount.booked : PStatCount → Bool
  | .bytesRequest | .bytesResponse | .countRequest | .countResponse | .rejectedRequest
  | .rejectedResponse => true
  | _ => false

theorem PStatCount.booked_cases {e : PStatCount} (he : e.booked = true) :
    e = .bytesRequest ∨ e = .bytesResponse ∨ e = .countRequest ∨ e = .countResponse ∨
      e = .rejectedRequest ∨ e = .rejectedResponse := by
  revert he
  cases e <;> decide

def nonzero (v : UInt64) : UInt64 := if v ≠ 0 then 1 else 0

/-- What a booking is to add to a count. -/
def StatCall.adds (c : StatCall) (e : PStatCount) : UInt64 :=
  match e, c with
  | .bytesRequest, .add _ _ reqBytes _ _ => reqBytes
  | .bytesResponse, .add _ _ _ resBytes _ => resBytes
  | .countRequest, .add _ _ reqBytes _ _ => nonzero reqBytes
  | .countResponse, .add _ _ _ resBytes _ => nonzero resBytes
  | .rejectedRequest, .reject _ _ reqRejectBytes _ => nonzero reqRejectBytes
  | .rejectedResponse, .reject _ _ _ resRejectBytes => nonzero resRejectBytes
  | _, _ => 0

def ProxyStats.record (stats : ProxyStats) (ip : UInt32) : ProxyStat :=
  ((stats.find? (hasKey ip)).map Prod.snd).getD (.new 0 0 0 0 0)

def StatCall.moves (c : StatCall) (i : ProxyStat) (e : PStatCount) : UInt64 :=
  match e, c with
  | .rejectedResponse, .reject _ _ _ resRejectBytes => nonzero (i.resRejectBytes + resRejectBytes)
  | e, c => c.adds e

section

variable {env : StatEnv} {stats : ProxyStats} {e : PStatCount}

def StatCall.book (c : StatCall) (i : ProxyStat) : ProxyStat :=
  match c with
  | .add _ _ reqBytes resBytes delay => i.add reqBytes resBytes delay
  | .reject _ _ reqRejectBytes resRejectBytes => i.reject reqRejectBytes resRejectBytes

theorem call_eq (stats : ProxyStats) (c : StatCall) :
    stats.call c =
      (modifyFirst (hasKey c.ip) (fun it => (it.1, c.book it.2)) stats).getD
        (stats ++ [(c.ip.toUInt64, c.book (.new 0 0 0 0 0))]) := by
  cases c with
  | add ip group reqBytes resBytes delay =>
    have hnew : (ProxyStat.new 0 0 0 0 0).add reqBytes resBytes delay =
        .new (if reqBytes ≠ 0 then 1 else 0) (if resBytes ≠ 0 then 1 else 0) delay reqBytes
          resBytes := by
      simp [ProxyStat.add, ProxyStat.new]
    simp only [ProxyStats.call, statAdd, StatCall.book, StatCall.ip, hnew]
    split <;> rename_i h <;> rw [h] <;> rfl
  | reject ip group reqRejectBytes resRejectBytes =>
    simp only [ProxyStats.call, statReject, StatCall.book, StatCall.ip]
    split <;> rename_i h <;> rw [h] <;> rfl

theorem ite_add_one (v w : UInt64) : (if v ≠ 0 then w + 1 else w) = w + nonzero v := by
  unfold nonzero
  split
  · rfl
  · exact (add_zero w).symm

theorem addCount_book (c : StatCall) (i : ProxyStat) (he : e.booked = true) :
    (c.book i).addCount env e = i.addCount env e + c.moves i e := by
  cases c <;> rcases PStatCount.booked_cases he with rfl | rfl | rfl | rfl | rfl | rfl <;>
    simp only [StatCall.book, ProxyStat.add, ProxyStat.reject, ProxyStat.addCount,
      StatCall.moves, StatCall.adds, ite_add_one, add_zero]

theorem addCount_new (he : e.booked = true) : (ProxyStat.new 0 0 0 0 0).addCount env e = 0 := by
  rcases PStatCount.booked_cases he with rfl | rfl | rfl | rfl | rfl | rfl <;> rfl

theorem statCount_eq_sum (he : e.booked = true) (ip : UInt32) (group : UInt16) :
    statCount env stats e ip group =
      (stats.map fun it =>
        if selects ip group (kIp it.1) (kGroup it.1) then it.2.addCount env e else 0).sum := by
  have hfold : ∀ (l : ProxyStats) (count : UInt64),
      l.foldl (fun count it =>
          if selects ip group (kIp it.1) (kGroup it.1) then count + it.2.addCount env e
          else count) count =
        count + (l.map fun it =>
          if selects ip group (kIp it.1) (kGroup it.1) then it.2.addCount env e else 0).sum := by
    intro l
    induction l with
    | nil => exact fun count => (add_zero count).symm
    | cons it l ih =>
      intro count
      rw [foldl_cons, ih, map_cons, sum_cons]
      split
      · exact add_assoc _ _ _
      · rw [zero_add]
  have hcount := hfold stats 0
  rw [zero_add] at hcount
  rw [← hcount]
  rcases PStatCount.booked_cases he with rfl | rfl | rfl | rfl | rfl | rfl <;> rfl

/-- What a booking adds to a query that selects the record's KEY. -/
theorem statCount_call (he : e.booked = true) (c : StatCall) (ip : UInt32) (group : UInt16) :
    statCount env (stats.call c) e ip group =
      statCount env stats e ip group +
        if selects ip group (kIp c.ip.toUInt64) (kGroup c.ip.toUInt64) then
          c.moves (stats.record c.ip) e
        else 0 := by
  rw [statCount_eq_sum he, statCount_eq_sum he, call_eq]
  cases hmod : modifyFirst (hasKey c.ip) (fun it => (it.1, c.book it.2)) stats with
  | none =>
    have hrecord : stats.record c.ip = .new 0 0 0 0 0 := by
      unfold ProxyStats.record
      rw [modifyFirst_eq_none.mp hmod]
      rfl
    have hbook : (c.book (.new 0 0 0 0 0)).addCount env e = _ := addCount_book c (.new 0 0 0 0 0) he
    rw [addCount_new he, zero_add] at hbook
    rw [Option.getD_none, hrecord, ← hbook]
    simp
  | some stats' =>
    obtain ⟨it, hfind⟩ : ∃ it, stats.find? (hasKey c.ip) = some it := by
      refine Option.ne_none_iff_exists'.mp fun hnone => ?_
      rw [modifyFirst_eq_none.mpr hnone] at hmod
      cases hmod
    have hhas : hasKey c.ip it = true := find?_some hfind
    have hkey : it.1 = c.ip.toUInt64 := of_decide_eq_true hhas
    have hrecord : stats.record c.ip = it.2 := by
      unfold ProxyStats.record
      rw [hfind]
      rfl
    refine sum_map_modifyFirst hmod hfind ?_
    simp only [addCount_book c it.2 he, hkey, hrecord]
    split
    · rfl
    · exact (add_zero 0).symm

end

/-! ## 3. Runs -/

def booked (e : PStatCount) (calls : List StatCall) : UInt64 := (calls.map (·.adds e)).sum

structure StatRun where
  stats : ProxyStats
  calls : List StatCall

namespace StatRun

def init : StatRun := ⟨[], []⟩

def step (s : StatRun) (c : StatCall) : Option StatRun := some ⟨s.stats.call c, s.calls ++ [c]⟩

/-- Every sum is that of the bookings it is for. -/
structure AddsUp (env : StatEnv) (s : StatRun) : Prop where
  group : ∀ e ip group, e.booked = true → ip ≠ allAddresses → group ≠ allGroups →
    statCount env s.stats e ip group =
      booked e (s.calls.filter fun c => c.ip = ip ∧ c.group = group)
  address : ∀ e ip, e.booked = true → ip ≠ allAddresses →
    statCount env s.stats e ip allGroups = booked e (s.calls.filter fun c => c.ip = ip)
  total : ∀ e group, e.booked = true →
    statCount env s.stats e allAddresses group = booked e s.calls

/-- The booking counts for nothing or is for address 0 and group 0; and a reject is counted for a
response exactly if it has response bytes. -/
def Counted (s : StatRun) : StatCall → Prop
  | .add ip group reqBytes resBytes _ => reqBytes = 0 ∧ resBytes = 0 ∨ ip = 0 ∧ group = 0
  | .reject ip group reqRejectBytes resRejectBytes =>
    ((s.stats.record ip).resRejectBytes + resRejectBytes = 0 ↔ resRejectBytes = 0) ∧
      (reqRejectBytes = 0 ∧ resRejectBytes = 0 ∨ ip = 0 ∧ group = 0)

instance (s : StatRun) : ∀ c : StatCall, Decidable (Counted s c)
  | .add _ _ _ _ _ => inferInstanceAs (Decidable (_ ∨ _))
  | .reject _ _ _ _ => inferInstanceAs (Decidable (_ ∧ _))

variable {env : StatEnv} {s s' : StatRun}

theorem addsUp_iff :
    s.AddsUp env ↔ ∀ e ip group, e.booked = true →
      statCount env s.stats e ip group =
        booked e (s.calls.filter fun c => selects ip group c.ip c.group) := by
  constructor
  · intro h e ip group he
    by_cases hip : ip = allAddresses
    · subst hip
      have hall : ∀ c : StatCall, selects allAddresses group c.ip c.group = true := by
        simp [selects]
      rw [h.total e group he, filter_eq_self.mpr fun c _ => hall c]
    · by_cases hgroup : group = allGroups
      · subst hgroup
        rw [h.address e ip he hip]
        simp [selects, hip, eq_comm]
      · rw [h.group e ip group he hip hgroup]
        simp [selects, hip, hgroup, eq_comm]
  · intro h
    refine ⟨?_, ?_, ?_⟩
    · intro e ip group he hip hgroup
      rw [h e ip group he]
      simp [selects, hip, hgroup, eq_comm]
    · intro e ip he hip
      rw [h e ip allGroups he]
      simp [selects, hip, eq_comm]
    · intro e group he
      rw [h e allAddresses group he]
      simp [selects]

theorem booked_filter_append (e : PStatCount) (calls : List StatCall) (c : StatCall)
    (p : StatCall → Bool) :
    booked e ((calls ++ [c]).filter p) =
      booked e (calls.filter p) + if p c then c.adds e else 0 := by
  unfold booked
  by_cases hp : p c = true <;> simp [hp]

theorem kIp_toUInt64 (ip : UInt32) : kIp ip.toUInt64 = 0 := by
  have hlt := ip.toNat_lt
  apply UInt32.toNat_inj.mp
  simp only [kIp, UInt64.toNat_toUInt32, UInt64.toNat_and, UInt64.toNat_shiftRight,
    UInt32.toNat_toUInt64]
  have : ip.toNat >>> (UInt64.toNat 32 % 64) = 0 := by
    rw [Nat.shiftRight_eq_div_pow]
    exact Nat.div_eq_of_lt hlt
  rw [this]
  rfl

/-- Two bookings, one under the address and one under address and group, agree for every query
exactly if they are worth the same and, unless that is nothing, both are 0. -/
theorem selected_eq_iff (ip : UInt32) (group : UInt16) (moved added : UInt64) :
    (∀ qip qgroup,
        (if selects qip qgroup (kIp ip.toUInt64) (kGroup ip.toUInt64) then moved else 0) =
          if selects qip qgroup ip group then added else 0) ↔
      moved = added ∧ (added = 0 ∨ ip = 0 ∧ group = 0) := by
  rw [kIp_toUInt64]
  constructor
  · intro h
    obtain rfl : moved = added := by simpa [selects] using h allAddresses 0
    refine ⟨rfl, or_iff_not_imp_left.mpr fun hne => ?_⟩
    -- the query for address 0 finds every record, so this one is for address 0
    have hip : ip = 0 := by
      have hzero := h 0 allGroups
      by_contra hip
      simp [selects, allAddresses, Ne.symm hip, hne] at hzero
    subst hip
    refine ⟨rfl, ?_⟩
    have hzero := h 0 0
    rw [show kGroup (0 : UInt32).toUInt64 = 0 from rfl] at hzero
    by_contra hgroup
    simp [selects, allAddresses, allGroups, Ne.symm hgroup, hne] at hzero
  · rintro ⟨rfl, rfl | ⟨rfl, rfl⟩⟩ qip qgroup
    · rw [ite_self, ite_self]
    · rfl

theorem nonzero_eq_zero {v : UInt64} : nonzero v = 0 ↔ v = 0 := by
  unfold nonzero
  split <;> simp_all

theorem nonzero_inj {v w : UInt64} : nonzero v = nonzero w ↔ (v = 0 ↔ w = 0) := by
  unfold nonzero
  split <;> split <;> simp_all

/-- The statistics still add up behind a booking if and only if it moves each counter by what it is
to add, and that is for address 0 and group 0. -/
theorem AddsUp.call_iff (hs : s.AddsUp env) (c : StatCall) :
    (StatRun.mk (s.stats.call c) (s.calls ++ [c])).AddsUp env ↔
      ∀ e, e.booked = true →
        c.moves (s.stats.record c.ip) e = c.adds e ∧ (c.adds e = 0 ∨ c.ip = 0 ∧ c.group = 0) := by
  have hbefore := addsUp_iff.mp hs
  rw [addsUp_iff]
  simp only [booked_filter_append]
  constructor
  · intro h e he
    refine (selected_eq_iff _ _ _ _).mp fun ip group => ?_
    have hafter := h e ip group he
    rw [statCount_call he, hbefore e ip group he] at hafter
    exact add_left_cancel hafter
  · intro h e ip group he
    rw [statCount_call he, hbefore e ip group he, (selected_eq_iff _ _ _ _).mpr (h e he) ip group]

theorem AddsUp.step_iff {c : StatCall} (hs : s.AddsUp env) (hstep : s.step c = some s') :
    s'.AddsUp env ↔ Counted s c := by
  cases hstep
  rw [hs.call_iff c]
  cases c with
  | add ip group reqBytes resBytes delay =>
    constructor
    · intro h
      have hreq := (h .bytesRequest rfl).2
      have hres := (h .bytesResponse rfl).2
      exact and_or_right.mpr ⟨hreq, hres⟩
    · rintro (⟨rfl, rfl⟩ | hzero) e -
      · cases e <;> exact ⟨rfl, .inl rfl⟩
      · cases e <;> exact ⟨rfl, .inr hzero⟩
  | reject ip group reqRejectBytes resRejectBytes =>
    constructor
    · intro h
      have hreq := (h .rejectedRequest rfl).2
      obtain ⟨hmoves, hres⟩ := h .rejectedResponse rfl
      refine ⟨nonzero_inj.mp hmoves, ?_⟩
      exact and_or_right.mpr ⟨hreq.imp_left nonzero_eq_zero.mp, hres.imp_left nonzero_eq_zero.mp⟩
    · rintro ⟨hmoves, ⟨rfl, rfl⟩ | hzero⟩ e -
      · cases e <;> first | exact ⟨rfl, .inl rfl⟩ | exact ⟨nonzero_inj.mpr hmoves, .inl rfl⟩
      · cases e <;> first | exact ⟨rfl, .inr hzero⟩ | exact ⟨nonzero_inj.mpr hmoves, .inr hzero⟩

theorem init_addsUp (env : StatEnv) : init.AddsUp env := by
  refine addsUp_iff.mpr fun e ip group he => ?_
  rw [statCount_eq_sum he]
  rfl

/-- **When the statistics add up**: each booking that is not zero is for address 0 and group 0,
and the bytes accumulated for its address do not mislead the count of rejected responses. -/
theorem stats_addUp_iff (env : StatEnv) (calls : List StatCall) :
    Throughout step (AddsUp env) init calls ↔ EachStep step Counted init calls :=
  throughout_iff_eachStep (A := fun _ _ => True) (fun _ _ _ hs _ hstep => hs.step_iff hstep)
    (init_addsUp env) eachStep_true

theorem booked_under_wrong_key :
    ¬Throughout step (AddsUp ⟨0, 0, 0, 0⟩) init [.add 1 1 100 0 0] := by
  intro h
  have hsum := (h.2 _ rfl).head.group .bytesRequest 1 1 rfl (by decide) (by decide)
  cases hsum

end StatRun

end MixiPgw.Ctrl.Proxy
