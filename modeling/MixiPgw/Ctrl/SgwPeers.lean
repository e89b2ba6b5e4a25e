/-
# The cache of SGW peers

For each SGW address the restart counter of its last echo and a time of expiry (`sgw_peers.c`), in
two builds: a linked list, and an in-memory sqlite3 table. A callback may depend on the records it
has been given before in the query, may change the record, and returns a code.

* **`cache_isMap_iff`**: the list answers as a finite map in every run; its `count` is right EXACTLY
  as long as no delete takes an address out, since `pgw_delete_sgw_peer` leaves it alone.
* **`builds_agree`**: the builds answer alike as long as no address is set twice and callbacks leave
  the records as they are.
-/
import MixiPgw.Ctrl.NodeQueue
import MixiPgw.Lib.KeyedList
import Mathlib.Data.List.Perm.Subperm
import Mathlib.Data.Multiset.Basic

namespace MixiPgw.Ctrl

open Lib List Function

structure SgwPeer where
  ip : UInt32
  counter : UInt32
  expire : UInt32
deriving DecidableEq, Repr

/-- `pgw_sgw_peer_callback`: from the records of earlier calls and that of this one, the record as
it leaves it, and its return code. -/
abbrev PeerCallback := List SgwPeer → SgwPeer → SgwPeer × RetCd

/-- `(U32)-1`, the query for all addresses. -/
def allPeers : UInt32 := 0xffffffff

/-! ## 1. The list build -/

structure SgwPeers where
  peers : List SgwPeer
  count : UInt32

def pgwCreateSgwPeers : SgwPeers := ⟨[], 0⟩

def pgwSetSgwPeer (s : SgwPeers) (ip counter expire : UInt32) : SgwPeers × RetCd :=
  if ip = 0 then (s, .err)
  else
    match modifyFirst (fun p1 => p1.ip = ip)
      (fun p1 => { p1 with counter := counter, expire := expire }) s.peers with
    | some peers => ({ s with peers := peers }, .ok)
    | none => ({ peers := s.peers ++ [⟨ip, counter, expire⟩], count := s.count + 1 }, .ok)

/-- The loop of `pgw_get_sgw_peer`: the list as the callback leaves it, and the records it was
given. -/
def getLoop (ip : UInt32) (callback : PeerCallback) :
    List SgwPeer → List SgwPeer → List SgwPeer × List SgwPeer
  | visited, [] => ([], visited)
  | visited, p1 :: p2 =>
    if ip = allPeers then
      let (peers, all) := getLoop ip callback (visited ++ [p1]) p2
      ((callback visited p1).1 :: peers, all)
    else if p1.ip = ip then ((callback visited p1).1 :: p2, visited ++ [p1])
    else
      let (peers, all) := getLoop ip callback visited p2
      (p1 :: peers, all)

def RetCd.ofExists (visited : List SgwPeer) : RetCd := if visited.isEmpty then .err else .ok

/-- `pgw_get_sgw_peer`, with the records the callback was given. -/
def pgwGetSgwPeer (s : SgwPeers) (ip : UInt32) (callback : PeerCallback) :
    SgwPeers × RetCd × List SgwPeer :=
  let (peers, visited) := getLoop ip callback [] s.peers
  ({ s with peers := peers }, .ofExists visited, visited)

def pgwDeleteSgwPeer (s : SgwPeers) (ip : UInt32) : SgwPeers × RetCd :=
  ({ s with peers := s.peers.eraseP fun p1 => p1.ip = ip }, .ok)

/-! ## 2. The sqlite3 build -/

namespace Sqlite3

open CString

/-- A row of `sgw_peers`; `INT` columns hold a `U32`. -/
structure PeerRow where
  ip : Nat
  counter : Nat
  expire : Nat

/-- A number that goes into SQL text by `%u`, as it is read. -/
def sqlInt (v : UInt32) : Nat := ofDecimal (decimalDigits v.toNat)

/-- `(U32)atoi(val)`: a `strtol` of 64 bits, cut to 32. -/
def atoi (val : List Nat) : UInt32 := UInt32.ofNat (min (ofDecimal val) (2 ^ 63 - 1))

/-- The record `_sqlite3_callback` builds from the texts of a row. -/
def PeerRow.peer (row : PeerRow) : SgwPeer :=
  ⟨atoi (decimalDigits row.ip), atoi (decimalDigits row.counter), atoi (decimalDigits row.expire)⟩

/-- `pgw_set_sgw_peer`: an `INSERT`, whatever is there. -/
def pgwSetSgwPeer (rows : List PeerRow) (ip counter expire : UInt32) : List PeerRow × RetCd :=
  if ip = 0 then (rows, .err)
  else (rows ++ [⟨sqlInt ip, sqlInt counter, sqlInt expire⟩], .ok)

/-- `sqlite3_exec` with `_sqlite3_callback`: the copies the callback was given; an error ends the
query. -/
def exec (callback : PeerCallback) : List SgwPeer → List PeerRow → List SgwPeer
  | visited, [] => visited
  | visited, row :: rows =>
    match (callback visited row.peer).2 with
    | .ok => exec callback (visited ++ [row.peer]) rows
    | .err => visited ++ [row.peer]

def pgwGetSgwPeer (rows : List PeerRow) (ip : UInt32) (callback : PeerCallback) :
    RetCd × List SgwPeer :=
  let selected := if ip = allPeers then rows else rows.filter fun row => row.ip = sqlInt ip
  let visited := exec callback [] selected
  (.ofExists visited, visited)

def pgwDeleteSgwPeer (rows : List PeerRow) (ip : UInt32) : List PeerRow × RetCd :=
  (rows.filter fun row => row.ip ≠ sqlInt ip, .ok)

end Sqlite3

/-! ## 3. The list is a finite map -/

section

variable {s : SgwPeers} {m : UInt32 → Option SgwPeer} {ip : UInt32}

theorem pgwSetSgwPeer_spec (h : Represents SgwPeer.ip s.peers m) (hip : ip ≠ 0)
    (counter expire : UInt32) :
    ∃ s', pgwSetSgwPeer s ip counter expire = (s', .ok) ∧
      Represents SgwPeer.ip s'.peers (update m ip (some ⟨ip, counter, expire⟩)) ∧
      (s'.peers.length = s.peers.length ∧ s'.count = s.count ∨
        s'.peers.length = s.peers.length + 1 ∧ s'.count = s.count + 1) := by
  unfold pgwSetSgwPeer
  rw [if_neg hip]
  split
  · rename_i peers hmod
    refine ⟨_, rfl, ?_, .inl ⟨?_, rfl⟩⟩
    · have hrep := h.modifyFirst hmod fun _ => rfl
      obtain ⟨before, p1, behind, hl, -, hp1, -⟩ := modifyFirst_eq_some hmod
      obtain rfl : p1.ip = ip := of_decide_eq_true hp1
      have hfind : m p1.ip = some p1 := h.mem_iff.mp (by rw [hl]; simp)
      rw [hfind] at hrep
      exact hrep
    · obtain ⟨before, p1, behind, hl, rfl, -, -⟩ := modifyFirst_eq_some hmod
      rw [hl]
      simp
  · rename_i hmod
    refine ⟨_, rfl, ?_, .inr ⟨?_, rfl⟩⟩
    · have hnone := modifyFirst_eq_none.mp hmod
      exact h.append (a := ⟨ip, counter, expire⟩) ((h.find ip).symm.trans hnone)
    · simp

theorem getLoop_all (callback : PeerCallback) :
    ∀ peers visited : List SgwPeer,
      (getLoop allPeers callback visited peers).2 = visited ++ peers := by
  intro peers
  induction peers with
  | nil => exact fun visited => (append_nil visited).symm
  | cons p1 p2 ih =>
    intro visited
    have hnext := ih (visited ++ [p1])
    rw [append_assoc] at hnext
    exact hnext

theorem getLoop_one (hip : ip ≠ allPeers) (callback : PeerCallback) (visited : List SgwPeer) :
    ∀ peers : List SgwPeer,
      getLoop ip callback visited peers =
        ((modifyFirst (fun p1 => p1.ip = ip) (fun p1 => (callback visited p1).1) peers).getD peers,
          visited ++ (peers.find? fun p1 => p1.ip = ip).toList) := by
  intro peers
  induction peers with
  | nil => simp [getLoop, modifyFirst]
  | cons p1 p2 ih =>
    unfold getLoop modifyFirst
    rw [if_neg hip]
    by_cases hp1 : p1.ip = ip
    · simp [hp1]
    · rw [ih]
      cases modifyFirst (fun p1 => p1.ip = ip) (fun p1 => (callback visited p1).1) p2 <;>
        simp [hp1]

theorem getLoop_keeps {callback : PeerCallback} :
    ∀ {peers : List SgwPeer} (visited : List SgwPeer),
      (∀ visited, ∀ p1 ∈ peers, ip = allPeers ∨ p1.ip = ip → (callback visited p1).1 = p1) →
      (getLoop ip callback visited peers).1 = peers := by
  intro peers
  induction peers with
  | nil => exact fun _ _ => rfl
  | cons p1 p2 ih =>
    intro visited hkeep
    have hp1 := hkeep visited p1 mem_cons_self
    have hp2 := fun visited p hp => hkeep visited p (mem_cons_of_mem p1 hp)
    unfold getLoop
    split
    · rename_i hall
      exact congrArg₂ cons (hp1 (.inl hall)) (ih _ hp2)
    · split
      · rename_i hone
        exact congrArg (· :: p2) (hp1 (.inr hone))
      · exact congrArg (p1 :: ·) (ih _ hp2)

theorem length_lt_of_nodup {ips : List UInt32} (hnd : ips.Nodup) (hzero : 0 ∉ ips) :
    ips.length < 2 ^ 32 := by
  have hnd' : ((0 :: ips).map UInt32.toNat).Nodup :=
    (nodup_cons.mpr ⟨hzero, hnd⟩).map fun _ _ => UInt32.toNat_inj.mp
  have hsub : (0 :: ips).map UInt32.toNat ⊆ range (2 ^ 32) := by
    intro n hn
    obtain ⟨ip, -, rfl⟩ := mem_map.mp hn
    exact mem_range.mpr ip.toNat_lt
  have hlen := (hnd'.subperm hsub).length_le
  rw [length_map, length_range] at hlen
  exact hlen

end

inductive PeerWrite
  | set (ip counter expire : UInt32)
  | delete (ip : UInt32)
deriving DecidableEq, Repr

/-- The cache, and for each address its last set that no delete has followed. -/
structure PeerRun where
  cache : SgwPeers
  sets : UInt32 → Option SgwPeer

namespace PeerRun

def init : PeerRun := ⟨pgwCreateSgwPeers, fun _ => none⟩

def step (s : PeerRun) : PeerWrite → Option PeerRun
  | .set ip counter expire =>
    match pgwSetSgwPeer s.cache ip counter expire with
    | (cache, .ok) => some ⟨cache, update s.sets ip (some ⟨ip, counter, expire⟩)⟩
    | (cache, .err) => some { s with cache := cache }
  | .delete ip =>
    some ⟨(pgwDeleteSgwPeer s.cache ip).1, update s.sets ip none⟩

/-- What the callers of `pgw_get_sgw_peer` see of a map. -/
structure IsMap (s : PeerRun) : Prop where
  once : (s.cache.peers.map SgwPeer.ip).Nodup
  one : ∀ ip callback, ip ≠ allPeers →
    (pgwGetSgwPeer s.cache ip callback).2.2 = (s.sets ip).toList ∧
      ((pgwGetSgwPeer s.cache ip callback).2.1 = .err ↔ s.sets ip = none)
  all : ∀ callback,
    ((pgwGetSgwPeer s.cache allPeers callback).2.2.map SgwPeer.ip).Nodup ∧
      ∀ p, p ∈ (pgwGetSgwPeer s.cache allPeers callback).2.2 ↔ s.sets p.ip = some p
  count : ∀ callback, s.cache.count.toNat = (pgwGetSgwPeer s.cache allPeers callback).2.2.length

def TakesNone (s : PeerRun) : PeerWrite → Prop
  | .set _ _ _ => True
  | .delete ip => s.sets ip = none

instance (s : PeerRun) : ∀ w : PeerWrite, Decidable (TakesNone s w)
  | .set _ _ _ => instDecidableTrue
  | .delete _ => inferInstanceAs (Decidable (_ = none))

/-- The list is the map, and no address in it is zero. -/
structure Inv (s : PeerRun) : Prop extends Represents SgwPeer.ip s.cache.peers s.sets where
  nonzero : s.sets 0 = none

variable {s s' : PeerRun}

theorem Inv.length_lt (hs : s.Inv) : s.cache.peers.length < 2 ^ 32 := by
  have hzero : 0 ∉ s.cache.peers.map SgwPeer.ip := by
    rw [hs.mem_keys_iff, hs.nonzero]
    exact Bool.false_ne_true
  have hlen := length_lt_of_nodup hs.nodup hzero
  rwa [length_map] at hlen

theorem Inv.isMap_iff (hs : s.Inv) : s.IsMap ↔ s.cache.count.toNat = s.cache.peers.length := by
  have hall (callback : PeerCallback) :
      (pgwGetSgwPeer s.cache allPeers callback).2.2 = s.cache.peers :=
    getLoop_all callback s.cache.peers []
  constructor
  · intro h
    have hcount := h.count fun _ p => (p, .ok)
    rwa [hall] at hcount
  · intro hcount
    refine ⟨hs.nodup, ?_, ?_, ?_⟩
    · intro ip callback hip
      have hvisited : (pgwGetSgwPeer s.cache ip callback).2.2 = (s.sets ip).toList := by
        rw [← hs.find]
        exact congrArg Prod.snd (getLoop_one hip callback [] s.cache.peers)
      have hret : (pgwGetSgwPeer s.cache ip callback).2.1 = .ofExists (s.sets ip).toList :=
        congrArg RetCd.ofExists hvisited
      refine ⟨hvisited, ?_⟩
      rw [hret]
      cases s.sets ip <;> simp [RetCd.ofExists]
    · intro callback
      rw [hall]
      exact ⟨hs.nodup, fun p => hs.mem_iff⟩
    · intro callback
      rw [hall]
      exact hcount

theorem Inv.step {w : PeerWrite} (hs : s.Inv) (hstep : s.step w = some s') :
    s'.Inv ∧ (s.cache.count.toNat = s.cache.peers.length →
      (s'.cache.count.toNat = s'.cache.peers.length ↔ TakesNone s w)) := by
  cases w with
  | set ip counter expire =>
    by_cases hip : ip = 0
    · -- the call is refused and changes nothing
      subst hip
      cases hstep
      exact ⟨hs, fun hcount => iff_of_true hcount trivial⟩
    · obtain ⟨cache, hset, hrep, hlen⟩ := pgwSetSgwPeer_spec hs.toRepresents hip counter expire
      simp only [PeerRun.step, hset] at hstep
      cases hstep
      have hinv : Inv ⟨cache, update s.sets ip (some ⟨ip, counter, expire⟩)⟩ :=
        ⟨hrep, (update_of_ne (Ne.symm hip) _ _).trans hs.nonzero⟩
      refine ⟨hinv, fun hcount => iff_of_true ?_ trivial⟩
      have hbound := hinv.length_lt
      rcases hlen with ⟨hlen, hcnt⟩ | ⟨hlen, hcnt⟩
      · rw [hcnt, hlen]
        exact hcount
      · rw [hlen] at hbound ⊢
        rw [hcnt, UInt32.toNat_add, hcount]
        exact Nat.mod_eq_of_lt hbound
  | delete ip =>
    cases hstep
    have hrep := hs.toRepresents.eraseP ip
    have hzero : update s.sets ip none 0 = none := by
      rw [update_apply, hs.nonzero, ite_self]
    refine ⟨⟨hrep, hzero⟩, fun hcount => ?_⟩
    show s.cache.count.toNat = (s.cache.peers.eraseP fun p1 => p1.ip = ip).length ↔ _
    rw [hcount, TakesNone, ← hs.find, find?_eq_none]
    constructor
    · intro hlen p1 hp1 hip
      have := length_eraseP_of_mem (p := fun p1 => p1.ip = ip) hp1 hip
      have := length_pos_of_mem hp1
      omega
    · intro hnone
      rw [eraseP_of_forall_not hnone]

theorem init_inv : init.Inv := ⟨represents_nil, rfl⟩

/-- **The list-backed cache is a finite map whose count counts insertions**: `count` is the
number of addresses if and only if no delete takes an address out. -/
theorem cache_isMap_iff (calls : List PeerWrite) :
    Throughout step IsMap init calls ↔ EachStep step TakesNone init calls := by
  have hinv : Throughout step Inv init calls :=
    throughout_of_eachStep (C := fun _ _ => True) (fun _ _ _ hs _ hstep => (hs.step hstep).1)
      init_inv eachStep_true
  refine throughout_iff_eachStep (A := fun s _ => s.Inv) ?_ (init_inv.isMap_iff.mpr rfl)
    hinv.eachStep
  intro s w s' hmap hs hstep
  obtain ⟨hs', hcount⟩ := hs.step hstep
  exact hs'.isMap_iff.trans (hcount (hs.isMap_iff.mp hmap))

/-- An address that is set and deleted still counts. -/
theorem deleted_counts : ¬Throughout step IsMap init [.set 1 0 0, .delete 1] := by
  intro h
  have hlast : IsMap ⟨⟨[], 1⟩, _⟩ := ((h.2 _ rfl).2 _ rfl).head
  exact absurd (hlast.count fun _ p => (p, .ok)) (by decide)

end PeerRun

/-! ## 4. The two builds -/

inductive PeerCall
  | set (ip counter expire : UInt32)
  | get (ip : UInt32) (callback : PeerCallback)
  | delete (ip : UInt32)

/-- A call of the list build: the cache, the return code, and the records given. -/
def SgwPeers.call (s : SgwPeers) : PeerCall → SgwPeers × RetCd × List SgwPeer
  | .set ip counter expire =>
    let (s, ret) := pgwSetSgwPeer s ip counter expire
    (s, ret, [])
  | .get ip callback => pgwGetSgwPeer s ip callback
  | .delete ip =>
    let (s, ret) := pgwDeleteSgwPeer s ip
    (s, ret, [])

def SgwPeers.step (s : SgwPeers) (c : PeerCall) : Option SgwPeers := some (s.call c).1

def Sqlite3.call (rows : List PeerRow) : PeerCall → List PeerRow × RetCd × List SgwPeer
  | .set ip counter expire =>
    let (rows, ret) := Sqlite3.pgwSetSgwPeer rows ip counter expire
    (rows, ret, [])
  | .get ip callback => (rows, Sqlite3.pgwGetSgwPeer rows ip callback)
  | .delete ip =>
    let (rows, ret) := Sqlite3.pgwDeleteSgwPeer rows ip
    (rows, ret, [])

/-- What the callers see: the return codes, and what each callback was given, in any order. -/
def answers {σ : Type} (call : σ → PeerCall → σ × RetCd × List SgwPeer) :
    σ → List PeerCall → List (RetCd × Multiset SgwPeer)
  | _, [] => []
  | s, c :: calls =>
    let (s', ret, visited) := call s c
    (ret, ↑visited) :: answers call s' calls

/-- A call on which the builds agree: a set of a new address, or a query whose callback leaves what
it is given alone and, asked for all addresses, goes on to the end. -/
def Plain (s : SgwPeers) : PeerCall → Prop
  | .set ip _ _ => ip ∉ s.peers.map SgwPeer.ip
  | .get ip callback =>
    ∀ visited, ∀ p1 ∈ s.peers, ip = allPeers ∨ p1.ip = ip →
      (callback visited p1).1 = p1 ∧ (ip = allPeers → (callback visited p1).2 = .ok)
  | .delete _ => True

namespace Sqlite3

open CString

def PeerRow.of (p : SgwPeer) : PeerRow := ⟨sqlInt p.ip, sqlInt p.counter, sqlInt p.expire⟩

theorem sqlInt_eq (v : UInt32) : sqlInt v = v.toNat := ofDecimal_decimalDigits v.toNat

theorem atoi_sqlInt (v : UInt32) : atoi (decimalDigits (sqlInt v)) = v := by
  have hlt : v.toNat ≤ 2 ^ 63 - 1 := Nat.le_of_lt (Nat.lt_of_lt_of_le v.toNat_lt (by decide))
  unfold atoi
  rw [ofDecimal_decimalDigits, sqlInt_eq, Nat.min_eq_left hlt, UInt32.ofNat_toNat]

@[simp] theorem PeerRow.peer_of (p : SgwPeer) : (PeerRow.of p).peer = p := by
  unfold PeerRow.peer PeerRow.of
  rw [atoi_sqlInt, atoi_sqlInt, atoi_sqlInt]

theorem sqlInt_inj {v w : UInt32} : sqlInt v = sqlInt w ↔ v = w := by
  rw [sqlInt_eq, sqlInt_eq, UInt32.toNat_inj]

theorem filter_map_of (peers : List SgwPeer) (q : Bool → Bool) (ip : UInt32) :
    (peers.map PeerRow.of).filter (fun row => q (row.ip = sqlInt ip)) =
      (peers.filter fun p => q (p.ip = ip)).map PeerRow.of := by
  rw [filter_map]
  congr 1
  refine filter_congr fun p _ => ?_
  exact congrArg q (decide_eq_decide.mpr sqlInt_inj)

theorem exec_all {callback : PeerCallback} :
    ∀ {peers : List SgwPeer} (visited : List SgwPeer),
      (∀ visited, ∀ p ∈ peers, (callback visited p).2 = .ok) →
      exec callback visited (peers.map PeerRow.of) = visited ++ peers := by
  intro peers
  induction peers with
  | nil => exact fun visited _ => (append_nil visited).symm
  | cons p peers ih =>
    intro visited hok
    rw [map_cons, exec, PeerRow.peer_of, hok visited p mem_cons_self]
    rw [ih _ fun visited p' hp' => hok visited p' (mem_cons_of_mem p hp'), append_assoc]
    rfl

theorem exec_one (callback : PeerCallback) (p : Option SgwPeer) :
    exec callback [] (p.toList.map PeerRow.of) = p.toList := by
  cases p with
  | none => rfl
  | some p =>
    rw [Option.toList_some, map_singleton, exec, PeerRow.peer_of]
    cases (callback [] p).2 <;> rfl

end Sqlite3

open Sqlite3 in
/-- The table holds the records of the list, which has no address twice. -/
structure SameRecords (s : SgwPeers) (rows : List PeerRow) : Prop where
  nodup : (s.peers.map SgwPeer.ip).Nodup
  rows_eq : rows = s.peers.map PeerRow.of

section

open Sqlite3

variable {s : SgwPeers} {rows : List PeerRow}

theorem SameRecords.set (h : SameRecords s rows) {ip : UInt32} (counter expire : UInt32)
    (hnew : ip ∉ s.peers.map SgwPeer.ip) :
    (s.call (.set ip counter expire)).2 = (Sqlite3.call rows (.set ip counter expire)).2 ∧
      SameRecords (s.call (.set ip counter expire)).1
        (Sqlite3.call rows (.set ip counter expire)).1 := by
  have hmod : modifyFirst (fun p1 : SgwPeer => p1.ip = ip)
      (fun p1 => { p1 with counter := counter, expire := expire }) s.peers = none := by
    refine modifyFirst_eq_none.mpr (find?_eq_none.mpr fun p1 hp1 hip => hnew ?_)
    exact of_decide_eq_true hip ▸ mem_map_of_mem hp1
  by_cases hip : ip = 0
  · simp only [SgwPeers.call, Sqlite3.call, pgwSetSgwPeer, Sqlite3.pgwSetSgwPeer, if_pos hip]
    exact ⟨trivial, h⟩
  · simp only [SgwPeers.call, Sqlite3.call, pgwSetSgwPeer, Sqlite3.pgwSetSgwPeer, if_neg hip, hmod]
    refine ⟨trivial, ?_, ?_⟩
    · exact nodup_keys_append h.nodup hnew
    · rw [h.rows_eq, map_append]
      rfl

theorem SameRecords.get (h : SameRecords s rows) {ip : UInt32} {callback : PeerCallback}
    (hplain : Plain s (.get ip callback)) :
    (s.call (.get ip callback)).2 = (Sqlite3.call rows (.get ip callback)).2 ∧
      SameRecords (s.call (.get ip callback)).1 (Sqlite3.call rows (.get ip callback)).1 := by
  have hkeep : (getLoop ip callback [] s.peers).1 = s.peers :=
    getLoop_keeps [] fun visited p1 hp1 hgiven => (hplain visited p1 hp1 hgiven).1
  -- both builds give the callback the same records, in the same order
  have hvisited : (getLoop ip callback [] s.peers).2 =
      (Sqlite3.pgwGetSgwPeer rows ip callback).2 := by
    unfold Sqlite3.pgwGetSgwPeer
    rw [h.rows_eq]
    by_cases hip : ip = allPeers
    · subst hip
      have hok := fun visited p1 hp1 => (hplain visited p1 hp1 (.inl rfl)).2 rfl
      rw [if_pos rfl, getLoop_all]
      exact (exec_all [] hok).symm
    · have hselect : (s.peers.map PeerRow.of).filter (fun row => row.ip = sqlInt ip) =
          (s.peers.find? fun p1 => p1.ip = ip).toList.map PeerRow.of := by
        rw [← filter_eq_toList_find? h.nodup]
        exact filter_map_of s.peers id ip
      rw [if_neg hip, getLoop_one hip, hselect]
      exact (exec_one callback _).symm
  refine ⟨?_, ?_⟩
  · exact congrArg (fun visited => (RetCd.ofExists visited, visited)) hvisited
  · have hsame : (s.call (.get ip callback)).1 = s := by
      show SgwPeers.mk (getLoop ip callback [] s.peers).1 s.count = s
      rw [hkeep]
    rw [hsame]
    exact h

theorem SameRecords.delete (h : SameRecords s rows) (ip : UInt32) :
    (s.call (.delete ip)).2 = (Sqlite3.call rows (.delete ip)).2 ∧
      SameRecords (s.call (.delete ip)).1 (Sqlite3.call rows (.delete ip)).1 := by
  refine ⟨rfl, ?_, ?_⟩
  · exact h.nodup.sublist ((eraseP_sublist).map _)
  · show rows.filter (fun row => row.ip ≠ sqlInt ip) =
      (s.peers.eraseP fun p1 => p1.ip = ip).map PeerRow.of
    simp only [eraseP_eq_filter h.nodup, h.rows_eq, ne_eq, decide_not]
    exact filter_map_of s.peers not ip

theorem SameRecords.call (h : SameRecords s rows) {c : PeerCall} (hc : Plain s c) :
    (s.call c).2 = (Sqlite3.call rows c).2 ∧
      SameRecords (s.call c).1 (Sqlite3.call rows c).1 := by
  cases c with
  | set ip counter expire => exact h.set counter expire hc
  | get ip callback => exact h.get hc
  | delete ip => exact h.delete ip

theorem SameRecords.answers {calls : List PeerCall} (h : SameRecords s rows)
    (hplain : EachStep SgwPeers.step Plain s calls) :
    answers SgwPeers.call s calls = answers Sqlite3.call rows calls := by
  induction calls generalizing s rows with
  | nil => rfl
  | cons c calls ih =>
    obtain ⟨hc, hrest⟩ := hplain _ rfl
    obtain ⟨hans, hnext⟩ := h.call hc
    obtain ⟨hret, hvisited⟩ := Prod.ext_iff.mp hans
    unfold Ctrl.answers
    dsimp only
    rw [hret, hvisited, ih hnext hrest]

/-- **The builds answer alike** to every run in which no set meets its own address and no callback
changes a record or ends a query for all addresses. -/
theorem builds_agree (calls : List PeerCall)
    (hplain : EachStep SgwPeers.step Plain pgwCreateSgwPeers calls) :
    answers SgwPeers.call pgwCreateSgwPeers calls = answers Sqlite3.call [] calls :=
  SameRecords.answers ⟨nodup_nil, rfl⟩ hplain

def looks : PeerCallback := fun _ p => (p, .ok)

theorem builds_agree_after_delete :
    EachStep SgwPeers.step Plain pgwCreateSgwPeers
        [.set 1 5 100, .set 2 6 100, .delete 1, .get allPeers looks, .get 1 looks] ∧
      answers SgwPeers.call pgwCreateSgwPeers
          [.set 1 5 100, .set 2 6 100, .delete 1, .get allPeers looks, .get 1 looks] =
        answers Sqlite3.call []
          [.set 1 5 100, .set 2 6 100, .delete 1, .get allPeers looks, .get 1 looks] := by
  have hplain : EachStep SgwPeers.step Plain pgwCreateSgwPeers
      [.set 1 5 100, .set 2 6 100, .delete 1, .get allPeers looks, .get 1 looks] := by
    refine (eachStep_cons rfl).mpr ⟨show (1 : UInt32) ∉ [] by decide, ?_⟩
    refine (eachStep_cons rfl).mpr ⟨show (2 : UInt32) ∉ [1] by decide, ?_⟩
    refine (eachStep_cons rfl).mpr ⟨trivial, ?_⟩
    refine (eachStep_cons rfl).mpr ⟨fun _ _ _ _ => ⟨rfl, fun _ => rfl⟩, ?_⟩
    exact eachStep_singleton fun _ _ _ _ => ⟨rfl, fun _ => rfl⟩
  exact ⟨hplain, builds_agree _ hplain⟩

/-- An address that is set again, and a record that a callback changes. -/
theorem builds_disagree :
    answers SgwPeers.call pgwCreateSgwPeers [.set 1 5 100, .set 1 6 200, .get 1 looks] ≠
        answers Sqlite3.call [] [.set 1 5 100, .set 1 6 200, .get 1 looks] ∧
      answers SgwPeers.call pgwCreateSgwPeers
          [.set 1 5 100, .get 1 fun _ p => ({ p with expire := 300 }, .ok), .get 1 looks] ≠
        answers Sqlite3.call []
          [.set 1 5 100, .get 1 fun _ p => ({ p with expire := 300 }, .ok), .get 1 looks] := by
  decide +kernel

end

end MixiPgw.Ctrl
