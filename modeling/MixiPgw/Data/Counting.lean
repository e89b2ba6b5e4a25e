/-
# Counting

`CoreCounterWorker::Counting` adds the bytes of a packet to the entry of its key, in one of sixteen
maps. A map is the list of its entries, which an insertion may put into any order.
-/
import MixiPgw.Data.Billing
import MixiPgw.Lib.Ledger
import Mathlib.Algebra.BigOperators.Group.List.Basic
import Mathlib.Data.UInt

namespace MixiPgw.Data

open Lib List Option Function CountingItem
open scoped List

/-! ## 1. The maps -/

/-- An entry of a map. `serial`, which is not in the source, numbers the entries in the order in
which they were made. -/
structure CountEntry where
  key : UInt32
  item : CountingItem
  serial : Nat

inductive CountColumn
  | used
  | used3g
  | usedLow
deriving DecidableEq

def CountingItem.column (itm : CountingItem) : CountColumn → UInt32
  | .used => itm.used
  | .used3g => itm.used3g
  | .usedLow => itm.usedLow

def Mode.column : Mode → CountColumn
  | .low => .usedLow
  | .m3g => .used3g
  | .lte | .reserved => .used

/-- The tests of the argument `mode`, which has 32 bits. -/
def policerMode (mode : UInt32) : Mode := if mode = 2 then .low else if mode = 1 then .m3g else .lte

/-- A reordering, as an insertion into an `unordered_map` may bring about. -/
structure Reorder where
  run : List CountEntry → List CountEntry
  perm : ∀ l, (run l).Perm l

/-- A call of `Counting`: its arguments, `time(NULL)` and the iteration order. -/
structure CountCall where
  key : UInt32
  used : UInt16
  mode : UInt32
  now : UInt32
  reorder : Reorder

def CountCall.idx (c : CountCall) : Fin 16 := Fin.ofNat 16 c.key.toNat

def CountCall.charge (c : CountCall) : Charge := ⟨c.key, c.used.toNat, policerMode c.mode⟩

/-- `counting_t`; a slot that has not been written is `none`. -/
structure CountingPacket where
  type : UInt8
  count : UInt32
  slot : Nat → Option CountEntry

def CountingPacket.items (p : CountingPacket) : List CountEntry :=
  (range p.count.toNat).filterMap p.slot

/-- The members used. `made` counts the entries made, `handed` are the packets given to
`SendOrBuffer`, `ringFull` is whether the branch for `TRANSFER_RING_SZ` packets was taken. -/
structure Counter where
  maps : Fin 16 → List CountEntry
  cur : Fin 16
  made : Nat
  handed : List CountingPacket
  ringFull : Bool

def Counter.new : Counter := ⟨fun _ => [], 0, 0, [], false⟩

def Counter.remaining (c : Counter) : List CountEntry := (finRange 16).flatMap c.maps

def Counter.handedItems (c : Counter) : List CountEntry := c.handed.flatMap CountingPacket.items

/-- Where the entries are that were ever made. -/
def Counter.ledger (c : Counter) : Ledger :=
  ⟨(c.handedItems ++ c.remaining).map CountEntry.serial, c.made⟩

def bump (c : Charge) : List CountEntry → Option (List CountEntry)
  | [] => none
  | e :: l =>
    if e.key = c.key then some ({ e with item := e.item.add (UInt32.ofNat c.used) c.mode } :: l)
    else (bump c l).map (e :: ·)

def Counter.newEntry (s : Counter) (c : CountCall) : CountEntry :=
  let itm : CountingItem := ⟨c.now, 0, 0, 0⟩
  ⟨c.key, itm.add (UInt32.ofNat c.charge.used) c.charge.mode, s.made⟩

def Counter.count (s : Counter) (c : CountCall) : Counter :=
  match bump c.charge (s.maps c.idx) with
  | some l => { s with maps := update s.maps c.idx l }
  | none =>
    { s with
      maps := update s.maps c.idx (c.reorder.run (s.newEntry c :: s.maps c.idx))
      made := s.made + 1 }

def amount (key : UInt32) (col : CountColumn) (l : List CountEntry) : UInt32 :=
  (l.map fun e => if e.key = key then e.item.column col else 0).sum

def CountCall.share (c : CountCall) (key : UInt32) (col : CountColumn) : UInt32 :=
  if c.key = key ∧ (policerMode c.mode).column = col then UInt32.ofNat c.used.toNat else 0

section

variable {key : UInt32} {col : CountColumn}

@[simp] theorem amount_cons (e : CountEntry) (l : List CountEntry) :
    amount key col (e :: l) = (if e.key = key then e.item.column col else 0) + amount key col l :=
  sum_cons

@[simp] theorem amount_append (l l' : List CountEntry) :
    amount key col (l ++ l') = amount key col l + amount key col l' := by
  simp [amount]

theorem amount_perm {l l' : List CountEntry} (h : l ~ l') : amount key col l = amount key col l' :=
  (h.map _).sum_eq

end

theorem CountingItem.column_add (itm : CountingItem) (used : UInt32) (mode : Mode)
    (col : CountColumn) :
    (itm.add used mode).column col = itm.column col + if mode.column = col then used else 0 := by
  cases mode <;> cases col <;> simp [add, column, Mode.column]

section

variable {c : CountCall} {l l' : List CountEntry}

theorem bump_map {β : Type} {f : CountEntry → β}
    (hf : ∀ (e : CountEntry) (itm : CountingItem), f { e with item := itm } = f e)
    (h : bump c.charge l = some l') : l'.map f = l.map f := by
  induction l generalizing l' with
  | nil => exact absurd h (by simp [bump])
  | cons e l ih =>
    unfold bump at h
    split at h
    · obtain rfl := some.inj h
      rw [map_cons, map_cons, hf]
    · obtain ⟨l₁, hl₁, rfl⟩ := map_eq_some_iff.mp h
      rw [map_cons, map_cons, ih hl₁]

theorem amount_bump (key : UInt32) (col : CountColumn) (h : bump c.charge l = some l') :
    amount key col l' = amount key col l + c.share key col := by
  induction l generalizing l' with
  | nil => exact absurd h (by simp [bump])
  | cons e l ih =>
    unfold bump at h
    split at h
    · rename_i hkey
      obtain rfl := some.inj h
      have hkey' : e.key = c.key := hkey
      rw [amount_cons, amount_cons, column_add]
      unfold CountCall.share
      by_cases hk : c.key = key
      · simp only [hkey', hk, true_and]
        exact add_right_comm _ _ _
      · simp [hkey', hk]
    · obtain ⟨l₁, hl₁, rfl⟩ := map_eq_some_iff.mp h
      rw [amount_cons, amount_cons, ih hl₁, add_assoc]

end

/-! ## 2. One call -/

section

variable {s : Counter} {c : CountCall}

theorem Counter.count_found {l : List CountEntry} (h : bump c.charge (s.maps c.idx) = some l) :
    s.count c = { s with maps := update s.maps c.idx l } := by
  unfold Counter.count
  rw [h]

theorem Counter.count_new (h : bump c.charge (s.maps c.idx) = none) :
    s.count c =
      { s with
        maps := update s.maps c.idx (c.reorder.run (s.newEntry c :: s.maps c.idx))
        made := s.made + 1 } := by
  unfold Counter.count
  rw [h]

variable (s : Counter) (c : CountCall)

theorem column_newEntry (key : UInt32) (col : CountColumn) :
    (if (s.newEntry c).key = key then (s.newEntry c).item.column col else 0) = c.share key col := by
  have hzero : (⟨c.now, 0, 0, 0⟩ : CountingItem).column col = 0 := by cases col <;> rfl
  unfold Counter.newEntry CountCall.share CountCall.charge
  rw [column_add, hzero, zero_add, ite_and]

/-- One call of `Counting`: the bytes go to the key and the mode, -/
theorem Counter.amount_count (key : UInt32) (col : CountColumn) :
    amount key col (s.count c).remaining = amount key col s.remaining + c.share key col := by
  obtain ⟨others, hbefore, hafter⟩ := exists_rest_flatMap (nodup_finRange 16)
    (mem_finRange c.idx) s.maps
  unfold Counter.remaining
  cases hbump : bump c.charge (s.maps c.idx) with
  | some l =>
    rw [Counter.count_found hbump, amount_perm (hafter l), amount_perm hbefore, amount_append,
      amount_append, amount_bump key col hbump]
    exact add_right_comm _ _ _
  | none =>
    rw [Counter.count_new hbump, amount_perm (hafter _), amount_perm hbefore, amount_append,
      amount_append, amount_perm (c.reorder.perm _), amount_cons, column_newEntry, add_assoc]
    exact add_comm _ _

theorem Counter.filed_count :
    ∃ ks, Ledger.Filed ks s.ledger (s.count c).ledger ∧ ∀ k ∈ ks, k = 1 := by
  obtain ⟨others, hbefore, hafter⟩ := exists_rest_flatMap (nodup_finRange 16)
    (mem_finRange c.idx) s.maps
  cases hbump : bump c.charge (s.maps c.idx) with
  | some l =>
    rw [Counter.count_found hbump]
    refine ⟨[], Ledger.Filed.moved rfl ?_, fun k hk => absurd hk not_mem_nil⟩
    have hserials := bump_map (f := CountEntry.serial) (fun _ _ => rfl) hbump
    have hsame := (hafter l).map CountEntry.serial
    rw [map_append, hserials, ← map_append] at hsame
    have hmaps := hsame.trans (hbefore.map CountEntry.serial).symm
    have hall := hmaps.append_left (s.handedItems.map CountEntry.serial)
    rw [← map_append, ← map_append] at hall
    exact hall
  | none =>
    rw [Counter.count_new hbump]
    refine ⟨[1], Ledger.Filed.one rfl ?_, fun k hk => mem_singleton.mp hk⟩
    have hnew : (finRange 16).flatMap (update s.maps c.idx
          (c.reorder.run (s.newEntry c :: s.maps c.idx))) ~
        s.remaining ++ [s.newEntry c] := by
      calc _
        _ ~ c.reorder.run (s.newEntry c :: s.maps c.idx) ++ others := hafter _
        _ ~ s.newEntry c :: s.maps c.idx ++ others :=
          (c.reorder.perm _).append_right _
        _ ~ s.newEntry c :: s.remaining := hbefore.symm.cons _
        _ ~ s.remaining ++ [s.newEntry c] := (perm_append_singleton _ _).symm
    have hplaces : (s.handedItems ++ (s.remaining ++ [s.newEntry c])).map CountEntry.serial =
        s.ledger.places ++ replicate 1 s.ledger.taken := by
      simp [Counter.ledger, Counter.newEntry]
    rw [← hplaces]
    exact (hnew.append_left s.handedItems).map CountEntry.serial

end

end MixiPgw.Data
