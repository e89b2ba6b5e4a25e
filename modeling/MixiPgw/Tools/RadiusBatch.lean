/-
# RADIUS packets in datagrams

`RECVMMSG` takes up to sixteen datagrams and goes through each one from packet to packet. Behind a
packet that is shorter than its datagram the cursor moves on by the size of the DATAGRAM, so the
next header is read from what the stack holds behind it: the second of two packets in a datagram is
never seen, and stale bytes may be. `batch_splits_iff`: EXACTLY which batches are taken apart.
-/
import MixiPgw.Lib.Bytes
import MixiPgw.Lib.Loop

namespace MixiPgw.Radius

open Bytes Lib Loop List

/-- What `recvmmsg` leaves in `bufs`: the datagrams, and the bytes of the stack around them. -/
structure Batch where
  datagrams : List (List UInt8)
  stack : Nat → UInt8
  few : datagrams.length ≤ 16
  fit : ∀ d ∈ datagrams, d.length ≤ 4096

/-- A call of `callback` with `&bufs[n][m]`, a length and `addrs[n]`. -/
structure Call where
  n : Nat
  m : Nat
  len : Nat
deriving DecidableEq

/-- What is to be passed of packets that lie one behind the other from `m` on. -/
def callsFor (n : Nat) : Nat → List (List UInt8) → List Call
  | _, [] => []
  | m, p :: ps => ⟨n, m, p.length⟩ :: callsFor n (m + p.length) ps

/-- A RADIUS packet: its length field is its size. -/
def IsPacket (p : List UInt8) : Prop :=
  20 ≤ p.length ∧ p.length ≤ 4096 ∧ be16 (p.getD 2 0) (p.getD 3 0) = p.length

namespace Batch

variable (b : Batch)

def rlen : Nat := b.datagrams.length

def datagram (n : Nat) : List UInt8 := b.datagrams.getD n []

def msgLen (n : Nat) : Nat := (b.datagram n).length

def byte (i : Nat) : UInt8 := (b.datagram (i / 4096)).getD (i % 4096) (b.stack i)

/-- `ntohs(rh->len)` at `&bufs[n][m]`. -/
def headerLen (n m : Nat) : Nat :=
  be16 (b.byte (4096 * n + m + 2)) (b.byte (4096 * n + m + 3))

def Valid (n m : Nat) : Prop :=
  20 ≤ b.headerLen n m ∧ b.headerLen n m ≤ 4096 ∧ b.headerLen n m ≤ b.msgLen n

instance (n m : Nat) : Decidable (b.Valid n m) := inferInstanceAs (Decidable (_ ∧ _ ∧ _))

def recvStep (x : Nat × Nat) : Unit ⊕ (Nat × Nat) :=
  if x.1 < b.rlen then
    if b.Valid x.1 x.2 then
      if b.headerLen x.1 x.2 < b.msgLen x.1 then .inr (x.1, x.2 + b.msgLen x.1)
      else .inr (x.1 + 1, 0)
    else .inr (x.1 + 1, 0)
  else .inl ()

def callAt (x : Nat × Nat) : Option Call :=
  if x.1 < b.rlen ∧ b.Valid x.1 x.2 then some ⟨x.1, x.2, b.headerLen x.1 x.2⟩ else none

/-- The calls of the turns from `x` on. -/
abbrev calls (x : Nat × Nat) (xs : List (Nat × Nat)) : List Call := (x :: xs).filterMap b.callAt

/-- Inside the datagram that it is handed over with. -/
def Inside (c : Call) : Prop := c.n < b.rlen ∧ c.m + c.len ≤ b.msgLen c.n

/-- The loop ends, all it passes lies inside the datagram, and of a datagram that consists of
packets each one is passed, once and in order. -/
def Splits : Prop :=
  ∃ xs, Run b.recvStep (0, 0) xs () ∧
    (∀ c ∈ b.calls (0, 0) xs, b.Inside c) ∧
    ∀ n < b.rlen, ∀ packets : List (List UInt8), (∀ p ∈ packets, IsPacket p) →
      b.datagram n = packets.flatten →
      (b.calls (0, 0) xs).filter (·.n = n) = callsFor n 0 packets

/-- Nothing but packets. -/
def Concatenation (n : Nat) : Prop :=
  ∃ packets : List (List UInt8), (∀ p ∈ packets, IsPacket p) ∧ b.datagram n = packets.flatten

/-- The first header is refused, or it spans the datagram, or there is more behind the first packet
that is no packet, and no valid header in the memory behind the datagram. -/
def Fine (n : Nat) : Prop :=
  ¬ b.Valid n 0 ∨ b.headerLen n 0 = b.msgLen n ∨
    (¬ b.Concatenation n ∧ ¬ b.Valid n (b.msgLen n))

/-! ## 1. One datagram -/

variable {b : Batch} {n m : Nat}

def rowCalls (b : Batch) (n : Nat) : List Call := (b.callAt (n, 0)).toList

/-- Behind a first packet that is too short nothing is taken for a header. -/
def Stops (b : Batch) (n : Nat) : Prop :=
  b.Valid n 0 → b.headerLen n 0 < b.msgLen n → ¬ b.Valid n (b.msgLen n)

theorem callAt_of_valid (hn : n < b.rlen) (h : b.Valid n m) :
    b.callAt (n, m) = some ⟨n, m, b.headerLen n m⟩ := if_pos ⟨hn, h⟩

theorem callAt_of_not_valid (h : ¬ b.Valid n m) : b.callAt (n, m) = none :=
  if_neg fun hvalid => h hvalid.2

theorem recvStep_of_not_valid (hn : n < b.rlen) (h : ¬ b.Valid n m) :
    b.recvStep (n, m) = .inr (n + 1, 0) := by
  rw [recvStep, if_pos hn, if_neg h]

variable {xs : List (Nat × Nat)}

theorem run_row (hn : n < b.rlen) (hstops : b.Stops n) (hrun : Run b.recvStep (n + 1, 0) xs ()) :
    ∃ ys, Run b.recvStep (n, 0) ys () ∧ b.calls (n, 0) ys =
      b.rowCalls n ++ b.calls (n + 1, 0) xs := by
  by_cases hvalid : b.Valid n 0
  · by_cases hshort : b.headerLen n 0 < b.msgLen n
    · have hstop := hstops hvalid hshort
      have hturn : b.recvStep (n, 0) = .inr (n, b.msgLen n) := by
        rw [recvStep, if_pos hn, if_pos hvalid, if_pos hshort, Nat.zero_add]
      refine ⟨_, .next hturn (.next (recvStep_of_not_valid hn hstop) hrun), ?_⟩
      simp [filterMap_cons, rowCalls, callAt_of_valid hn hvalid, callAt_of_not_valid hstop]
    · have hturn : b.recvStep (n, 0) = .inr (n + 1, 0) := by
        rw [recvStep, if_pos hn, if_pos hvalid, if_neg hshort]
      refine ⟨_, .next hturn hrun, ?_⟩
      simp [rowCalls, callAt_of_valid hn hvalid]
  · refine ⟨_, .next (recvStep_of_not_valid hn hvalid) hrun, ?_⟩
    simp [rowCalls, callAt_of_not_valid hvalid]

theorem mem_calls_cons {x y : Nat × Nat} {xs : List (Nat × Nat)} {c : Call}
    (h : c ∈ b.calls y xs) : c ∈ b.calls x (y :: xs) := by
  obtain ⟨z, hz, hcall⟩ := mem_filterMap.mp h
  exact mem_filterMap.mpr ⟨z, mem_cons_of_mem _ hz, hcall⟩

/-- A header behind the datagram is passed with a range that is not inside. -/
theorem stops_of_run (hn : n < b.rlen) (hrun : Run b.recvStep (n, 0) xs ())
    (hinside : ∀ c ∈ b.calls (n, 0) xs, b.Inside c) :
    b.Stops n ∧ ∃ ys, Run b.recvStep (n + 1, 0) ys () ∧
      ∀ c ∈ b.calls (n + 1, 0) ys, b.Inside c := by
  by_cases hshort : b.Valid n 0 ∧ b.headerLen n 0 < b.msgLen n
  · have hturn : b.recvStep (n, 0) = .inr (n, b.msgLen n) := by
      rw [recvStep, if_pos hn, if_pos hshort.1, if_pos hshort.2, Nat.zero_add]
    obtain ⟨ys, rfl, hbehind⟩ := hrun.of_next hturn
    have hstop : ¬ b.Valid n (b.msgLen n) := by
      intro hvalid
      have hout : b.msgLen n + b.headerLen n (b.msgLen n) ≤ b.msgLen n :=
        (hinside _ (mem_filterMap.mpr
          ⟨(n, b.msgLen n), by simp, callAt_of_valid hn hvalid⟩)).2
      have hpos := hvalid.1
      omega
    obtain ⟨zs, rfl, hlater⟩ := hbehind.of_next (recvStep_of_not_valid hn hstop)
    exact ⟨fun _ _ => hstop, zs, hlater, fun c hc => hinside c (mem_calls_cons (mem_calls_cons hc))⟩
  · have hturn : b.recvStep (n, 0) = .inr (n + 1, 0) := by
      by_cases hvalid : b.Valid n 0
      · rw [recvStep, if_pos hn, if_pos hvalid, if_neg fun hlt => hshort ⟨hvalid, hlt⟩]
      · exact recvStep_of_not_valid hn hvalid
    obtain ⟨ys, rfl, hlater⟩ := hrun.of_next hturn
    exact ⟨fun hvalid hlt => absurd ⟨hvalid, hlt⟩ hshort, ys, hlater,
      fun c hc => hinside c (mem_calls_cons hc)⟩

theorem mem_rowCalls {c : Call} (h : c ∈ b.rowCalls n) :
    n < b.rlen ∧ b.Valid n 0 ∧ c = ⟨n, 0, b.headerLen n 0⟩ := by
  by_cases hcall : n < b.rlen ∧ b.Valid n 0
  · rw [rowCalls, callAt_of_valid hcall.1 hcall.2, Option.mem_toList] at h
    exact ⟨hcall.1, hcall.2, (Option.some.inj h).symm⟩
  · rw [rowCalls, callAt, if_neg hcall] at h
    cases h

theorem filter_rowCalls (k : Nat) :
    (b.rowCalls n).filter (·.n = k) = if n = k then b.rowCalls k else [] := by
  by_cases hk : n = k
  · subst hk
    rw [if_pos rfl, filter_eq_self]
    intro c hc
    simp [(mem_rowCalls hc).2.2]
  · rw [if_neg hk, filter_eq_nil_iff]
    intro c hc
    simpa [(mem_rowCalls hc).2.2] using hk

/-! ## 2. The batch -/

theorem run_rows (hstops : ∀ k < b.rlen, b.Stops k) :
    ∀ left n, n + left = b.rlen → ∃ xs, Run b.recvStep (n, 0) xs () ∧
      b.calls (n, 0) xs = (range' n left).flatMap b.rowCalls
  | 0, n, hleft => by
    have hend : ¬ n < b.rlen := by omega
    exact ⟨[], .exit (if_neg hend), by simp [callAt, hend]⟩
  | left + 1, n, hleft => by
    obtain ⟨xs, hrun, hcalls⟩ := run_rows hstops left (n + 1) (by omega)
    obtain ⟨ys, hrun', hcalls'⟩ := run_row (by omega) (hstops n (by omega)) hrun
    exact ⟨ys, hrun', by rw [hcalls', hcalls, range'_succ, flatMap_cons]⟩

theorem stops_of_run_all : ∀ left n, n + left = b.rlen → ∀ {xs : List (Nat × Nat)},
    Run b.recvStep (n, 0) xs () → (∀ c ∈ b.calls (n, 0) xs, b.Inside c) →
      ∀ k, n ≤ k → k < b.rlen → b.Stops k
  | 0, n, hleft, _, _, _, k, hk, hk' => by omega
  | left + 1, n, hleft, _, hrun, hinside, k, hk, hk' => by
    obtain ⟨hstops, ys, hrun', hinside'⟩ := stops_of_run (by omega) hrun hinside
    rcases Nat.eq_or_lt_of_le hk with rfl | hk
    · exact hstops
    · exact stops_of_run_all left (n + 1) (by omega) hrun' hinside' k hk hk'

theorem filter_rows (k : Nat) : ∀ rows : Nat,
    ((range rows).flatMap b.rowCalls).filter (·.n = k) =
      if k < rows then b.rowCalls k else []
  | 0 => by simp
  | rows + 1 => by
    rw [range_succ, flatMap_append, filter_append, filter_rows k rows,
      flatMap_singleton, filter_rowCalls]
    rcases Nat.lt_trichotomy k rows with hk | rfl | hk
    · rw [if_pos hk, if_neg (by omega), if_pos (by omega), append_nil]
    · rw [if_neg (Nat.lt_irrefl k), if_pos rfl, if_pos (Nat.lt_succ_self k), nil_append]
    · rw [if_neg (by omega), if_neg (by omega), if_neg (by omega), append_nil]

theorem splits_iff_rows (hstops : ∀ k < b.rlen, b.Stops k) :
    b.Splits ↔ ∀ n < b.rlen, ∀ packets : List (List UInt8),
      (∀ p ∈ packets, IsPacket p) → b.datagram n = packets.flatten →
        b.rowCalls n = callsFor n 0 packets := by
  obtain ⟨xs, hrun, hcalls⟩ := run_rows hstops b.rlen 0 (Nat.zero_add _)
  rw [← range_eq_range'] at hcalls
  have hrow : ∀ n < b.rlen,
      (b.calls (0, 0) xs).filter (·.n = n) = b.rowCalls n := by
    intro n hn
    rw [hcalls, filter_rows, if_pos hn]
  constructor
  · rintro ⟨ys, hrun', -, hpackets⟩ n hn
    obtain ⟨rfl, -⟩ := hrun.unique hrun'
    rw [← hrow n hn]
    exact hpackets n hn
  · intro hpackets
    refine ⟨xs, hrun, fun c hc => ?_, fun n hn => ?_⟩
    · rw [hcalls] at hc
      obtain ⟨n, -, hc⟩ := mem_flatMap.mp hc
      obtain ⟨hn, hvalid, rfl⟩ := mem_rowCalls hc
      exact ⟨hn, (Nat.zero_add _).trans_le hvalid.2.2⟩
    · rw [hrow n hn]
      exact hpackets n hn

theorem headerLen_zero (h : 4 ≤ b.msgLen n) :
    b.headerLen n 0 = be16 ((b.datagram n).getD 2 0) ((b.datagram n).getD 3 0) := by
  have hbyte : ∀ i < 4, b.byte (4096 * n + 0 + i) = (b.datagram n).getD i 0 := by
    intro i hi
    have hrow : (4096 * n + 0 + i) / 4096 = n := by omega
    have hcol : (4096 * n + 0 + i) % 4096 = i := by omega
    have hlen : i < (b.datagram n).length := Nat.lt_of_lt_of_le hi h
    rw [byte, hrow, hcol, getD_eq_getElem _ _ hlen, getD_eq_getElem _ _ hlen]
  rw [headerLen, hbyte 2 (by decide), hbyte 3 (by decide)]

theorem rowCalls_eq_iff (hn : n < b.rlen) {packets : List (List UInt8)}
    (hpackets : ∀ p ∈ packets, IsPacket p) (hflat : b.datagram n = packets.flatten) :
    b.rowCalls n = callsFor n 0 packets ↔ (b.Valid n 0 → b.headerLen n 0 = b.msgLen n) := by
  cases packets with
  | nil =>
    have hlen : b.msgLen n = 0 := by rw [msgLen, hflat]; rfl
    have hvalid : ¬ b.Valid n 0 := fun h => by
      have h20 := h.1
      have hle := h.2.2
      omega
    simp [rowCalls, callAt_of_not_valid hvalid, hvalid, callsFor]
  | cons p ps =>
    obtain ⟨h20, h4096, hfield⟩ := hpackets p mem_cons_self
    have hlen : b.msgLen n = p.length + ps.flatten.length := by
      rw [msgLen, hflat, flatten_cons, length_append]
    have hheader : b.headerLen n 0 = p.length := by
      rw [headerLen_zero (by omega), hflat, flatten_cons,
        getD_append _ _ _ _ (by omega), getD_append _ _ _ _ (by omega), hfield]
    have hvalid : b.Valid n 0 := by
      unfold Valid
      omega
    rw [rowCalls, callAt_of_valid hn hvalid, hheader, hlen]
    cases ps with
    | nil => simp [callsFor]
    | cons q qs =>
      have hq := (hpackets q (by simp)).1
      refine iff_of_false (fun hone => absurd hone (by simp [callsFor])) fun hspan => ?_
      have hall := hspan hvalid
      rw [flatten_cons, length_append] at hall
      omega

theorem fine_of_splits (h : b.Splits) (hn : n < b.rlen) : b.Fine n := by
  obtain ⟨xs, hrun, hinside, -⟩ := id h
  have hstops := fun k => stops_of_run_all b.rlen 0 (Nat.zero_add _) hrun hinside k
    (Nat.zero_le k)
  have hrows := (splits_iff_rows hstops).mp h
  by_cases hvalid : b.Valid n 0
  · refine .inr (or_iff_not_imp_left.mpr fun hspan => ⟨?_, ?_⟩)
    · rintro ⟨packets, hpackets, hflat⟩
      exact hspan ((rowCalls_eq_iff hn hpackets hflat).mp
        (hrows n hn packets hpackets hflat) hvalid)
    · exact hstops n hn hvalid (Nat.lt_of_le_of_ne hvalid.2.2 hspan)
  · exact .inl hvalid

/-- A batch is taken apart EXACTLY if each of its datagrams is fine. -/
theorem batch_splits_iff (b : Batch) : b.Splits ↔ ∀ n < b.rlen, b.Fine n := by
  refine ⟨fun h n hn => fine_of_splits h hn, fun hfine => ?_⟩
  have hstops : ∀ k < b.rlen, b.Stops k := by
    intro k hk hvalid hshort
    rcases hfine k hk with hrefused | hspan | hrest
    · exact absurd hvalid hrefused
    · exact absurd hspan (Nat.ne_of_lt hshort)
    · exact hrest.2
  refine (splits_iff_rows hstops).mpr fun n hn packets hpackets hflat => ?_
  rw [rowCalls_eq_iff hn hpackets hflat]
  intro hvalid
  rcases hfine n hn with hrefused | hspan | hrest
  · exact absurd hvalid hrefused
  · exact hspan
  · exact absurd ⟨packets, hpackets, hflat⟩ hrest.1

def accessRequest : List UInt8 := [1, 0, 0, 20] ++ replicate 16 0

def twoRequests : Batch :=
  ⟨[accessRequest ++ accessRequest], fun _ => 0, by decide, by decide⟩

theorem two_requests_not_split : ¬ twoRequests.Splits := by
  intro hsplits
  have hpacket : IsPacket accessRequest := by
    unfold IsPacket
    decide
  rcases fine_of_splits hsplits (show 0 < 1 by decide) with hrefused | hspan | hrest
  · exact hrefused (by decide)
  · cases hspan
  · exact hrest.1 ⟨[accessRequest, accessRequest], by simp [hpacket], rfl⟩

end Batch

end MixiPgw.Radius
