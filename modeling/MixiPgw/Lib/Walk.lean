/-
# Walks along a cursor

A loop over elements that carry their own size: the cursor stands on an element, the body does
something with it and moves the cursor behind it, up to a bound. Nothing but the elements says that
the cursor moves at all.

`Visits` are the cursors of a finished walk; its result is the effect of the body at each of them in
order (`exec_eq_some_iff`). A walk finishes exactly if it comes to no element of size zero
(`finishes_iff`). `EndsWithin` is for a cursor of limited width.
-/
import MixiPgw.Lib.Loop
import Mathlib.Data.List.Pairwise

namespace MixiPgw.Lib

open Loop List

/-! ## 1. The loop -/

/-- A walk: the bound, where the body leaves the loop, what it does to the state, and by how much
it moves the cursor. -/
structure Walk (σ : Type) where
  bound : Nat
  leaves : Nat → Bool
  effect : Nat → σ → σ
  stride : Nat → Nat

namespace Walk

variable {σ : Type} {w : Walk σ} {n m : Nat} {s : σ} {ns : List Nat} {b : Bool}

/-- One turn. The result says whether the walk came to its bound. -/
def step (w : Walk σ) : Nat × σ → (Bool × σ) ⊕ (Nat × σ)
  | (n, s) =>
    if n < w.bound then
      if w.leaves n then .inl (false, w.effect n s)
      else .inr (n + w.stride n, w.effect n s)
    else .inl (true, s)

theorem step_bound (h : w.bound ≤ n) : w.step (n, s) = .inl (true, s) := by
  simp only [step, if_neg (Nat.not_lt.mpr h)]

theorem step_leave (h : n < w.bound) (hl : w.leaves n = true) :
    w.step (n, s) = .inl (false, w.effect n s) := by
  simp only [step, if_pos h, hl, if_true]

theorem step_next (h : n < w.bound) (hl : w.leaves n = false) :
    w.step (n, s) = .inr (n + w.stride n, w.effect n s) := by
  simp only [step, if_pos h, hl, Bool.false_eq_true, if_false]

/-- The walk from the start; `none` if it never ends. -/
def exec (w : Walk σ) (s : σ) : Option (Bool × σ) := iterate w.step (w.bound + 1) (0, s)

/-! ## 2. The cursors -/

/-- The cursors at which the body runs, from `n` to the end, and whether the end is the bound. -/
inductive Visits (w : Walk σ) : Nat → List Nat → Bool → Prop
  | bound {n : Nat} (h : w.bound ≤ n) : Visits w n [] true
  | leave {n : Nat} (h : n < w.bound) (hl : w.leaves n = true) : Visits w n [n] false
  | next {n : Nat} {ns : List Nat} {b : Bool} (h : n < w.bound) (hl : w.leaves n = false)
      (tail : Visits w (n + w.stride n) ns b) : Visits w n (n :: ns) b

def Finishes (w : Walk σ) (n : Nat) : Prop := ∃ ns b, w.Visits n ns b

def effects (w : Walk σ) (s : σ) (ns : List Nat) : σ := ns.foldl (fun s n => w.effect n s) s

theorem Visits.unique (h : w.Visits n ns b) :
    ∀ {ns' : List Nat} {b' : Bool}, w.Visits n ns' b' → ns = ns' ∧ b = b' := by
  induction h with
  | bound h =>
    intro ns' b' h'
    cases h' with
    | bound _ => exact ⟨rfl, rfl⟩
    | leave hlt _ => omega
    | next hlt _ _ => omega
  | leave h hl =>
    intro ns' b' h'
    cases h' with
    | bound hle => omega
    | leave _ _ => exact ⟨rfl, rfl⟩
    | next _ hl' _ => simp [hl] at hl'
  | next h hl _ ih =>
    intro ns' b' h'
    cases h' with
    | bound hle => omega
    | leave _ hl' => simp [hl] at hl'
    | next _ _ tail' =>
      obtain ⟨rfl, rfl⟩ := ih tail'
      exact ⟨rfl, rfl⟩

theorem Visits.stride_pos (h : w.Visits n ns b) (hlt : n < w.bound) (hl : w.leaves n = false) :
    0 < w.stride n := by
  cases h with
  | bound hle => omega
  | leave _ hl' => simp [hl] at hl'
  | next _ _ tail =>
    by_contra h0
    have hsame : n + w.stride n = n := by omega
    rw [hsame] at tail
    have heq := (tail.unique (.next hlt hl (by rwa [hsame]))).1
    exact absurd (congrArg length heq) (by simp)

theorem Visits.le_of_mem (h : w.Visits n ns b) : ∀ m ∈ ns, n ≤ m ∧ m < w.bound := by
  induction h with
  | bound => simp
  | leave h _ =>
    intro m hm
    obtain rfl := mem_singleton.mp hm
    exact ⟨Nat.le_refl _, h⟩
  | next h _ _ ih =>
    intro m hm
    rcases mem_cons.mp hm with rfl | hm
    · exact ⟨Nat.le_refl _, h⟩
    · have := ih m hm
      exact ⟨by omega, this.2⟩

theorem Visits.pairwise (h : w.Visits n ns b) : ns.Pairwise (· < ·) := by
  induction h with
  | bound => exact .nil
  | leave => exact pairwise_singleton _ _
  | next h hl tail ih =>
    refine .cons (fun m hm => ?_) ih
    have hpos := (Visits.next h hl tail).stride_pos h hl
    have := (tail.le_of_mem m hm).1
    omega

theorem Visits.length_le (h : w.Visits n ns b) : ns.length ≤ w.bound - n := by
  induction h with
  | bound => simp
  | leave h _ =>
    rw [length_singleton]
    omega
  | next h hl tail ih =>
    have hpos := (Visits.next h hl tail).stride_pos h hl
    rw [length_cons]
    omega

theorem Visits.iterate (h : w.Visits n ns b) :
    ∀ {s : σ} {k : Nat}, ns.length < k →
      iterate w.step k (n, s) = some (b, w.effects s ns) := by
  induction h with
  | bound h =>
    intro s k hk
    obtain ⟨k, rfl⟩ := Nat.exists_eq_succ_of_ne_zero (Nat.ne_of_gt hk)
    exact iterate_exit (step_bound h) k
  | leave h hl =>
    intro s k hk
    obtain ⟨k, rfl⟩ := Nat.exists_eq_succ_of_ne_zero (Nat.ne_of_gt (Nat.zero_lt_of_lt hk))
    exact iterate_exit (step_leave h hl) k
  | next h hl _ ih =>
    intro s k hk
    obtain ⟨k, rfl⟩ := Nat.exists_eq_succ_of_ne_zero (Nat.ne_of_gt (Nat.zero_lt_of_lt hk))
    exact (iterate_next (step_next h hl) k).trans (ih (Nat.lt_of_succ_lt_succ hk))

theorem visits_of_iterate : ∀ {k n : Nat} {s : σ} {r : Bool × σ},
    iterate w.step k (n, s) = some r → ∃ ns, w.Visits n ns r.1 ∧ r.2 = w.effects s ns := by
  intro k
  induction k with
  | zero => exact fun h => absurd h (by simp [Loop.iterate])
  | succ k ih =>
    intro n s r h
    by_cases hlt : n < w.bound
    · cases hl : w.leaves n with
      | true =>
        obtain rfl := Option.some.inj ((iterate_exit (step_leave hlt hl) k).symm.trans h)
        exact ⟨[n], .leave hlt hl, rfl⟩
      | false =>
        obtain ⟨ns, hvisits, heq⟩ := ih ((iterate_next (step_next hlt hl) k).symm.trans h)
        exact ⟨n :: ns, .next hlt hl hvisits, heq⟩
    · have hle := Nat.le_of_not_lt hlt
      obtain rfl := Option.some.inj ((iterate_exit (step_bound hle) k).symm.trans h)
      exact ⟨[], .bound hle, rfl⟩

theorem exec_eq_some_iff {s' : σ} :
    w.exec s = some (b, s') ↔ ∃ ns, w.Visits 0 ns b ∧ s' = w.effects s ns := by
  constructor
  · exact visits_of_iterate
  · rintro ⟨ns, hvisits, rfl⟩
    have := hvisits.length_le
    exact hvisits.iterate (by omega)

/-! ## 3. When a walk finishes -/

def Next (w : Walk σ) (n m : Nat) : Prop :=
  n < w.bound ∧ w.leaves n = false ∧ m = n + w.stride n

/-- The cursors a walk gets to. -/
def Comes (w : Walk σ) : Nat → Nat → Prop := Relation.ReflTransGen w.Next

theorem Visits.comes (h : w.Visits n ns b) (hcome : w.Comes n m) : w.Finishes m := by
  induction hcome with
  | refl => exact ⟨ns, b, h⟩
  | tail _ hnext ih =>
    obtain ⟨hlt, hl, rfl⟩ := hnext
    obtain ⟨ns', b', h'⟩ := ih
    cases h' with
    | bound hle => omega
    | leave _ hl' => simp [hl] at hl'
    | next _ _ tail => exact ⟨_, _, tail⟩

theorem finishes_iff :
    w.Finishes n ↔ ∀ m, w.Comes n m → m < w.bound → w.leaves m = false → 0 < w.stride m := by
  constructor
  · rintro ⟨ns, b, h⟩ m hcome hlt hl
    obtain ⟨ns', b', h'⟩ := h.comes hcome
    exact h'.stride_pos hlt hl
  · intro hmoves
    induction hk : w.bound - n using Nat.strongRecOn generalizing n with
    | ind k ih =>
      by_cases hlt : n < w.bound
      · cases hl : w.leaves n with
        | true => exact ⟨[n], false, .leave hlt hl⟩
        | false =>
          have hpos := hmoves n .refl hlt hl
          obtain ⟨ns, b, h⟩ := ih (w.bound - (n + w.stride n)) (by omega)
            (fun m hm => hmoves m (.head ⟨hlt, hl, rfl⟩ hm)) rfl
          exact ⟨n :: ns, b, .next hlt hl h⟩
      · exact ⟨[], true, .bound (Nat.le_of_not_lt hlt)⟩

/-! ## 4. A cursor of limited width -/

/-- The walk ends, its cursors increase, and wherever it goes on the cursor stays below the
limit. -/
def EndsWithin (w : Walk σ) (limit : Nat) : Prop :=
  ∃ ns b, w.Visits 0 ns b ∧ ns.Pairwise (· < ·) ∧
    ∀ n ∈ ns, w.leaves n = false → n + w.stride n < limit

variable {limit : Nat}

theorem endsWithin_iff (hfit : ∀ n < w.bound, w.leaves n = false → n + w.stride n < limit) :
    w.EndsWithin limit ↔
      ∀ m, w.Comes 0 m → m < w.bound → w.leaves m = false → 0 < w.stride m := by
  rw [← finishes_iff]
  constructor
  · rintro ⟨ns, b, h, -, -⟩
    exact ⟨ns, b, h⟩
  · rintro ⟨ns, b, h⟩
    exact ⟨ns, b, h, h.pairwise, fun n hn hl => hfit n (h.le_of_mem n hn).2 hl⟩

theorem Visits.exists_beyond (h : w.Visits n ns b) (hl : ∀ m, w.leaves m = false)
    (hbound : limit ≤ w.bound) (hn : n < limit) : ∃ m ∈ ns, limit ≤ m + w.stride m := by
  induction h with
  | bound hle => omega
  | leave _ hleave => simp [hl] at hleave
  | @next n ns b _ _ _ ih =>
    by_cases hlt : n + w.stride n < limit
    · obtain ⟨m, hm, hbeyond⟩ := ih hlt
      exact ⟨m, mem_cons_of_mem _ hm, hbeyond⟩
    · exact ⟨n, mem_cons_self, Nat.le_of_not_lt hlt⟩

theorem not_endsWithin (hl : ∀ m, w.leaves m = false) (hpos : 0 < limit)
    (hbound : limit ≤ w.bound) : ¬ w.EndsWithin limit := by
  rintro ⟨ns, b, h, -, hfit⟩
  obtain ⟨m, hm, hbeyond⟩ := h.exists_beyond hl hbound hpos
  exact absurd (hfit m hm (hl m)) (Nat.not_lt.mpr hbeyond)

end Walk

end MixiPgw.Lib
