/-
# Bursts

A handler that goes over several packets in a loop. Its local variables live across the turns, and
a turn may leave it. `burst` is the loop; `oneByOne` is the handler called once for each packet,
with fresh variables each time.

`burst_eq_oneByOne_iff` is the rule for showing that the two do the same, on the packets and on
every beginning of them: EXACTLY if each turn does what it would do with fresh variables, and
leaves the loop only in front of packets that do nothing. Of the packets as a whole the condition
is only enough: what one turn does differently another may make up for.
-/

namespace MixiPgw.Lib

open List

/-- One turn of a loop: the local variables, the state, and whether the loop goes on. -/
abbrev Turn (υ σ α : Type) := υ → σ → α → υ × σ × Bool

section

variable {υ σ α : Type} (turn : Turn υ σ α)

def burst : υ → σ → List α → σ
  | _, s, [] => s
  | v, s, x :: xs =>
    let next := turn v s x
    if next.2.2 then burst next.1 next.2.1 xs else next.2.1

def oneByOne (start : υ) (s : σ) (xs : List α) : σ :=
  xs.foldl (fun s x => burst turn start s [x]) s

/-- `C` holds in every turn of the loop, of the packet and those behind it. -/
def EachTurn (C : υ → σ → α → List α → Prop) : υ → σ → List α → Prop
  | _, _, [] => True
  | v, s, x :: xs =>
    C v s x xs ∧
      ((turn v s x).2.2 = true → EachTurn C (turn v s x).1 (turn v s x).2.1 xs)

/-- The turn does what it does with fresh variables; if it leaves the loop, the packets behind it
would have done nothing. -/
def AsAlone (start v : υ) (s : σ) (x : α) (behind : List α) : Prop :=
  (turn v s x).2.1 = (turn start s x).2.1 ∧
    ((turn v s x).2.2 = true ∨
      ∀ y ∈ behind, (turn start (turn v s x).2.1 y).2.1 = (turn v s x).2.1)

variable {turn}

theorem burst_singleton (v : υ) (s : σ) (x : α) : burst turn v s [x] = (turn v s x).2.1 := by
  unfold burst burst
  exact ite_self _

theorem oneByOne_cons (start : υ) (s : σ) (x : α) (xs : List α) :
    oneByOne turn start s (x :: xs) = oneByOne turn start (turn start s x).2.1 xs := by
  unfold oneByOne
  rw [foldl_cons, burst_singleton]

theorem oneByOne_concat (start : υ) (s : σ) (xs : List α) (x : α) :
    oneByOne turn start s (xs ++ [x]) = (turn start (oneByOne turn start s xs) x).2.1 := by
  unfold oneByOne
  rw [foldl_append]
  exact burst_singleton start _ x

/-- All beginnings of a list leave the state alone exactly if each of its packets does. -/
theorem oneByOne_idle_iff {start : υ} {s : σ} {xs : List α} :
    (∀ pre, pre <+: xs → s = oneByOne turn start s pre) ↔
      ∀ x ∈ xs, (turn start s x).2.1 = s := by
  constructor
  · intro h x hx
    obtain ⟨before, behind, rfl⟩ := append_of_mem hx
    have hbefore := h before (prefix_append _ _)
    have hwith := h (before ++ [x]) ⟨behind, by simp⟩
    rw [oneByOne_concat, ← hbefore] at hwith
    exact hwith.symm
  · rintro h pre ⟨rest, rfl⟩
    induction pre with
    | nil => rfl
    | cons x pre ih =>
      rw [oneByOne_cons, h x (by simp)]
      exact ih fun y hy => h y (mem_cons_of_mem x hy)

theorem burst_eq_oneByOne_iff {start : υ} :
    ∀ {xs : List α} {v : υ} {s : σ},
      (∀ pre, pre <+: xs → burst turn v s pre = oneByOne turn start s pre) ↔
        EachTurn turn (AsAlone turn start) v s xs := by
  intro xs
  induction xs with
  | nil =>
    refine fun {v s} => iff_of_true (fun pre hpre => ?_) trivial
    rw [prefix_nil.mp hpre]
    rfl
  | cons x xs ih =>
    intro v s
    have hbegin : (∀ pre, pre <+: x :: xs → burst turn v s pre = oneByOne turn start s pre) ↔
        ∀ pre, pre <+: xs →
          burst turn v s (x :: pre) = oneByOne turn start (turn start s x).2.1 pre := by
      constructor
      · intro h pre hpre
        rw [← oneByOne_cons]
        exact h (x :: pre) (cons_prefix_cons.mpr ⟨rfl, hpre⟩)
      · intro h pre hpre
        rcases prefix_cons_iff.mp hpre with rfl | ⟨pre', rfl, hpre'⟩
        · rfl
        · rw [oneByOne_cons]
          exact h pre' hpre'
    have hfirst : (∀ pre, pre <+: xs →
          burst turn v s (x :: pre) = oneByOne turn start (turn start s x).2.1 pre) →
        (turn v s x).2.1 = (turn start s x).2.1 :=
      fun h => (burst_singleton v s x).symm.trans (h [] nil_prefix)
    rw [hbegin]
    unfold EachTurn AsAlone
    by_cases hsame : (turn v s x).2.1 = (turn start s x).2.1
    · rw [← hsame]
      by_cases hgo : (turn v s x).2.2 = true
      · simp only [burst, hgo, if_true, true_or, and_self, true_and, forall_const]
        exact ih
      · simp only [burst, hgo, Bool.false_eq_true, if_false, false_or, true_and, false_imp_iff,
          and_true]
        exact oneByOne_idle_iff
    · exact iff_of_false (fun h => hsame (hfirst h)) fun h => hsame h.1.1

theorem eachTurn_congr {C D : υ → σ → α → List α → Prop}
    (h : ∀ v s x behind, C v s x behind ↔ D v s x behind) {v : υ} {s : σ} {xs : List α} :
    EachTurn turn C v s xs ↔ EachTurn turn D v s xs := by
  induction xs generalizing v s with
  | nil => exact Iff.rfl
  | cons x xs ih => exact and_congr (h v s x xs) (imp_congr_right fun _ => ih)

end

end MixiPgw.Lib
