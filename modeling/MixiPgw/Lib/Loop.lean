/-
# Loops without a bound

A loop whose body either leaves with a result or goes on in a new state. `iterate` runs it for a
number of turns, `Run` is a finished execution with the states behind each turn that went on, and
`Reach` is what it can get to.

`run_forall_iff`: where a property of a turn makes the turn go down a measure, the loop finishes
with every turn having it if and only if every state it reaches has it.
-/
import Mathlib.Data.Finset.Card
import Mathlib.Data.Nat.Find
import Mathlib.Logic.Function.Iterate
import Mathlib.Logic.Relation

namespace MixiPgw.Lib.Loop

open List

variable {σ ρ : Type} {step : σ → ρ ⊕ σ}

/-- At most `n` turns; `none` while the loop goes on. -/
def iterate (step : σ → ρ ⊕ σ) : Nat → σ → Option ρ
  | 0, _ => none
  | n + 1, s =>
    match step s with
    | .inl r => some r
    | .inr s' => iterate step n s'

/-- A finished run: the states behind the turns that went on, and the result. -/
inductive Run (step : σ → ρ ⊕ σ) : σ → List σ → ρ → Prop
  | exit {s : σ} {r : ρ} (h : step s = .inl r) : Run step s [] r
  | next {s s' : σ} {ss : List σ} {r : ρ} (h : step s = .inr s') (tail : Run step s' ss r) :
      Run step s (s' :: ss) r

def Reach (step : σ → ρ ⊕ σ) : σ → σ → Prop := Relation.ReflTransGen fun x y => step x = .inr y

variable {s : σ} {r : ρ}

theorem iterate_exit (h : step s = .inl r) (n : Nat) : iterate step (n + 1) s = some r := by
  simp only [iterate, h]

theorem iterate_next {s s' : σ} (h : step s = .inr s') (n : Nat) :
    iterate step (n + 1) s = iterate step n s' := by
  simp only [iterate, h]

theorem iterate_of_fixed (h : step s = .inr s) (n : Nat) : iterate step n s = none := by
  induction n with
  | zero => rfl
  | succ n ih => exact (iterate_next h n).trans ih

variable {ss : List σ}

theorem Run.iterate (h : Run step s ss r) : ∀ n, ss.length < n → iterate step n s = some r := by
  induction h with
  | exit hexit =>
    intro n hn
    obtain ⟨m, rfl⟩ := Nat.exists_eq_succ_of_ne_zero (Nat.ne_of_gt hn)
    exact iterate_exit hexit m
  | next hstep _ ih =>
    intro n hn
    obtain ⟨m, rfl⟩ := Nat.exists_eq_succ_of_ne_zero (Nat.ne_of_gt (Nat.zero_lt_of_lt hn))
    exact (iterate_next hstep m).trans (ih m (Nat.lt_of_succ_lt_succ hn))

variable {x : σ}

theorem Run.reach_mem (h : Run step s ss r) (hx : Reach step s x) : x ∈ s :: ss := by
  induction h with
  | exit hexit =>
    rcases hx.cases_head with rfl | ⟨y, hstep, -⟩
    · exact mem_cons_self
    · exact absurd (hexit.symm.trans hstep) (by simp)
  | next hstep _ ih =>
    rcases hx.cases_head with rfl | ⟨y, hstep', hyx⟩
    · exact mem_cons_self
    · obtain rfl := Sum.inr.inj (hstep.symm.trans hstep')
      exact mem_cons_of_mem _ (ih hyx)

theorem run_forall_iff {P : σ → Prop} (μ : σ → Nat)
    (hdown : ∀ s s', P s → step s = .inr s' → μ s' < μ s) :
    (∃ ss r, Run step s ss r ∧ ∀ x ∈ s :: ss, P x) ↔ ∀ x, Reach step s x → P x := by
  constructor
  · rintro ⟨ss, r, hrun, hP⟩ x hx
    exact hP x (hrun.reach_mem hx)
  · intro hP
    induction hm : μ s using Nat.strongRecOn generalizing s with
    | ind m ih =>
      have hs : P s := hP s .refl
      cases hstep : step s with
      | inl r =>
        refine ⟨[], r, .exit hstep, fun x hx => ?_⟩
        obtain rfl := mem_singleton.mp hx
        exact hs
      | inr s' =>
        obtain ⟨ss, r, hrun, hss⟩ := ih (μ s') (hm ▸ hdown s s' hs hstep)
          (fun x hx => hP x (.head hstep hx)) rfl
        refine ⟨s' :: ss, r, .next hstep hrun, fun x hx => ?_⟩
        rcases mem_cons.mp hx with rfl | hx
        · exact hs
        · exact hss x hx

theorem Run.result_eq {r r' : ρ} (h : Run step s ss r)
    (hx : Reach step s x) (hexit : step x = .inl r') : r = r' := by
  induction h with
  | exit hs =>
    rcases hx.cases_head with rfl | ⟨y, hstep, -⟩
    · exact Sum.inl.inj (hs.symm.trans hexit)
    · exact absurd (hs.symm.trans hstep) (by simp)
  | next hs _ ih =>
    rcases hx.cases_head with rfl | ⟨y, hstep, hyx⟩
    · exact absurd (hs.symm.trans hexit) (by simp)
    · obtain rfl := Sum.inr.inj (hs.symm.trans hstep)
      exact ih hyx

theorem Run.exists_exit (h : Run step s ss r) : ∃ x, Reach step s x ∧ step x = .inl r := by
  induction h with
  | exit hs => exact ⟨_, .refl, hs⟩
  | next hs _ ih =>
    obtain ⟨x, hx, hexit⟩ := ih
    exact ⟨x, .head hs hx, hexit⟩

theorem exists_run_of_iterate : ∀ {n : Nat} {s : σ}, iterate step n s = some r →
    ∃ ss, Run step s ss r
  | 0, _, h => absurd h (by simp [iterate])
  | n + 1, s, h => by
    cases hstep : step s with
    | inl r' =>
      rw [iterate_exit hstep] at h
      obtain rfl := Option.some.inj h
      exact ⟨[], .exit hstep⟩
    | inr s' =>
      rw [iterate_next hstep] at h
      obtain ⟨ss, hss⟩ := exists_run_of_iterate h
      exact ⟨s' :: ss, .next hstep hss⟩

theorem Run.unique {ss ss' : List σ} {r r' : ρ} (h : Run step s ss r)
    (h' : Run step s ss' r') : ss = ss' ∧ r = r' := by
  induction h generalizing ss' with
  | exit hexit =>
    cases h' with
    | exit hexit' => exact ⟨rfl, Sum.inl.inj (hexit.symm.trans hexit')⟩
    | next hnext' _ => exact absurd (hexit.symm.trans hnext') (by simp)
  | next hnext _ ih =>
    cases h' with
    | exit hexit' => exact absurd (hnext.symm.trans hexit') (by simp)
    | next hnext' htail' =>
      obtain rfl := Sum.inr.inj (hnext.symm.trans hnext')
      obtain ⟨rfl, rfl⟩ := ih htail'
      exact ⟨rfl, rfl⟩

theorem Run.of_next {s' : σ} (h : Run step s ss r) (hstep : step s = .inr s') :
    ∃ tail, ss = s' :: tail ∧ Run step s' tail r := by
  cases h with
  | exit hexit => exact absurd (hexit.symm.trans hstep) (by simp)
  | next hnext htail =>
    obtain rfl := Sum.inr.inj (hnext.symm.trans hstep)
    exact ⟨_, rfl, htail⟩

variable {step' : σ → ρ ⊕ σ}

theorem Run.congr (h : Run step s ss r)
    (hsame : ∀ x, Reach step s x → step' x = step x) : Run step' s ss r := by
  induction h with
  | exit hexit => exact .exit ((hsame _ .refl).trans hexit)
  | next hnext _ ih =>
    exact .next ((hsame _ .refl).trans hnext) (ih fun x hx => hsame x (.head hnext hx))

theorem Run.mem_reach (h : Run step s ss r) (hx : x ∈ s :: ss) : Reach step s x := by
  induction h with
  | exit _ =>
    obtain rfl := mem_singleton.mp hx
    exact .refl
  | next hnext _ ih =>
    rcases mem_cons.mp hx with rfl | hx
    · exact .refl
    · exact .head hnext (ih hx)

theorem Reach.of_congr (h : Reach step' s x)
    (hsame : ∀ y, Reach step s y → step' y = step y) : Reach step s x := by
  induction h with
  | refl => exact .refl
  | tail _ hnext ih => exact .tail ih ((hsame _ ih).symm.trans hnext)

/-- With `bound` places in front of the end, the end comes within `bound` turns or never. -/
theorem exists_iterate_le {α : Type} {f : α → α} {x : α} {P : α → Prop} {bound : Nat}
    {m : α → Nat} (hinj : ∀ y z, m y = m z → y = z) (hm : ∀ y, ¬ P y → m y < bound)
    (h : ∃ k, P (f^[k] x)) : ∃ k ≤ bound, P (f^[k] x) := by
  classical
  refine ⟨Nat.find h, ?_, Nat.find_spec h⟩
  have hinside : ∀ i ∈ Finset.range (Nat.find h), m (f^[i] x) ∈ Finset.range bound := by
    intro i hi
    exact Finset.mem_range.mpr (hm _ (Nat.find_min h (Finset.mem_range.mp hi)))
  -- a place met twice gives a shorter way to the end
  have honce : ∀ i j, i < j → j < Nat.find h → m (f^[i] x) ≠ m (f^[j] x) := by
    intro i j hij hj hsame
    have hshort : f^[Nat.find h - j + i] x = f^[Nat.find h] x := by
      rw [Function.iterate_add_apply, hinj _ _ hsame, ← Function.iterate_add_apply,
        Nat.sub_add_cancel hj.le]
    exact Nat.find_min h (m := Nat.find h - j + i) (by omega) (hshort ▸ Nat.find_spec h)
  have hcard := Finset.card_le_card_of_injOn _ hinside fun i hi j hj hsame => by
    rcases Nat.lt_trichotomy i j with hij | hij | hij
    · exact absurd hsame (honce i j hij (Finset.mem_range.mp hj))
    · exact hij
    · exact absurd hsame.symm (honce j i hij (Finset.mem_range.mp hi))
  simpa using hcard

end MixiPgw.Lib.Loop
