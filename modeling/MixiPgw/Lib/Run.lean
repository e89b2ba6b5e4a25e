/-
# Runs of a state machine

A machine is a function `step` from a state and an event to the next state; `none` means that the
machine has stopped for good. A run is the list of its events.

* `throughout_iff_eachStep` is the EXACT rule, for a condition that a step needs to keep the
  invariant; `throughout_of_eachStep` is the rule for an invariant that is stronger than what is
  asked for.
* `foldlM_invariant` is the rule for the state a whole run ends in.
-/

namespace MixiPgw.Lib

open List Option

section

variable {σ ε : Type} (step : σ → ε → Option σ)

/-- `P` holds in the first state of a run and after each of its events. -/
def Throughout (P : σ → Prop) : σ → List ε → Prop
  | s, [] => P s
  | s, e :: es => P s ∧ ∀ s', step s e = some s' → Throughout P s' es

/-- Every event of a run meets `C` in the state it finds. -/
def EachStep (C : σ → ε → Prop) : σ → List ε → Prop
  | _, [] => True
  | s, e :: es => ∀ s', step s e = some s' → C s e ∧ EachStep C s' es

/-- Both predicates can be evaluated on a run. -/
instance Throughout.decidable (P : σ → Prop) [DecidablePred P] :
    ∀ (s : σ) (es : List ε), Decidable (Throughout step P s es)
  | s, [] => inferInstanceAs (Decidable (P s))
  | s, e :: es =>
    have := fun s' => Throughout.decidable P s' es
    inferInstanceAs (Decidable (P s ∧ ∀ s' ∈ step s e, Throughout step P s' es))

instance EachStep.decidable (C : σ → ε → Prop) [∀ s e, Decidable (C s e)] :
    ∀ (s : σ) (es : List ε), Decidable (EachStep step C s es)
  | _, [] => inferInstanceAs (Decidable True)
  | s, e :: es =>
    have := fun s' => EachStep.decidable C s' es
    inferInstanceAs (Decidable (∀ s' ∈ step s e, C s e ∧ EachStep step C s' es))

variable {step}

variable {P : σ → Prop} {s : σ}

theorem Throughout.head : ∀ {es : List ε}, Throughout step P s es → P s
  | [], h => h
  | _ :: _, h => h.1

theorem Throughout.last :
    ∀ {es : List ε} {s s' : σ}, Throughout step P s es → es.foldlM step s = some s' → P s'
  | [], _, _, h, hrun => some.inj hrun ▸ h
  | _ :: _, _, _, h, hrun => by
    rw [foldlM_cons] at hrun
    obtain ⟨s₁, hs₁, hrest⟩ := bind_eq_some_iff.mp hrun
    exact (h.2 s₁ hs₁).last hrest

/-- The exact rule, under a side condition `A` that every event is known to meet. -/
theorem throughout_iff_eachStep {A C : σ → ε → Prop}
    (hstep : ∀ s e s', P s → A s e → step s e = some s' → (P s' ↔ C s e)) :
    ∀ {es : List ε} {s : σ}, P s → EachStep step A s es →
      (Throughout step P s es ↔ EachStep step C s es)
  | [], _, hs, _ => iff_of_true hs trivial
  | e :: _, s, hs, ha => by
    constructor
    · intro h s' hs'
      obtain ⟨hae, ha'⟩ := ha s' hs'
      have hnext : P s' := (h.2 s' hs').head
      exact ⟨(hstep s e s' hs hae hs').mp hnext,
        (throughout_iff_eachStep hstep hnext ha').mp (h.2 s' hs')⟩
    · intro h
      refine ⟨hs, fun s' hs' => ?_⟩
      obtain ⟨hae, ha'⟩ := ha s' hs'
      have hnext : P s' := (hstep s e s' hs hae hs').mpr (h s' hs').1
      exact (throughout_iff_eachStep hstep hnext ha').mpr (h s' hs').2

theorem Throughout.mono {P Q : σ → Prop} (hPQ : ∀ s, P s → Q s) :
    ∀ {es : List ε} {s : σ}, Throughout step P s es → Throughout step Q s es
  | [], s, h => hPQ s h
  | _ :: _, s, h => ⟨hPQ s h.1, fun s' hs' => (h.2 s' hs').mono hPQ⟩

variable {C : σ → ε → Prop}

/-- The invariant rule, for steps that keep the invariant under a condition. -/
theorem throughout_of_eachStep (hstep : ∀ s e s', P s → C s e → step s e = some s' → P s') :
    ∀ {es : List ε} {s : σ}, P s → EachStep step C s es → Throughout step P s es
  | [], _, hs, _ => hs
  | _ :: _, _, hs, hc =>
    ⟨hs, fun s' hs' => throughout_of_eachStep hstep (hstep _ _ s' hs (hc s' hs').1 hs') (hc s' hs').2⟩

variable {C D : σ → ε → Prop}

theorem EachStep.mono (hCD : ∀ s e s', step s e = some s' → C s e → D s e) :
    ∀ {es : List ε} {s : σ}, EachStep step C s es → EachStep step D s es
  | [], _, _ => trivial
  | _ :: _, s, h => fun s' hs' => ⟨hCD s _ s' hs' (h s' hs').1, (h s' hs').2.mono hCD⟩

theorem Throughout.eachStep :
    ∀ {es : List ε} {s : σ}, Throughout step P s es → EachStep step (fun s _ => P s) s es
  | [], _, _ => trivial
  | _ :: _, _, h => fun s' hs' => ⟨h.1, (h.2 s' hs').eachStep⟩

theorem eachStep_true : ∀ {es : List ε} {s : σ}, EachStep step (fun _ _ => True) s es
  | [], _ => trivial
  | _ :: _, _ => fun _ _ => ⟨trivial, eachStep_true⟩

/-- Two conditions that are the same as long as an invariant holds, which one of them keeps. -/
theorem eachStep_congr {I : σ → Prop} (hCD : ∀ s e, I s → (C s e ↔ D s e))
    (hkeep : ∀ s e s', I s → D s e → step s e = some s' → I s') :
    ∀ {es : List ε} {s : σ}, I s → (EachStep step C s es ↔ EachStep step D s es) := by
  intro es
  induction es with
  | nil => exact fun _ => Iff.rfl
  | cons e es ih =>
    intro s hs
    constructor
    · intro h s' hs'
      obtain ⟨hC, hrest⟩ := h s' hs'
      have hD := (hCD s e hs).mp hC
      exact ⟨hD, (ih (hkeep s e s' hs hD hs')).mp hrest⟩
    · intro h s' hs'
      obtain ⟨hD, hrest⟩ := h s' hs'
      exact ⟨(hCD s e hs).mpr hD, (ih (hkeep s e s' hs hD hs')).mpr hrest⟩

variable {e : ε}

theorem eachStep_cons {s s' : σ} {es : List ε}
    (h : step s e = some s') : EachStep step C s (e :: es) ↔ C s e ∧ EachStep step C s' es :=
  ⟨fun hc => hc s' h, fun hc _ hs'' => some.inj (h.symm.trans hs'') ▸ hc⟩

theorem eachStep_singleton (h : C s e) : EachStep step C s [e] :=
  fun _ _ => ⟨h, trivial⟩

/-- The invariant rule for the last state of a run. -/
theorem foldlM_invariant (hstep : ∀ s e s', P s → step s e = some s' → P s') :
    ∀ {es : List ε} {s s' : σ}, P s → es.foldlM step s = some s' → P s'
  | [], _, _, hs, h => some.inj h ▸ hs
  | e :: es, s, s', hs, h => by
    rw [foldlM_cons] at h
    obtain ⟨s₁, hs₁, hrest⟩ := bind_eq_some_iff.mp h
    exact foldlM_invariant hstep (hstep s e s₁ hs hs₁) hrest

/-- The rule for an event that comes `n` times. `P k` is what holds after `k` of them. -/
theorem foldlM_replicate {P : Nat → σ → Prop} {n : Nat}
    (hstep : ∀ k < n, ∀ s, P k s → ∃ s', step s e = some s' ∧ P (k + 1) s') :
    ∀ k ≤ n, ∀ s, P (n - k) s → ∃ s', (replicate k e).foldlM step s = some s' ∧ P n s' := by
  intro k
  induction k with
  | zero => exact fun _ s hs => ⟨s, rfl, hs⟩
  | succ k ih =>
    intro hk s hs
    obtain ⟨s₁, hs₁, hnext⟩ := hstep (n - (k + 1)) (by omega) s hs
    rw [show n - (k + 1) + 1 = n - k by omega] at hnext
    obtain ⟨s', hrun, hs'⟩ := ih (by omega) s₁ hnext
    refine ⟨s', ?_, hs'⟩
    rw [replicate_succ, foldlM_cons, hs₁]
    exact hrun

end

end MixiPgw.Lib
