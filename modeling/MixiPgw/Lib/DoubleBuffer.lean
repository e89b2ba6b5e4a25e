/-
# Double-buffered slots

A slot has two buffers and a bit that says which of them is in front. Every update writes the
buffer at the back and turns the slot round, so that whoever looks at the front sees the old content
or the new one.
-/
import Mathlib.Logic.Function.Basic

namespace MixiPgw.Lib

/-- Two buffers; `side` means that `a` is in front. -/
structure Slot (T : Type) where
  a : T
  b : T
  side : Bool

namespace Slot

variable {T : Type}

def front (s : Slot T) : T := if s.side then s.a else s.b

def back (s : Slot T) : T := if s.side then s.b else s.a

def put (s : Slot T) (v : T) : Slot T :=
  if s.side then ⟨s.a, v, false⟩ else ⟨v, s.b, true⟩

variable (s : Slot T) (v : T)

@[simp] theorem front_put : (s.put v).front = v := by
  obtain ⟨a, b, side⟩ := s
  cases side <;> rfl

@[simp] theorem back_put : (s.put v).back = s.front := by
  obtain ⟨a, b, side⟩ := s
  cases side <;> rfl

/-! The parts of an update that is not made in one piece. -/

def setFront (s : Slot T) (v : T) : Slot T :=
  if s.side then { s with a := v } else { s with b := v }

def setBack (s : Slot T) (v : T) : Slot T :=
  if s.side then { s with b := v } else { s with a := v }

def turn (s : Slot T) : Slot T := { s with side := !s.side }

@[simp] theorem front_setFront : (s.setFront v).front = v := by
  obtain ⟨a, b, side⟩ := s
  cases side <;> rfl

@[simp] theorem front_setBack : (s.setBack v).front = s.front := by
  obtain ⟨a, b, side⟩ := s
  cases side <;> rfl

@[simp] theorem back_setBack : (s.setBack v).back = v := by
  obtain ⟨a, b, side⟩ := s
  cases side <;> rfl

@[simp] theorem front_turn : s.turn.front = s.back := by
  obtain ⟨a, b, side⟩ := s
  cases side <;> rfl

end Slot

section

variable {K T : Type} [DecidableEq K]

/-- Update the slot of `k`; what is written may depend on the old content of the back. -/
def putAt (s : K → Slot T) (k : K) (f : T → T) : K → Slot T :=
  Function.update s k ((s k).put (f (s k).back))

theorem putAt_front (s : K → Slot T) (k k' : K) (f : T → T) :
    (putAt s k f k').front = if k' = k then f (s k).back else (s k').front := by
  unfold putAt
  by_cases h : k' = k
  · subst h
    simp
  · rw [Function.update_of_ne h, if_neg h]

end

end MixiPgw.Lib
