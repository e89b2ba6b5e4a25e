/-
# Tables with unique keys

A relational table: rows, a list of unique keys over them, `SELECT` by a condition and `UPDATE … SET
… WHERE …` as ONE atomic statement that fails, and changes nothing, when its result would repeat a
key.
-/
import Mathlib.Data.List.Nodup
import Mathlib.Data.List.Basic

namespace MixiPgw.Lib

open List

/-- Rows of which every key in `keys` is unique. -/
structure UniqueTable (α κ : Type) (keys : List (α → κ)) where
  rows : List α
  unique : ∀ k ∈ keys, (rows.map k).Nodup

namespace UniqueTable

variable {α κ : Type} {keys : List (α → κ)}

theorem unique_nil : ∀ k ∈ keys, (([] : List α).map k).Nodup := fun _ _ => nodup_nil

def updateRows (p : α → Bool) (f : α → α) (rows : List α) : List α :=
  rows.map fun r => if p r then f r else r

/-- `UPDATE … SET f WHERE p`; `none` when it would repeat a key. -/
def update [DecidableEq κ] (t : UniqueTable α κ keys) (p : α → Bool) (f : α → α) :
    Option (UniqueTable α κ keys) :=
  if h : ∀ k ∈ keys, ((updateRows p f t.rows).map k).Nodup then
    some ⟨updateRows p f t.rows, h⟩
  else none

def select (t : UniqueTable α κ keys) (p : α → Bool) : List α := t.rows.filter p

variable {t : UniqueTable α κ keys}

theorem mem_select {p : α → Bool} {r : α} :
    r ∈ t.select p ↔ r ∈ t.rows ∧ p r = true := mem_filter

theorem eq_of_key {k : α → κ} (hk : k ∈ keys) {r r' : α}
    (hr : r ∈ t.rows) (hr' : r' ∈ t.rows) (h : k r = k r') : r = r' :=
  inj_on_of_nodup_map (t.unique k hk) hr hr' h

section

variable [DecidableEq κ] {t t' : UniqueTable α κ keys} {p : α → Bool} {f : α → α}

theorem update_rows (h : t.update p f = some t') : t'.rows = updateRows p f t.rows := by
  unfold update at h
  split at h
  · obtain rfl := Option.some.inj h
    rfl
  · exact absurd h (by simp)

theorem mem_update (h : t.update p f = some t') {r' : α} :
    r' ∈ t'.rows ↔ ∃ r ∈ t.rows, (if p r then f r else r) = r' := by
  rw [update_rows h, updateRows, mem_map]

theorem update_forall (h : t.update p f = some t') {P : α → Prop} (hP : ∀ r ∈ t.rows, P r)
    (hf : ∀ r ∈ t.rows, p r = true → P r → P (f r)) : ∀ r' ∈ t'.rows, P r' := by
  intro r' hr'
  obtain ⟨r, hr, rfl⟩ := (mem_update h).mp hr'
  split
  · rename_i hp
    exact hf r hr hp (hP r hr)
  · exact hP r hr

/-- When an update of one row succeeds: exactly if no OTHER row has a key of the row's new
form. -/
theorem update_isSome_iff {k₀ : α → κ} (hk₀ : k₀ ∈ keys) {v : κ} (hp : ∀ r, p r = true → k₀ r = v) :
    (∃ t', t.update p f = some t') ↔
      ∀ r ∈ t.rows, p r = true → ∀ k ∈ keys, ∀ r' ∈ t.rows, k r' = k (f r) → r' = r := by
  have hsame : ∀ r ∈ t.rows, ∀ r' ∈ t.rows, p r = true → p r' = true → r = r' :=
    fun r hr r' hr' h h' => eq_of_key hk₀ hr hr' ((hp r h).trans (hp r' h').symm)
  constructor
  · rintro ⟨t', h⟩ r hr hpr k hk r' hr' hkey
    have hnd := t'.unique k hk
    rw [update_rows h, updateRows, map_map] at hnd
    by_cases hpr' : p r' = true
    · exact hsame r' hr' r hr hpr' hpr
    · exact inj_on_of_nodup_map hnd hr' hr (by simp [hpr, hpr', hkey])
  · intro h
    have hnd : ∀ k ∈ keys, ((updateRows p f t.rows).map k).Nodup := by
      intro k hk
      rw [updateRows, map_map]
      refine List.Nodup.map_on (fun r hr r' hr' heq => ?_) ((t.unique k₀ hk₀).of_map k₀)
      simp only [Function.comp_apply] at heq
      by_cases hpr : p r = true <;> by_cases hpr' : p r' = true <;>
        simp only [hpr, hpr', if_true, if_false, Bool.false_eq_true] at heq
      · exact hsame r hr r' hr' hpr hpr'
      · exact (h r hr hpr k hk r' hr' heq.symm).symm
      · exact h r' hr' hpr' k hk r hr heq
      · exact eq_of_key hk hr hr' heq
    exact ⟨⟨updateRows p f t.rows, hnd⟩, dif_pos hnd⟩

theorem update_isSome (hf : ∀ k ∈ keys, ∀ r ∈ t.rows, p r = true → k (f r) = k r) :
    ∃ t', t.update p f = some t' := by
  have hsame : ∀ k ∈ keys, ((updateRows p f t.rows).map k).Nodup := by
    intro k hk
    have : (updateRows p f t.rows).map k = t.rows.map k := by
      rw [updateRows, map_map]
      refine map_congr_left fun r hr => ?_
      by_cases hp : p r = true
      · simp [hp, hf k hk r hr hp]
      · simp [hp]
    rw [this]
    exact t.unique k hk
  exact ⟨⟨updateRows p f t.rows, hsame⟩, dif_pos hsame⟩

end

end UniqueTable

end MixiPgw.Lib
