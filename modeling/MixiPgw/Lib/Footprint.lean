/-
# Footprints

A state is seen through its CELLS, which together determine it. A step is `Confined` to a set `W`
of cells, reading beside them the cells of `K`, when it leaves every cell outside `W` as it was, and
what it leaves in `W` depends on nothing but `W` and `K`. Steps confined to disjoint sets commute,
and so a list of steps with one owner for each cell can be run in any order (`foldl_perm`).
-/
import Mathlib.Data.List.Nodup
import Mathlib.Data.Set.Lattice
import Mathlib.Order.CompletePartialOrder

namespace MixiPgw.Lib

variable {σ ι : Type*} {α : ι → Type*} {get : (i : ι) → σ → α i} {W W' K K' : Set ι} {f g : σ → σ}

def AgreeOn (get : (i : ι) → σ → α i) (R : Set ι) (z z' : σ) : Prop :=
  ∀ i ∈ R, get i z = get i z'

theorem AgreeOn.mono {R R' : Set ι} {z z' : σ} (h : AgreeOn get R' z z') (hsub : R ⊆ R') :
    AgreeOn get R z z' :=
  fun i hi => h i (hsub hi)

/-- **A confined step.** -/
structure Confined (get : (i : ι) → σ → α i) (W K : Set ι) (f : σ → σ) : Prop where
  keeps : ∀ z, ∀ i ∉ W, get i (f z) = get i z
  reads : ∀ z z', AgreeOn get (W ∪ K) z z' → AgreeOn get W (f z) (f z')

theorem Confined.id : Confined get W K (fun z => z) where
  keeps _ _ _ := rfl
  reads _ _ h := h.mono Set.subset_union_left

theorem Confined.of_cell {c : ι} (hc : c ∈ W) (hother : ∀ z i, i ≠ c → get i (f z) = get i z)
    (hown : ∀ z z', get c z = get c z' → get c (f z) = get c (f z')) : Confined get W K f where
  keeps z i hi := hother z i fun he => hi (he ▸ hc)
  reads z z' h i hi := by
    by_cases he : i = c
    · subst he
      exact hown z z' (h i (Or.inl hi))
    · rw [hother z i he, hother z' i he]
      exact h i (Or.inl hi)

theorem Confined.agreeOn (hf : Confined get W K f) {z z' : σ} (h : AgreeOn get (W ∪ K) z z')
    {R : Set ι} (hR : AgreeOn get R z z') : AgreeOn get R (f z) (f z') := by
  intro i hi
  by_cases hW : i ∈ W
  · exact hf.reads z z' h i hW
  · rw [hf.keeps z i hW, hf.keeps z' i hW]
    exact hR i hi

theorem Confined.comp (hg : Confined get W K g) (hf : Confined get W K f) :
    Confined get W K (fun z => g (f z)) where
  keeps z i hi := (hg.keeps (f z) i hi).trans (hf.keeps z i hi)
  reads _ _ h := hg.reads _ _ (hf.agreeOn h h)

theorem Confined.ite {p : σ → Prop} [DecidablePred p]
    (hp : ∀ z z', AgreeOn get (W ∪ K) z z' → (p z ↔ p z')) (hf : Confined get W K f)
    (hg : Confined get W K g) : Confined get W K (fun z => if p z then f z else g z) where
  keeps z i hi := by
    split
    · exact hf.keeps z i hi
    · exact hg.keeps z i hi
  reads z z' h := by
    by_cases hz : p z
    · rw [if_pos hz, if_pos ((hp z z' h).mp hz)]
      exact hf.reads z z' h
    · rw [if_neg hz, if_neg fun hz' => hz ((hp z z' h).mpr hz')]
      exact hg.reads z z' h

theorem Confined.mono (hf : Confined get W K f) (hW : W ⊆ W') (hK : K ⊆ K') :
    Confined get W' K' f where
  keeps z i hi := hf.keeps z i fun hi' => hi (hW hi')
  reads _ _ h := hf.agreeOn (h.mono (Set.union_subset_union hW hK)) (h.mono Set.subset_union_left)

theorem Confined.get_after (hf : Confined get W K f) (hg : Confined get W' K' g)
    (hW : Disjoint W W') (hK : Disjoint W' K) (z : σ) {i : ι} (hi : i ∈ W) :
    get i (f (g z)) = get i (f z) := by
  refine hf.reads _ _ (fun j hj => hg.keeps z j fun hj' => ?_) i hi
  rcases hj with hj | hj
  · exact Set.disjoint_left.mp hW hj hj'
  · exact Set.disjoint_left.mp hK hj' hj

/-- Steps confined to disjoint cells commute. -/
theorem Confined.commute (hext : ∀ z z', (∀ i, get i z = get i z') → z = z')
    (hf : Confined get W K f) (hg : Confined get W' K' g) (hW : Disjoint W W')
    (hK : Disjoint W' K) (hK' : Disjoint W K') (z : σ) : f (g z) = g (f z) := by
  refine hext _ _ fun i => ?_
  by_cases hi : i ∈ W
  · rw [hf.get_after hg hW hK z hi, hg.keeps _ i (Set.disjoint_left.mp hW hi)]
  · by_cases hi' : i ∈ W'
    · rw [hf.keeps _ i hi, hg.get_after hf hW.symm hK' z hi']
    · rw [hf.keeps _ i hi, hg.keeps _ i hi', hg.keeps _ i hi', hf.keeps _ i hi]

/-- Any order. Every step is confined to the cells of its key, no cell belongs to two keys,
no step writes what others only read, and no key occurs twice. -/
theorem foldl_perm (hext : ∀ z z', (∀ i, get i z = get i z') → z = z') {β κ : Type*}
    {step : σ → β → σ} {key : β → κ} {cells : κ → Set ι} {l l' : List β} (hperm : l.Perm l')
    (hnodup : (l.map key).Nodup)
    (hstep : ∀ x ∈ l, Confined get (cells (key x)) K fun z => step z x)
    (hcells : ∀ k k', k ≠ k' → Disjoint (cells k) (cells k')) (hK : ∀ k, Disjoint (cells k) K)
    (z : σ) : l.foldl step z = l'.foldl step z := by
  refine hperm.foldl_eq' (fun x hx y hy z => ?_) z
  by_cases hkey : key x = key y
  · rw [List.inj_on_of_nodup_map hnodup hx hy hkey]
  · exact (hstep y hy).commute hext (hstep x hx) (hcells _ _ (Ne.symm hkey)) (hK _) (hK _) z

end MixiPgw.Lib
