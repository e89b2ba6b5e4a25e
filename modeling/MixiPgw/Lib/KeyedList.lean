/-
# Lists as finite maps

A list of records, each under a key of its own, is how a C program keeps a small map. `Represents
key l m` says that the list `l` is the finite map `m`: no key occurs twice, and the first record
with a key is the map's. An update, an insertion and a deletion of the list are those of the map.
-/
import Mathlib.Algebra.BigOperators.Group.List.Basic
import Mathlib.Data.List.Basic
import Mathlib.Data.List.Nodup
import Mathlib.Logic.Function.Basic

namespace MixiPgw.Lib

open List Option Function

/-! ## 1. The first match -/

section

variable {α : Type}

/-- Changes the first element that satisfies `p`; `none` if there is none. -/
def modifyFirst (p : α → Bool) (f : α → α) : List α → Option (List α)
  | [] => none
  | a :: l => if p a then some (f a :: l) else (modifyFirst p f l).map (a :: ·)

variable {p : α → Bool} {f : α → α}

theorem modifyFirst_eq_none {l : List α} : modifyFirst p f l = none ↔ l.find? p = none := by
  induction l with
  | nil => exact iff_of_true rfl rfl
  | cons a l ih =>
    unfold modifyFirst
    by_cases ha : p a = true
    · simp [ha]
    · simp only [ha, Bool.false_eq_true, if_false, map_eq_none_iff, ih, find?_cons_of_neg ha]

theorem modifyFirst_eq_some {l l' : List α} (h : modifyFirst p f l = some l') :
    ∃ before a behind, l = before ++ a :: behind ∧ l' = before ++ f a :: behind ∧
      p a = true ∧ ∀ b ∈ before, p b ≠ true := by
  induction l generalizing l' with
  | nil => cases h
  | cons a l ih =>
    unfold modifyFirst at h
    by_cases ha : p a = true
    · rw [if_pos ha] at h
      obtain rfl := some.inj h
      exact ⟨[], a, l, rfl, rfl, ha, by simp⟩
    · rw [if_neg ha] at h
      obtain ⟨rest, hrest, rfl⟩ := map_eq_some_iff.mp h
      obtain ⟨before, b, behind, rfl, rfl, hb, hbefore⟩ := ih hrest
      refine ⟨a :: before, b, behind, rfl, rfl, hb, ?_⟩
      intro c hc
      rcases mem_cons.mp hc with rfl | hc
      · exact ha
      · exact hbefore c hc

theorem sum_map_modifyFirst {M : Type} [AddCommMonoid M] {g : α → M} {l l' : List α} {a : α}
    {d : M} (h : modifyFirst p f l = some l') (ha : l.find? p = some a) (hg : g (f a) = g a + d) :
    (l'.map g).sum = (l.map g).sum + d := by
  induction l generalizing l' with
  | nil => cases h
  | cons b l ih =>
    unfold modifyFirst at h
    by_cases hb : p b = true
    · rw [if_pos hb] at h
      obtain rfl := some.inj h
      rw [find?_cons_of_pos hb] at ha
      obtain rfl := some.inj ha
      simp only [map_cons, sum_cons, hg]
      exact add_right_comm _ _ _
    · rw [if_neg hb] at h
      rw [find?_cons_of_neg hb] at ha
      obtain ⟨rest, hrest, rfl⟩ := map_eq_some_iff.mp h
      simp only [map_cons, sum_cons, ih hrest ha, add_assoc]

end

/-! ## 2. The list and the map -/

section

variable {α κ : Type} [DecidableEq κ] (key : α → κ)

/-- The list is the finite map. -/
structure Represents (l : List α) (m : κ → Option α) : Prop where
  nodup : (l.map key).Nodup
  find : ∀ k, l.find? (fun a => key a = k) = m k

variable {key} {l l' : List α} {m : κ → Option α} {k : κ}

theorem represents_nil : Represents key [] fun _ => none :=
  ⟨nodup_nil, fun _ => rfl⟩

theorem Represents.mem_iff (h : Represents key l m) {a : α} : a ∈ l ↔ m (key a) = some a := by
  rw [← h.find]
  constructor
  · intro ha
    have hsome : (l.find? fun b => key b = key a).isSome :=
      find?_isSome.mpr ⟨a, ha, decide_eq_true rfl⟩
    obtain ⟨b, hb⟩ := isSome_iff_exists.mp hsome
    have hkey : key b = key a := by simpa using find?_some hb
    rw [hb, inj_on_of_nodup_map h.nodup (mem_of_find?_eq_some hb) ha hkey]
  · exact mem_of_find?_eq_some

theorem Represents.mem_keys_iff (h : Represents key l m) : k ∈ l.map key ↔ (m k).isSome := by
  rw [← h.find, find?_isSome, List.mem_map]
  simp only [decide_eq_true_eq]

theorem Represents.modifyFirst {f : α → α} (h : Represents key l m)
    (hl' : modifyFirst (fun a => key a = k) f l = some l') (hf : ∀ a, key (f a) = key a) :
    Represents key l' (update m k ((m k).map f)) := by
  obtain ⟨before, a, behind, rfl, rfl, ha, hbefore⟩ := modifyFirst_eq_some hl'
  obtain rfl : key a = k := of_decide_eq_true ha
  refine ⟨?_, ?_⟩
  · have hnd := h.nodup
    simp only [map_append, map_cons, hf] at hnd ⊢
    exact hnd
  · intro k'
    have hnone : before.find? (fun b => key b = key a) = none := find?_eq_none.mpr hbefore
    by_cases hk' : k' = key a
    · subst hk'
      rw [update_self, ← h.find, find?_append, find?_append, hnone]
      simp [hf]
    · have hne : ¬key a = k' := fun heq => hk' heq.symm
      rw [update_of_ne hk', ← h.find, find?_append, find?_append]
      simp [hf, hne]

omit [DecidableEq κ] in
theorem nodup_keys_append {a : α} (hnd : (l.map key).Nodup) (hnew : key a ∉ l.map key) :
    ((l ++ [a]).map key).Nodup := by
  rw [map_append, nodup_append]
  refine ⟨hnd, nodup_singleton _, ?_⟩
  intro k hk k' hk' heq
  obtain rfl : k' = key a := mem_singleton.mp hk'
  exact hnew (heq ▸ hk)

theorem Represents.append {a : α} (h : Represents key l m) (hnew : m (key a) = none) :
    Represents key (l ++ [a]) (update m (key a) (some a)) := by
  refine ⟨?_, ?_⟩
  · refine nodup_keys_append h.nodup ?_
    rw [h.mem_keys_iff, hnew]
    exact Bool.false_ne_true
  · intro k
    rw [find?_append, h.find]
    by_cases hk : k = key a
    · subst hk
      simp [hnew]
    · have hne : ¬key a = k := fun heq => hk heq.symm
      simp [hne, update_of_ne hk]

/-! ## 3. First match and all matches -/

theorem filter_eq_toList_find? (hnd : (l.map key).Nodup) (k : κ) :
    l.filter (fun a => key a = k) = (l.find? fun a => key a = k).toList := by
  induction l with
  | nil => rfl
  | cons a l ih =>
    obtain ⟨ha, hl⟩ := nodup_cons.mp hnd
    by_cases hk : key a = k
    · have hrest : l.filter (fun b => key b = k) = [] := by
        refine filter_eq_nil_iff.mpr fun b hb hbk => ha ?_
        rw [hk, ← of_decide_eq_true hbk]
        exact mem_map_of_mem hb
      simp [hk, hrest]
    · simp [hk, ih hl]

theorem eraseP_eq_filter (hnd : (l.map key).Nodup) (k : κ) :
    l.eraseP (fun a => key a = k) = l.filter fun a => key a ≠ k := by
  induction l with
  | nil => rfl
  | cons a l ih =>
    obtain ⟨ha, hl⟩ := nodup_cons.mp hnd
    by_cases hk : key a = k
    · have hrest : l.filter (fun b => key b ≠ k) = l := by
        refine filter_eq_self.mpr fun b hb => decide_eq_true fun hbk => ha ?_
        rw [hk, ← hbk]
        exact mem_map_of_mem hb
      simpa [hk] using hrest.symm
    · simp [hk, ih hl]

theorem Represents.eraseP (h : Represents key l m) (k : κ) :
    Represents key (l.eraseP fun a => key a = k) (update m k none) := by
  refine ⟨h.nodup.sublist ((eraseP_sublist).map key), ?_⟩
  intro k'
  rw [eraseP_eq_filter h.nodup, find?_filter]
  by_cases hk' : k' = k
  · subst hk'
    rw [update_self, find?_eq_none]
    simp
  · rw [update_of_ne hk', ← h.find]
    congr 1
    funext a
    by_cases ha : key a = k'
    · simp [ha, hk']
    · simp [ha]

end

end MixiPgw.Lib
