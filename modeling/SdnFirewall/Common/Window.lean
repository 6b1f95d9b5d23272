import Mathlib.Algebra.Order.Group.Defs
import Mathlib.Algebra.Order.Sub.Basic
import Mathlib.Data.List.Basic
import Mathlib.Data.List.Induction

/-!
# Sliding windows

The elements of a sequence that are less than `W` old. When the sequence is in order, dropping old
elements from its front leaves exactly the recent ones, and a sequence in which nobody comes with
`L` recent predecessors keeps to `L` elements in every interval of length `W`.
-/

namespace Common

variable {α : Type*} [AddCommGroup α] [LinearOrder α]

/-- The elements of `l` that are less than `W` before `t`. -/
def recent (W t : α) (l : List α) : List α := l.filter fun u => t - u < W

/-- What is recent among two parts is what is recent among each. -/
theorem recent_append (W t : α) (l l' : List α) :
    recent W t (l ++ l') = recent W t l ++ recent W t l' := List.filter_append ..

/-- Every element of the sequence comes with fewer than `L` recent predecessors. -/
def Limited (L : ℤ) (W : α) (l : List α) : Prop :=
  ∀ before t after, l = before ++ t :: after → ((recent W t before).length : ℤ) < L

/-- No times keep every limit. -/
theorem limited_nil (L : ℤ) (W : α) : Limited L W [] := by
  intro before t after h
  exact absurd h (by simp)

/-- A last time is within the limit if fewer than so many before it are still recent. -/
theorem limited_concat {L : ℤ} {W t : α} {l : List α} :
    Limited L W (l ++ [t]) ↔ Limited L W l ∧ ((recent W t l).length : ℤ) < L := by
  constructor
  · intro h
    refine ⟨fun before u after heq => h before u (after ++ [t]) (by simp [heq]), ?_⟩
    exact h l t [] rfl
  · rintro ⟨hl, ht⟩ before u after heq
    rcases List.eq_nil_or_concat after with rfl | ⟨after, v, rfl⟩
    · obtain ⟨rfl, rfl⟩ : l = before ∧ t = u := by simpa using heq
      exact ht
    · obtain ⟨rfl, rfl⟩ : l = before ++ u :: after ∧ t = v := by
        rw [List.concat_eq_append, ← List.cons_append, ← List.append_assoc] at heq
        exact List.append_inj' heq rfl |>.imp_right (by simp)
      exact hl before u after rfl

/-- A limited sequence has at most `L` elements among which no two are `W` apart. -/
theorem Limited.length_filter_le {L : ℤ} {W : α} {l : List α} (h : Limited L W l) (p : α → Prop)
    [DecidablePred p] (hp : ∀ t u, p t → p u → t - u < W) :
    ((l.filter p).length : ℤ) ≤ max L 0 := by
  induction l using List.reverseRecOn with
  | nil => simp
  | append_singleton l t ih =>
      obtain ⟨hl, ht⟩ := limited_concat.mp h
      by_cases hpt : p t
      · -- the earlier ones are all recent for the last
        have hsub : (l.filter p).length ≤ (recent W t l).length :=
          (List.monotone_filter_right l fun u hu => by
            simpa using hp t u hpt (by simpa using hu)).length_le
        have hlen : ((l ++ [t]).filter p).length = (l.filter p).length + 1 := by
          simp [List.filter_append, hpt]
        rw [hlen]
        omega
      · simpa [List.filter_append, hpt] using ih hl

section Ordered

variable [IsOrderedAddMonoid α]

/-- What is recent later was recent before. -/
theorem recent_recent (W : α) {t t' : α} (h : t ≤ t') (l : List α) :
    recent W t' (recent W t l) = recent W t' l := by
  rw [recent, recent, List.filter_filter]
  refine List.filter_congr fun u _ => ?_
  have himp : t' - u < W → t - u < W := (sub_le_sub_right h u).trans_lt
  simpa using himp

/-- In an ordered sequence the old elements stand in front. -/
theorem dropWhile_eq_recent (W t : α) {l : List α} (hl : l.Pairwise (· ≤ ·)) :
    (l.dropWhile fun u => t - u ≥ W) = recent W t l := by
  induction l with
  | nil => rfl
  | cons a l ih =>
      obtain ⟨hle, hl⟩ := List.pairwise_cons.mp hl
      by_cases ha : t - a ≥ W
      · rw [List.dropWhile_cons_of_pos (by simpa using ha), ih hl, recent, recent,
          List.filter_cons_of_neg (by simpa using ha)]
      · -- everything behind `a` is at least as recent
        have hall : ∀ u ∈ a :: l, t - u < W := by
          intro u hu
          rcases List.mem_cons.mp hu with rfl | hu
          · exact not_le.mp ha
          · exact (sub_le_sub_left (hle u hu) t).trans_lt (not_le.mp ha)
        rw [List.dropWhile_cons_of_neg (by simpa using ha), recent, List.filter_eq_self.mpr]
        simpa using hall

end Ordered

end Common
