import Mathlib.Order.Lattice
import Mathlib.Data.List.Induction

/-!
The first least entry of a list among those that are admitted. A scan that starts from a
bound and replaces its candidate only by something strictly less ends with it, provided
that every admitted entry lies below the bound.
-/
namespace Nxwlan.FirstMinima

variable {α K : Type*} [LinearOrder K]

/-- Keep the candidate unless an admitted entry is strictly less. -/
def better (f : α → K) (p : α → Prop) [DecidablePred p] (best : Option α × K) (a : α) :
    Option α × K :=
  if f a < best.2 ∧ p a then (some a, f a) else best

/-- Admitted, less than all admitted entries before it and at most those behind. -/
def IsFirstMin (f : α → K) (p : α → Prop) (l : List α) (c : α) : Prop :=
  ∃ pre post, l = pre ++ c :: post ∧ p c ∧ (∀ d ∈ pre, p d → f c < f d) ∧
    ∀ d ∈ post, p d → f c ≤ f d

variable {f : α → K} {p : α → Prop} {l : List α} {a c : α} {bound : K}

theorem IsFirstMin.le (h : IsFirstMin f p l c) : ∀ d ∈ l, p d → f c ≤ f d := by
  obtain ⟨pre, post, rfl, _, hpre, hpost⟩ := h
  intro d hd hp
  rcases List.mem_append.mp hd with hd | hd
  · exact (hpre d hd hp).le
  · rcases List.mem_cons.mp hd with rfl | hd
    · exact le_rfl
    · exact hpost d hd hp

theorem IsFirstMin.concat_of_le (h : IsFirstMin f p l c) (ha : p a → f c ≤ f a) :
    IsFirstMin f p (l ++ [a]) c := by
  obtain ⟨pre, post, rfl, hc, hpre, hpost⟩ := h
  refine ⟨pre, post ++ [a], by simp, hc, hpre, ?_⟩
  intro d hd hp
  rcases List.mem_append.mp hd with hd | hd
  · exact hpost d hd hp
  · rw [List.mem_singleton.mp hd] at hp ⊢
    exact ha hp

theorem isFirstMin_concat (ha : p a) (hlt : ∀ d ∈ l, p d → f a < f d) :
    IsFirstMin f p (l ++ [a]) a :=
  ⟨l, [], rfl, ha, hlt, fun d hd => absurd hd (by simp)⟩

variable [DecidablePred p]

/-- Where the scan stands: nothing was admitted yet, or the candidate is the first minimum. -/
theorem foldl_better (hbound : ∀ a ∈ l, p a → f a < bound) :
    (l.foldl (better f p) (none, bound) = (none, bound) ∧ ∀ a ∈ l, ¬ p a) ∨
    ∃ c, l.foldl (better f p) (none, bound) = (some c, f c) ∧ IsFirstMin f p l c := by
  induction l using List.reverseRecOn with
  | nil => exact .inl ⟨rfl, fun a ha => absurd ha (by simp)⟩
  | append_singleton l a ih =>
    rw [List.foldl_append, List.foldl_cons, List.foldl_nil]
    have ha : p a → f a < bound := hbound a (by simp)
    rcases ih (fun x hx => hbound x (List.mem_append_left _ hx)) with ⟨hfold, hnone⟩ | ⟨c, hfold, hc⟩
    · rw [hfold, better]
      by_cases hp : p a
      · rw [if_pos ⟨ha hp, hp⟩]
        exact .inr ⟨a, rfl, isFirstMin_concat hp (fun d hd hpd => absurd hpd (hnone d hd))⟩
      · rw [if_neg (fun h => hp h.2)]
        refine .inl ⟨rfl, ?_⟩
        intro d hd
        rcases List.mem_append.mp hd with hd | hd
        · exact hnone d hd
        · rw [List.mem_singleton.mp hd]
          exact hp
    · rw [hfold, better]
      by_cases hlt : f a < f c ∧ p a
      · rw [if_pos hlt]
        refine .inr ⟨a, rfl, isFirstMin_concat hlt.2 ?_⟩
        intro d hd hpd
        exact hlt.1.trans_le (hc.le d hd hpd)
      · rw [if_neg hlt]
        exact .inr ⟨c, rfl, hc.concat_of_le (fun hp => not_lt.mp (fun h => hlt ⟨h, hp⟩))⟩

end Nxwlan.FirstMinima
