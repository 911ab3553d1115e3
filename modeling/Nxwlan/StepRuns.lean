import Mathlib.Data.Nat.Init
import Mathlib.Order.Lattice
import Mathlib.Tactic.Common

/-!
Runs of a system whose steps are a partial function of state and action. A
safety property is an invariant of the reachable states. A liveness property
needs an infinite run and a fair scheduler: a group of actions that can be
taken again and again is taken again and again. The response rule at the end
turns a measure that such a group of actions lowers into a goal that is reached.
-/
namespace Nxwlan.StepRuns

variable {σ α : Type*} {step : σ → α → Option σ} {ok : σ → α → Prop}

/-- The states reached from `s₀` by steps that meet the condition `ok`. -/
inductive Reach (step : σ → α → Option σ) (ok : σ → α → Prop) (s₀ : σ) : σ → Prop where
  | start : Reach step ok s₀ s₀
  | next {s s' : σ} {x : α} (h : Reach step ok s₀ s) (hok : ok s x)
      (hstep : step s x = some s') : Reach step ok s₀ s'

theorem Reach.inv {I : σ → Prop} {s₀ s : σ} (h : Reach step ok s₀ s) (hstart : I s₀)
    (hkeep : ∀ s x s', I s → ok s x → step s x = some s' → I s') : I s := by
  induction h with
  | start => exact hstart
  | next _ hok hstep ih => exact hkeep _ _ _ ih hok hstep

/-- A condition that follows from another one by an invariant. -/
theorem Reach.transfer {ok' : σ → α → Prop} {I : σ → Prop} {s₀ s : σ} (h : Reach step ok s₀ s)
    (hstart : I s₀)
    (hkeep : ∀ s x s', I s → ok s x → step s x = some s' → ok' s x ∧ I s') :
    Reach step ok' s₀ s ∧ I s := by
  induction h with
  | start => exact ⟨.start, hstart⟩
  | next _ hok hstep ih =>
    obtain ⟨hok', hI⟩ := hkeep _ _ _ ih.2 hok hstep
    exact ⟨.next ih.1 hok' hstep, hI⟩

theorem Reach.mono {ok' : σ → α → Prop} {s₀ s : σ} (h : Reach step ok s₀ s)
    (himp : ∀ s x, ok s x → ok' s x) : Reach step ok' s₀ s :=
  (h.transfer (I := fun _ => True) trivial (fun s x _ _ hok _ => ⟨himp s x hok, trivial⟩)).1

/-- The state after a list of actions, if each can be taken and meets the condition. -/
def follow (step : σ → α → Option σ) (ok : σ → α → Prop) [∀ s x, Decidable (ok s x)] (s : σ) :
    List α → Option σ
  | [] => some s
  | x :: rest => if ok s x then (step s x).bind (fun s => follow step ok s rest) else none

theorem Reach.head {s₀ s₁ s : σ} {x : α} (hok : ok s₀ x) (hstep : step s₀ x = some s₁)
    (h : Reach step ok s₁ s) : Reach step ok s₀ s := by
  induction h with
  | start => exact .next .start hok hstep
  | next _ hok' hstep' ih => exact .next ih hok' hstep'

theorem reach_of_follow [∀ s x, Decidable (ok s x)] {acts : List α} {s₀ s : σ}
    (h : follow step ok s₀ acts = some s) : Reach step ok s₀ s := by
  induction acts generalizing s₀ with
  | nil =>
    obtain rfl := Option.some.inj h
    exact .start
  | cons x rest ih =>
    rw [follow] at h
    split at h
    · rename_i hok
      obtain ⟨s₁, hstep, hrest⟩ := Option.bind_eq_some_iff.mp h
      exact .head hok hstep (ih hrest)
    · cases h

/-- Again and again, from any time on. -/
def Often (P : ℕ → Prop) : Prop := ∀ n, ∃ m, n ≤ m ∧ P m

/-- An infinite run whose steps all meet the condition. -/
structure Run (step : σ → α → Option σ) (ok : σ → α → Prop) where
  state : ℕ → σ
  act : ℕ → α
  meets : ∀ n, ok (state n) (act n)
  next : ∀ n, step (state n) (act n) = some (state (n + 1))

namespace Run

variable (r : Run step ok)

/-- The same run under a weaker condition. -/
def mono {ok' : σ → α → Prop} (himp : ∀ s x, ok s x → ok' s x) : Run step ok' where
  state := r.state
  act := r.act
  meets n := himp _ _ (r.meets n)
  next := r.next

theorem reach (n : ℕ) : Reach step ok (r.state 0) (r.state n) := by
  induction n with
  | zero => exact .start
  | succ n ih => exact .next ih (r.meets n) (r.next n)

/-- Some action of the group `T` can be taken at time `n`. -/
def Enabled (T : α → Prop) (n : ℕ) : Prop := ∃ x, T x ∧ (step (r.state n) x).isSome = true

/-- A group of actions that is enabled again and again is taken again and again. -/
def Fair (T : α → Prop) : Prop := Often (r.Enabled T) → Often (fun m => T (r.act m))

/-- The response rule: a measure that no step raises and that every step of `T`
lowers, as long as the goal `G` is not reached, brings it about if `T` is taken
again and again. -/
theorem eventually {T : α → Prop} {G : σ → Prop} (μ : σ → ℕ) {n₀ : ℕ}
    (hstep : ∀ n, n₀ ≤ n → ¬ G (r.state n) →
      μ (r.state (n + 1)) ≤ μ (r.state n) ∧
        (T (r.act n) → μ (r.state (n + 1)) < μ (r.state n)))
    (hoften : (∀ n, n₀ ≤ n → ¬ G (r.state n)) → Often (fun m => T (r.act m))) :
    ∃ m, n₀ ≤ m ∧ G (r.state m) := by
  by_contra hnever
  push Not at hnever
  have hle : ∀ n k, n₀ ≤ n → μ (r.state (n + k)) ≤ μ (r.state n) := by
    intro n k hn
    induction k with
    | zero => exact le_rfl
    | succ k ih => exact le_trans (hstep (n + k) (by omega) (hnever _ (by omega))).1 ih
  -- each time the measure is at `c`, it is lower at a later time
  have hlow : ∀ c n, n₀ ≤ n → μ (r.state n) = c → False := by
    intro c
    induction c using Nat.strong_induction_on with
    | _ c ih =>
      intro n hn hc
      obtain ⟨m, hm, hT⟩ := hoften hnever n
      obtain ⟨k, rfl⟩ := Nat.exists_eq_add_of_le hm
      have hdrop := (hstep (n + k) (by omega) (hnever _ (by omega))).2 hT
      have hbefore := hle n k hn
      exact ih _ (by omega) (n + k + 1) (by omega) rfl
  exact hlow _ n₀ le_rfl rfl

end Run

end Nxwlan.StepRuns
