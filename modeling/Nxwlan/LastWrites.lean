import Mathlib.Data.List.Induction

/-!
Systems whose state is looked at through keys, and whose events each write some keys
and leave the others alone. After any run a key shows what the last event that wrote
it has written, or what it showed at the start.
-/
namespace Nxwlan.LastWrites

variable {σ ε κ β : Type*}

/-- What the last event that writes the key `k` writes there. -/
def lastWrite (write : κ → ε → Option β) (k : κ) (events : List ε) : Option β :=
  (events.filterMap (write k)).getLast?

variable {write : κ → ε → Option β}

theorem lastWrite_append (k : κ) (events : List ε) (e : ε) :
    lastWrite write k (events ++ [e]) = (write k e).or (lastWrite write k events) := by
  rw [lastWrite, List.filterMap_append]
  cases hwrite : write k e with
  | none => simp [hwrite, lastWrite]
  | some b => simp [hwrite]

theorem lastWrite_map {γ : Type*} (f : β → γ) (k : κ) (events : List ε) :
    lastWrite (fun k e => (write k e).map f) k events = (lastWrite write k events).map f := by
  unfold lastWrite
  rw [← List.getLast?_map, List.map_filterMap]

/-- If every event shows at a key what it writes there, or else what was there before, then
so does every run; an invariant of the states may be used for it. -/
theorem view_run (step : σ → ε → σ) (view : σ → κ → β) (write : κ → ε → Option β)
    {I : σ → Prop} (hkeep : ∀ s e, I s → I (step s e))
    (hstep : ∀ s e k, I s → view (step s e) k = (write k e).getD (view s k)) {s : σ} (hs : I s)
    (events : List ε) :
    I (events.foldl step s) ∧
      ∀ k, view (events.foldl step s) k = (lastWrite write k events).getD (view s k) := by
  induction events using List.reverseRecOn with
  | nil => exact ⟨hs, fun _ => rfl⟩
  | append_singleton events e ih =>
    rw [List.foldl_append, List.foldl_cons, List.foldl_nil]
    refine ⟨hkeep _ e ih.1, ?_⟩
    intro k
    rw [hstep _ e k ih.1, ih.2, lastWrite_append]
    cases write k e with
    | none => rfl
    | some b => rfl

end Nxwlan.LastWrites
