import Mathlib.Data.List.Basic
import Mathlib.Logic.Function.Basic
import Mathlib.Tactic.Common

/-!
Singly linked lists in a heap. Cells are named by their addresses, and a field of each cell
leads to the next one. A cell is put in front of a list, or taken out by a write to the cell
before it; a loop that follows the field finds the first cell that it looks for.
-/
namespace Nxwlan.HeapLists

section Lists

variable {α : Type*} {next next' : α → Option α} {head : Option α} {p q : α} {xs ys : List α}

/-- `head` leads through `next` to the cells of a list, and the last one leads to null. -/
inductive Linked (next : α → Option α) : Option α → List α → Prop
  | null : Linked next none []
  | cell {p : α} {xs : List α} (rest : Linked next (next p) xs) : Linked next (some p) (p :: xs)

theorem Linked.unique (h : Linked next head xs) (h' : Linked next head ys) : xs = ys := by
  induction h generalizing ys with
  | null =>
    cases h' with
    | null => rfl
  | cell rest ih =>
    cases h' with
    | cell rest' => rw [ih rest']

/-- From a cell of the list, the rest of it is reached. -/
theorem Linked.suffix {pre post : List α} (h : Linked next head (pre ++ p :: post)) :
    Linked next (some p) (p :: post) := by
  induction pre generalizing head with
  | nil =>
    cases h with
    | cell rest => exact .cell rest
  | cons r pre ih =>
    cases h with
    | cell rest => exact ih rest

/-- No cell comes twice: the list would not end behind it. -/
theorem Linked.nodup (h : Linked next head xs) : xs.Nodup := by
  induction h with
  | null => exact List.nodup_nil
  | @cell p xs rest ih =>
    refine List.nodup_cons.mpr ⟨?_, ih⟩
    intro hp
    obtain ⟨pre, post, rfl⟩ := List.append_of_mem hp
    have hsame : p :: post = p :: (pre ++ p :: post) := rest.suffix.unique (.cell rest)
    have hlength := congrArg List.length (List.cons.inj hsame).2
    simp only [List.length_append, List.length_cons] at hlength
    omega

theorem Linked.congr (h : Linked next head xs) (hsame : ∀ r ∈ xs, next' r = next r) :
    Linked next' head xs := by
  induction h with
  | null => exact .null
  | @cell p xs rest ih =>
    have hp : next' p = next p := hsame p List.mem_cons_self
    refine .cell ?_
    rw [hp]
    exact ih (fun r hr => hsame r (List.mem_cons_of_mem p hr))

/-- The first cell of a list is taken out. -/
theorem Linked.pop (h : Linked next (some p) (p :: xs)) : Linked next (next p) xs := by
  cases h with
  | cell rest => exact rest

theorem Linked.head_eq (h : Linked next head (p :: xs)) : head = some p := by
  cases h with
  | cell rest => rfl

theorem Linked.eq_head? (h : Linked next head xs) : head = xs.head? := by
  cases h with
  | null => rfl
  | cell rest => rfl

theorem Linked.head_mem (h : Linked next head xs) (hp : head = some p) : p ∈ xs := by
  cases h with
  | null => cases hp
  | cell rest =>
    cases hp
    exact List.mem_cons_self

/-- A new cell that leads to the first one. -/
theorem Linked.push (h : Linked next head xs) (hnew : next' p = head)
    (hsame : ∀ r ∈ xs, next' r = next r) : Linked next' (some p) (p :: xs) := by
  refine .cell ?_
  rw [hnew]
  exact h.congr hsame

/-- The cell `q` leads past `p`. -/
theorem Linked.unlink {pre post : List α} (h : Linked next head (pre ++ q :: p :: post))
    (hq : next' q = next p) (hsame : ∀ r, r ≠ q → next' r = next r) :
    Linked next' head (pre ++ q :: post) := by
  have hnodup := h.nodup
  induction pre generalizing head with
  | nil =>
    obtain ⟨hq', hrest⟩ := List.nodup_cons.mp hnodup
    cases h with
    | cell rest =>
      have hp := rest.head_eq
      rw [hp] at rest
      refine .cell ?_
      rw [hq]
      refine rest.pop.congr (fun r hr => hsame r ?_)
      rintro rfl
      exact hq' (List.mem_cons_of_mem p hr)
  | cons r pre ih =>
    obtain ⟨hr, hrest⟩ := List.nodup_cons.mp hnodup
    cases h with
    | cell rest =>
      have hne : r ≠ q := by
        rintro rfl
        exact hr (List.mem_append_right _ List.mem_cons_self)
      refine .cell ?_
      rw [hsame r hne]
      exact ih rest hrest

/-- The cell before `p` is the first one that leads to it. -/
theorem Linked.find_before {pre post : List α} (h : Linked next head (pre ++ q :: p :: post))
    {test : α → Bool}
    (htest : ∀ r ∈ pre ++ q :: p :: post, test r = true → next r = none ∨ next r = some p)
    (hq : test q = true) : (pre ++ q :: p :: post).find? test = some q := by
  have hnodup := h.nodup
  induction pre generalizing head with
  | nil => exact List.find?_cons_of_pos hq
  | cons r pre ih =>
    obtain ⟨hr, hrest⟩ := List.nodup_cons.mp hnodup
    cases h with
    | cell rest =>
      have hfalse : ¬ test r = true := by
        intro htrue
        rcases htest r List.mem_cons_self htrue with hnone | hp
        · rw [hnone] at rest
          cases pre with
          | nil => cases rest
          | cons r' pre => cases rest
        · rw [hp] at rest
          cases pre with
          | nil =>
            obtain rfl : p = q := Option.some.inj rest.head_eq
            exact (List.nodup_cons.mp hrest).1 List.mem_cons_self
          | cons r' pre =>
            obtain rfl : p = r' := Option.some.inj rest.head_eq
            exact (List.nodup_cons.mp hrest).1 (List.mem_append_right _
              (List.mem_cons_of_mem q List.mem_cons_self))
      rw [List.cons_append, List.find?_cons_of_neg hfalse]
      exact ih rest (fun r' hr' => htest r' (List.mem_cons_of_mem r hr')) hrest

/-- A cell of a list is the first one, or has one before it. -/
theorem Linked.mem_cases [DecidableEq α] (h : Linked next head xs) (hp : p ∈ xs) :
    (head = some p ∧ Linked next (next p) (xs.filter (· ≠ p))) ∨
      (head ≠ some p ∧ ∃ q ∈ xs, q ≠ p ∧ next q = some p ∧
        (∀ test : α → Bool,
          (∀ r ∈ xs, test r = true → next r = none ∨ next r = some p) → test q = true →
            xs.find? test = some q) ∧
        ∀ next' : α → Option α, next' q = next p → (∀ r, r ≠ q → next' r = next r) →
          Linked next' head (xs.filter (· ≠ p))) := by
  have hnodup := h.nodup
  have hfilter : ∀ pre post : List α, (pre ++ p :: post).Nodup →
      (pre ++ p :: post).filter (· ≠ p) = pre ++ post := by
    intro pre post hsplit
    have hnot := (List.nodup_cons.mp (List.perm_middle.nodup_iff.mp hsplit)).1
    rw [List.filter_append, List.filter_cons_of_neg (by simp), ← List.filter_append,
      List.filter_eq_self.mpr]
    intro r hr
    refine decide_eq_true ?_
    rintro rfl
    exact hnot hr
  obtain ⟨pre, post, rfl⟩ := List.append_of_mem hp
  rw [hfilter pre post hnodup]
  rcases List.eq_nil_or_concat' pre with rfl | ⟨before, q, rfl⟩
  · refine Or.inl ⟨h.head_eq, ?_⟩
    have hhead := h.head_eq
    rw [hhead] at h
    exact h.pop
  · simp only [List.append_assoc, List.singleton_append] at h hnodup ⊢
    have hq : Linked next (some q) (q :: p :: post) := h.suffix
    have hnext : next q = some p := hq.pop.head_eq
    have hne : q ≠ p := by
      rintro rfl
      exact (List.nodup_cons.mp hq.nodup).1 List.mem_cons_self
    refine Or.inr ⟨?_, q, by simp, hne, hnext, fun test htest => h.find_before htest, ?_⟩
    · intro hhead
      cases before with
      | nil => exact hne (Option.some.inj (h.head_eq.symm.trans hhead))
      | cons r before =>
        obtain rfl : r = p := Option.some.inj (h.head_eq.symm.trans hhead)
        exact (List.nodup_cons.mp hnodup).1 (by simp)
    · intro next' hlink hsame
      exact h.unlink hlink hsame

theorem Linked.none_iff (h : Linked next head xs) : head = none ↔ xs = [] := by
  cases h with
  | null => simp
  | cell rest => simp

/-- A cell leads to a cell of the list. -/
theorem Linked.next_mem (h : Linked next head xs) (hp : p ∈ xs) (hq : next p = some q) :
    q ∈ xs := by
  obtain ⟨pre, post, rfl⟩ := List.append_of_mem hp
  have hin := h.suffix.pop.head_mem hq
  exact List.mem_append_right _ (List.mem_cons_of_mem p hin)

variable {ι : Type*} [DecidableEq ι] [DecidableEq α] {heads : ι → Option α} {lists : ι → List α}
  {i : ι}

/-- A cell is taken out of one of many lists that have no cells in common: it is the first one
of its list, or the cell before it is found and leads past it. -/
theorem Linked.family_cases (h : ∀ j, Linked next (heads j) (lists j))
    (hapart : ∀ j j' r, r ∈ lists j → r ∈ lists j' → j = j') (hp : p ∈ lists i) :
    (heads i = some p ∧ ∀ j, Linked next (Function.update heads i (next p) j)
        ((lists j).filter (· ≠ p))) ∨
      (heads i ≠ some p ∧ ∃ q ∈ lists i, q ≠ p ∧ next q = some p ∧
        (∀ test : α → Bool,
          (∀ r ∈ lists i, test r = true → next r = none ∨ next r = some p) → test q = true →
            (lists i).find? test = some q) ∧
        ∀ next' : α → Option α, next' q = next p → (∀ r, r ≠ q → next' r = next r) →
          ∀ j, Linked next' (heads j) ((lists j).filter (· ≠ p))) := by
  have hothers : ∀ j, j ≠ i → (lists j).filter (· ≠ p) = lists j := by
    intro j hj
    refine List.filter_eq_self.mpr (fun r hr => decide_eq_true ?_)
    rintro rfl
    exact hj (hapart j i r hr hp)
  rcases (h i).mem_cases hp with ⟨hhead, hrest⟩ | ⟨hhead, q, hq, hne, hnext, hfind, hlink⟩
  · refine Or.inl ⟨hhead, fun j => ?_⟩
    by_cases hj : j = i
    · subst hj
      rw [Function.update_self]
      exact hrest
    · rw [Function.update_of_ne hj, hothers j hj]
      exact h j
  · refine Or.inr ⟨hhead, q, hq, hne, hnext, hfind, fun next' hpast hsame j => ?_⟩
    by_cases hj : j = i
    · subst hj
      exact hlink next' hpast hsame
    · rw [hothers j hj]
      refine (h j).congr (fun r hr => hsame r ?_)
      rintro rfl
      exact hj (hapart j i r hr hq)

end Lists

section Loops

variable {α σ : Type*}

/-- A loop that follows the field `link` to a cell where it stops. `none` where it reads a cell
that is not there, or is still on its way after `k` cells. -/
def chase (load : α → Option σ) (link : σ → Option α) (stop : σ → Option Bool) :
    ℕ → Option α → Option (Option α)
  | _, none => some none
  | 0, some _ => none
  | k + 1, some p =>
      (load p).bind (fun cell =>
        (stop cell).bind (fun found =>
          if found then some (some p) else chase load link stop k (link cell)))

/-- The field of a cell, null where there is none. -/
def field (load : α → Option σ) (link : σ → Option α) (p : α) : Option α := (load p).bind link

variable {load : α → Option σ} {link : σ → Option α} {stop : σ → Option Bool} {head : Option α}
  {xs : List α} {k : ℕ}

theorem chase_eq (h : Linked (field load link) head xs) (test : α → Bool)
    (hstop : ∀ p ∈ xs, ∃ cell, load p = some cell ∧ stop cell = some (test p))
    (hk : xs.length ≤ k) : chase load link stop k head = some (xs.find? test) := by
  induction h generalizing k with
  | null =>
    cases k with
    | zero => rfl
    | succ k => rfl
  | @cell p xs rest ih =>
    obtain ⟨cell, hload, hfound⟩ := hstop p List.mem_cons_self
    have hlink : link cell = field load link p := by rw [field, hload, Option.bind_some]
    cases k with
    | zero => exact absurd hk (by simp)
    | succ k =>
      rw [chase, hload, Option.bind_some, hfound, Option.bind_some]
      cases htest : test p with
      | true => rw [if_pos rfl, List.find?_cons_of_pos htest]
      | false =>
        rw [if_neg (by simp), hlink, List.find?_cons_of_neg (by simp [htest])]
        refine ih (fun r hr => hstop r (List.mem_cons_of_mem p hr)) ?_
        simpa using hk

end Loops

end Nxwlan.HeapLists
