import Mathlib.Data.List.Nodup
import Mathlib.Data.List.Perm.Subperm
import Mathlib.Logic.Function.Basic
import Mathlib.Tactic.Common

/-!
A window over numbers that never wrap. What is put into it is held until all numbers before it
are there, or have been given up; it goes out in the order of the numbers. Whatever is
put in is held or has gone out, once.
-/
namespace Nxwlan.ReorderWindow

/-- The numbers before `next` have gone out or have been given up. -/
structure Window (α : Type*) where
  next : ℕ
  held : ℕ → Option α := fun _ => none
  out : List (ℕ × α) := []
  taken : List (ℕ × α) := []

variable {α : Type*} {w w' : Window α} {m k n : ℕ} {a : α}

section Operations

/-- The next number goes out if it is held, and is given up otherwise. -/
def pop (w : Window α) : Window α :=
  { w with
    next := w.next + 1
    held := Function.update w.held w.next none
    out := w.out ++ ((w.held w.next).map (fun a => (w.next, a))).toList }

def pops : ℕ → Window α → Window α
  | 0, w => w
  | k + 1, w => pops k (pop w)

def put (n : ℕ) (a : α) (w : Window α) : Window α :=
  { w with held := Function.update w.held n (some a), taken := w.taken ++ [(n, a)] }

/-- What comes next goes out as long as it is held. -/
def settle : ℕ → Window α → Window α
  | 0, w => w
  | k + 1, w => if (w.held w.next).isSome then settle k (pop w) else w

/-- From the number `n` on, what is late goes out, and what comes next behind it; the numbers
before it are given up. -/
def expire (late : α → Bool) : ℕ → ℕ → Window α → Window α
  | 0, _, w => w
  | k + 1, n, w =>
      match w.held n with
      | none => expire late k (n + 1) w
      | some a =>
          if n ≠ w.next ∧ late a = false then w
          else expire late k (n + 1) (pops (n + 1 - w.next) w)

/-- What can go out of a window for `m` numbers. -/
def release (m : ℕ) (late : α → Bool) (w : Window α) : Window α :=
  if (w.held w.next).isSome then settle m w else expire late (m - 1) (w.next + 1) w

/-- The window moves for a number behind its end; a number that is held already is not put in
again. -/
def receive (m : ℕ) (late : α → Bool) (n : ℕ) (a : α) (w : Window α) : Window α :=
  let w := pops (n + 1 - m - w.next) w
  if (w.held n).isSome then w else release m late (put n a w)

end Operations

section Order

/-- A window for `m` numbers. -/
structure Sound (m : ℕ) (w : Window α) : Prop where
  room : ∀ n, (w.held n).isSome = true → w.next ≤ n ∧ n < w.next + m
  order : w.out.Pairwise (fun x y => x.1 < y.1)
  passed : ∀ x ∈ w.out, x.1 < w.next
  distinct : (w.taken.map Prod.fst).Nodup
  taken : ∀ n a, (n, a) ∈ w.taken ↔ (n, a) ∈ w.out ∨ w.held n = some a

theorem held_pop_self (w : Window α) : (pop w).held w.next = none := Function.update_self ..

theorem held_pop (h : n ≠ w.next) : (pop w).held n = w.held n := Function.update_of_ne h ..

theorem Sound.start (m next : ℕ) : Sound m ({ next } : Window α) := by
  refine ⟨fun n h => ?_, List.Pairwise.nil, ?_, List.nodup_nil, fun n a => ?_⟩
  · cases h
  · simp
  · simp

theorem Sound.pop (h : Sound m w) : Sound m (pop w) := by
  have hout : ∀ x, x ∈ (ReorderWindow.pop w).out ↔
      x ∈ w.out ∨ (x.1 = w.next ∧ w.held w.next = some x.2) := by
    intro x
    simp only [ReorderWindow.pop, List.mem_append, Option.mem_toList, Option.map_eq_some_iff]
    constructor
    · rintro (hx | ⟨a, ha, rfl⟩)
      · exact Or.inl hx
      · exact Or.inr ⟨rfl, ha⟩
    · rintro (hx | ⟨hnext, ha⟩)
      · exact Or.inl hx
      · exact Or.inr ⟨x.2, ha, Prod.ext hnext.symm rfl⟩
  refine ⟨fun n hn => ?_, ?_, fun x hx => ?_, h.distinct, fun n a => ?_⟩
  · by_cases hnext : n = w.next
    · rw [hnext, held_pop_self] at hn
      cases hn
    · rw [held_pop hnext] at hn
      obtain ⟨hle, hlt⟩ := h.room n hn
      show w.next + 1 ≤ n ∧ n < w.next + 1 + m
      omega
  · refine List.pairwise_append.mpr ⟨h.order, ?_, fun x hx y hy => ?_⟩
    · cases w.held w.next with
      | none => exact List.Pairwise.nil
      | some a => exact List.pairwise_singleton _ _
    · rw [Option.mem_toList, Option.map_eq_some_iff] at hy
      obtain ⟨a, -, rfl⟩ := hy
      exact h.passed x hx
  · show x.1 < w.next + 1
    rcases (hout x).mp hx with hx | ⟨hnext, -⟩
    · exact Nat.lt_succ_of_lt (h.passed x hx)
    · omega
  · rw [hout]
    show (n, a) ∈ w.taken ↔ _
    rw [h.taken]
    by_cases hnext : n = w.next
    · rw [hnext, held_pop_self]
      simp
    · rw [held_pop hnext]
      simp [hnext]

theorem Sound.pops (h : Sound m w) (k : ℕ) : Sound m (pops k w) := by
  induction k generalizing w with
  | zero => exact h
  | succ k ih => exact ih h.pop

/-- A number is put into the window that it has not seen. -/
theorem Sound.put (h : Sound m w) (hle : w.next ≤ n) (hlt : n < w.next + m)
    (hnew : w.held n = none) (a : α) : Sound m (put n a w) := by
  have hkeep : ∀ n', n' ≠ n → (ReorderWindow.put n a w).held n' = w.held n' :=
    fun n' hn => Function.update_of_ne hn ..
  have hself : (ReorderWindow.put n a w).held n = some a := Function.update_self ..
  have hfresh : ∀ b, (n, b) ∉ w.taken := by
    intro b hb
    rcases (h.taken n b).mp hb with hout | hheld
    · exact absurd (h.passed _ hout) (Nat.not_lt.mpr hle)
    · rw [hnew] at hheld
      cases hheld
  refine ⟨fun n' hn => ?_, h.order, h.passed, ?_, fun n' b => ?_⟩
  · by_cases hsame : n' = n
    · rw [hsame]
      exact ⟨hle, hlt⟩
    · rw [hkeep n' hsame] at hn
      exact h.room n' hn
  · show ((w.taken ++ [(n, a)]).map Prod.fst).Nodup
    rw [List.map_append, List.nodup_append]
    refine ⟨h.distinct, by simp, ?_⟩
    rintro n₁ hx n₂ hy rfl
    obtain ⟨⟨n₃, b⟩, hmem, rfl⟩ := List.mem_map.mp hx
    obtain rfl : n₃ = n := by simpa using hy
    exact hfresh b hmem
  · show (n', b) ∈ w.taken ++ [(n, a)] ↔ (n', b) ∈ w.out ∨ _
    rw [List.mem_append, h.taken, List.mem_singleton]
    by_cases hsame : n' = n
    · subst hsame
      rw [hself, hnew]
      simp [eq_comm]
    · rw [hkeep n' hsame]
      simp [hsame]

theorem Sound.settle (h : Sound m w) (k : ℕ) : Sound m (settle k w) := by
  induction k generalizing w with
  | zero => exact h
  | succ k ih =>
    unfold ReorderWindow.settle
    split
    · exact ih h.pop
    · exact h

theorem Sound.expire (h : Sound m w) (late : α → Bool) (k n : ℕ) :
    Sound m (expire late k n w) := by
  induction k generalizing w n with
  | zero => exact h
  | succ k ih =>
    unfold ReorderWindow.expire
    split
    · exact ih h (n + 1)
    · split
      · exact h
      · exact ih (h.pops _) (n + 1)

theorem Sound.release (h : Sound m w) (late : α → Bool) : Sound m (release m late w) := by
  unfold ReorderWindow.release
  split
  · exact h.settle m
  · exact h.expire late _ _

theorem pop_next (w : Window α) : (pop w).next = w.next + 1 := rfl

theorem pops_next (k : ℕ) (w : Window α) : (pops k w).next = w.next + k := by
  induction k generalizing w with
  | zero => rfl
  | succ k ih =>
    rw [pops, ih, pop_next]
    omega

theorem Sound.receive (h : Sound m w) (hm : 0 < m) (late : α → Bool) (hn : w.next ≤ n) (a : α) :
    Sound m (receive m late n a w) := by
  have hpops := h.pops (n + 1 - m - w.next)
  have hnext := pops_next (n + 1 - m - w.next) w
  unfold ReorderWindow.receive
  simp only
  split
  · exact hpops
  · rename_i hnew
    refine (hpops.put ?_ ?_ (by simpa using hnew) a).release late
    · omega
    · omega

end Order

section Gaps

theorem held_of_pop (h : (pop w).held n = some a) : w.held n = some a := by
  by_cases hn : n = w.next
  · rw [hn, held_pop_self] at h
    cases h
  · rwa [held_pop hn] at h

theorem held_of_pops {k : ℕ} (h : (pops k w).held n = some a) : w.held n = some a := by
  induction k generalizing w with
  | zero => exact h
  | succ k ih => exact held_of_pop (ih h)

theorem pop_gap (h : w.held w.next = none) : pop w = { w with next := w.next + 1 } := by
  have hheld : Function.update w.held w.next none = w.held := by
    rw [← h]
    exact Function.update_eq_self _ _
  rw [pop, hheld, h, Option.map_none, Option.toList_none, List.append_nil]

theorem pops_add (j k : ℕ) (w : Window α) : pops (j + k) w = pops k (pops j w) := by
  induction j generalizing w with
  | zero => rw [Nat.zero_add, pops]
  | succ j ih => rw [Nat.succ_add, pops, pops, ih]

theorem settle_gap (h : w.held w.next = none) (k : ℕ) : settle k w = w := by
  cases k with
  | zero => rfl
  | succ k => rw [settle, h, if_neg (by simp)]

theorem expire_empty (h : ∀ n, w.held n = none) (late : α → Bool) (k n : ℕ) :
    expire late k n w = w := by
  induction k generalizing n with
  | zero => rfl
  | succ k ih =>
    rw [expire, h]
    exact ih (n + 1)

theorem release_empty (h : ∀ n, w.held n = none) (late : α → Bool) : release m late w = w := by
  rw [release, h, if_neg (by simp)]
  exact expire_empty h late _ _

/-- What comes next goes straight through a window that holds nothing else. -/
theorem release_put (h : ∀ n, w.held n = none) (hm : 0 < m) (late : α → Bool) (a : α) :
    release m late (put w.next a w) = pop (put w.next a w) := by
  have hself : (put w.next a w).held (put w.next a w).next = some a := Function.update_self ..
  obtain ⟨m, rfl⟩ := Nat.exists_eq_succ_of_ne_zero (Nat.pos_iff_ne_zero.mp hm)
  rw [release, hself, if_pos Option.isSome_some, settle, hself, if_pos Option.isSome_some,
    settle_gap]
  show Function.update (Function.update w.held w.next (some a)) w.next none (w.next + 1) = none
  rw [Function.update_of_ne (by omega), Function.update_of_ne (by omega), h]

end Gaps

section Counts

theorem Sound.out_nodup (h : Sound m w) : w.out.Nodup :=
  h.order.imp (fun hlt heq => absurd (congrArg Prod.fst heq) (Nat.ne_of_lt hlt))

theorem Sound.taken_nodup (h : Sound m w) : w.taken.Nodup := List.Nodup.of_map _ h.distinct

/-- Something is held exactly when more has been put in than has gone out. -/
theorem Sound.held_iff (h : Sound m w) :
    (∃ n, (w.held n).isSome = true) ↔ w.out.length < w.taken.length := by
  constructor
  · rintro ⟨n, hn⟩
    obtain ⟨a, ha⟩ := Option.isSome_iff_exists.mp hn
    have hnew : (n, a) ∉ w.out :=
      fun hout => absurd (h.passed _ hout) (Nat.not_lt.mpr (h.room n hn).1)
    have hsub : ((n, a) :: w.out).Subperm w.taken := by
      refine List.Nodup.subperm (List.nodup_cons.mpr ⟨hnew, h.out_nodup⟩) ?_
      intro x hx
      rcases List.mem_cons.mp hx with rfl | hx
      · exact (h.taken n a).mpr (Or.inr ha)
      · exact (h.taken x.1 x.2).mpr (Or.inl hx)
    exact hsub.length_le
  · intro hlt
    by_contra hnone
    have hsub : w.taken.Subperm w.out := by
      refine List.Nodup.subperm h.taken_nodup ?_
      intro x hx
      rcases (h.taken x.1 x.2).mp hx with hout | hheld
      · exact hout
      · exact absurd ⟨x.1, by rw [hheld]; rfl⟩ hnone
    exact absurd hsub.length_le (Nat.not_le.mpr hlt)

theorem Sound.length_le (h : Sound m w) : w.out.length ≤ w.taken.length := by
  refine (List.Nodup.subperm h.out_nodup ?_).length_le
  intro x hx
  exact (h.taken x.1 x.2).mpr (Or.inl hx)

end Counts

section Taken

theorem pops_taken (k : ℕ) (w : Window α) : (pops k w).taken = w.taken := by
  induction k generalizing w with
  | zero => rfl
  | succ k ih => exact ih (pop w)

theorem settle_taken (k : ℕ) (w : Window α) : (settle k w).taken = w.taken := by
  induction k generalizing w with
  | zero => rfl
  | succ k ih =>
    unfold settle
    split
    · exact ih (pop w)
    · rfl

theorem expire_taken (late : α → Bool) (k n : ℕ) (w : Window α) :
    (expire late k n w).taken = w.taken := by
  induction k generalizing w n with
  | zero => rfl
  | succ k ih =>
    unfold expire
    split
    · exact ih _ _
    · split
      · rfl
      · rw [ih, pops_taken]

theorem release_taken (m : ℕ) (late : α → Bool) (w : Window α) :
    (release m late w).taken = w.taken := by
  unfold release
  split
  · exact settle_taken m w
  · exact expire_taken late _ _ w

theorem mem_taken_receive {late : α → Bool} {x : ℕ × α}
    (hx : x ∈ (receive m late n a w).taken) : x ∈ w.taken ∨ x = (n, a) := by
  unfold receive at hx
  simp only at hx
  split at hx
  · rw [pops_taken] at hx
    exact Or.inl hx
  · rw [release_taken] at hx
    rcases List.mem_append.mp hx with hx | hx
    · rw [pops_taken] at hx
      exact Or.inl hx
    · exact Or.inr (List.mem_singleton.mp hx)

end Taken

end Nxwlan.ReorderWindow
