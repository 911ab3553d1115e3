import Mathlib.Algebra.BigOperators.Group.List.Basic
import Mathlib.Data.List.DropRight
import Mathlib.Tactic.Abel

/-!
The most recent entries of a growing list. A window that takes each entry as it comes and
gives up its oldest one when it is too long holds the last entries of the whole list; the
sum of the last differences of a list is the difference of two of its entries.
-/
namespace Nxwlan.SlidingWindows

variable {α : Type*} {xs : List α} {n w : ℕ}

theorem length_rtake (xs : List α) (w : ℕ) : (xs.rtake w).length = min xs.length w := by
  rw [List.rtake, List.length_drop]
  omega

theorem rtake_of_length_le (h : xs.length ≤ w) : xs.rtake w = xs := by
  rw [List.rtake, Nat.sub_eq_zero_of_le h, List.drop_zero]

theorem tail_rtake_succ (h : n < xs.length) : (xs.rtake (n + 1)).tail = xs.rtake n := by
  rw [List.rtake, List.rtake, List.tail_drop]
  congr 1
  omega

/-- A full window that takes one more entry and keeps its size. -/
theorem rtake_rtake_concat (xs : List α) (x : α) (hw : 0 < w) :
    (xs.rtake w ++ [x]).rtake w = (xs ++ [x]).rtake w := by
  obtain ⟨n, rfl⟩ := Nat.exists_eq_succ_of_ne_zero hw.ne'
  rw [Nat.succ_eq_add_one, List.rtake_concat_succ, List.rtake_concat_succ]
  congr 1
  by_cases hlen : xs.length ≤ n + 1
  · rw [rtake_of_length_le hlen]
  · have hfull : (xs.rtake (n + 1)).length = n + 1 := by
      rw [length_rtake]
      omega
    have hskip : xs.length - (n + 1) + 1 = xs.length - n := by omega
    rw [List.rtake, hfull, List.rtake, List.drop_drop, List.rtake, Nat.add_sub_cancel_left, hskip]

/-- The window that is trimmed only when it has become too long. -/
theorem trim_rtake_concat (xs : List α) (x : α) (hw : 0 < w) :
    (if w < (xs.rtake w ++ [x]).length then (xs.rtake w ++ [x]).tail else xs.rtake w ++ [x]) =
      (xs ++ [x]).rtake w := by
  obtain ⟨n, rfl⟩ := Nat.exists_eq_succ_of_ne_zero hw.ne'
  rw [Nat.succ_eq_add_one, List.rtake_concat_succ, List.length_append, length_rtake,
    List.length_singleton]
  split
  · have hlen : n < xs.length := by omega
    have hne : xs.rtake (n + 1) ≠ [] := by
      apply List.ne_nil_of_length_pos
      rw [length_rtake]
      omega
    rw [List.tail_append_of_ne_nil hne, tail_rtake_succ hlen]
  · have hlen : xs.length ≤ n := by omega
    rw [rtake_of_length_le hlen, rtake_of_length_le (Nat.le_succ_of_le hlen)]

section Differences

variable {K : Type*} [AddCommGroup K] {ks : List K} {k last : K}

/-- The sums from the start, the empty one first. -/
def sums (ks : List K) : List K := ks.scanl (fun s k => s + k) 0

theorem length_sums (ks : List K) : (sums ks).length = ks.length + 1 := List.length_scanl

theorem getElem_sums {i : ℕ} (h : i < (sums ks).length) : (sums ks)[i] = (ks.take i).sum := by
  rw [List.sum_eq_foldl]
  exact List.getElem_scanl h

/-- Two of them differ by the entries in between. -/
theorem sum_take_sub (ks : List K) (i n : ℕ) :
    (ks.take (i + n)).sum - (ks.take i).sum = ((ks.drop i).take n).sum := by
  rw [List.take_add, List.sum_append, add_sub_cancel_left]

/-- The differences of neighbors. -/
def steps (ks : List K) : List K := List.zipWith (fun next cur => next - cur) ks.tail ks

theorem length_steps (ks : List K) : (steps ks).length = ks.length - 1 := by
  rw [steps, List.length_zipWith, List.length_tail]
  exact min_eq_left (Nat.sub_le _ _)

theorem steps_cons_cons (a b : K) (ks : List K) :
    steps (a :: b :: ks) = (b - a) :: steps (b :: ks) := rfl

/-- One entry more gives the difference to the last one. -/
theorem steps_concat (hlast : ks.getLast? = some last) (k : K) :
    steps (ks ++ [k]) = steps ks ++ [k - last] := by
  induction ks with
  | nil => cases hlast
  | cons a ks ih =>
    cases ks with
    | nil =>
      cases hlast
      rfl
    | cons b ks =>
      rw [List.getLast?_cons_cons] at hlast
      rw [List.cons_append, List.cons_append, steps_cons_cons, steps_cons_cons, ← List.cons_append,
        ih hlast, List.cons_append]

theorem sum_steps (a : K) (ks : List K) (hlast : (a :: ks).getLast? = some last) :
    (steps (a :: ks)).sum = last - a := by
  induction ks generalizing a with
  | nil =>
    cases hlast
    exact (sub_self a).symm
  | cons b ks ih =>
    rw [List.getLast?_cons_cons] at hlast
    rw [steps_cons_cons, List.sum_cons, ih b hlast]
    abel

/-- The sum of the differences behind a place leads from its entry to the last. -/
theorem sum_drop_steps {j : ℕ} (hj : ks[j]? = some k) (hlast : ks.getLast? = some last) :
    ((steps ks).drop j).sum = last - k := by
  induction ks generalizing j with
  | nil => cases hlast
  | cons a ks ih =>
    cases j with
    | zero =>
      have ha : a = k := Option.some.inj hj
      rw [← ha]
      exact sum_steps a ks hlast
    | succ j =>
      cases ks with
      | nil => cases hj
      | cons b ks =>
        rw [List.getLast?_cons_cons] at hlast
        rw [steps_cons_cons, List.drop_succ_cons]
        exact ih hj hlast

end Differences

end Nxwlan.SlidingWindows
