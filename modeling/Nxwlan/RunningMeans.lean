import Mathlib.Algebra.Order.Field.Rat
import Nxwlan.JsonFrames
import Nxwlan.SlidingWindows

/-!
The running mean of the cran application and of the power control package. It goes by the
sums from the start: a zero is put in front, all sums are taken at once, and the sums are
subtracted from those `N` places further on. Entries are exact rationals. What numpy does
is a parameter, with what its documentation says of it.
-/
namespace Nxwlan.RunningMeans

open JsonFrames PyText SlidingWindows

/-- What the running mean uses of numpy. -/
structure Numpy where
  insert : List ℚ → ℕ → ℚ → List ℚ
  cumsum : List ℚ → List ℚ
  subtract : List ℚ → List ℚ → Except PyError (List ℚ)
  divide : List ℚ → ℚ → List ℚ

structure Numpy.Documented (np : Numpy) : Prop where
  insert (arr : List ℚ) (obj : ℕ) (values : ℚ) (hobj : obj ≤ arr.length) :
    np.insert arr obj values = arr.insertIdx obj values
  length_cumsum (a : List ℚ) : (np.cumsum a).length = a.length
  getElem_cumsum (a : List ℚ) (i : ℕ) (hi : i < (np.cumsum a).length) :
    (np.cumsum a)[i] = (a.take (i + 1)).sum
  subtract (a b : List ℚ) (hlen : a.length = b.length) :
    np.subtract a b = .ok (List.zipWith (fun x y => x - y) a b)
  divide (a : List ℚ) (y : ℚ) (hy : y ≠ 0) : np.divide a y = a.map (fun x => x / y)

/-- The same in `cran.py`, `running_mean.py` and `testCran.py`. -/
def RunningMeanCalculator.running_mean (np : Numpy) (x : List ℚ) (N : ℤ) :
    Except PyError (List ℚ) := do
  let cumsum := np.cumsum (np.insert x 0 0)
  let further := cumsum.drop (bound cumsum.length N)
  let sums ← np.subtract further (cumsum.take (bound cumsum.length (-N)))
  pure (np.divide sums N)

/-- The plain average. -/
def average (x : List ℚ) : ℚ := x.sum / x.length

open RunningMeanCalculator

variable {np : Numpy} {N : ℕ}

/-- With the zero in front the sums begin with the empty one. -/
theorem cumsum_insert (hnp : np.Documented) (x : List ℚ) :
    np.cumsum (np.insert x 0 0) = sums x := by
  rw [hnp.insert x 0 0 (Nat.zero_le _), List.insertIdx_zero]
  have hlen := hnp.length_cumsum (0 :: x)
  apply List.ext_getElem
  · rw [hlen, length_sums, List.length_cons]
  · intro i hi hi'
    rw [hnp.getElem_cumsum (0 :: x) i hi, getElem_sums hi', List.take_succ_cons, List.sum_cons,
      zero_add]

theorem bound_natCast (len : ℕ) (N : ℕ) : bound len (N : ℤ) = min N len := by
  rw [bound, if_neg (by omega), Int.toNat_natCast]

theorem bound_neg (len : ℕ) (hN : 1 ≤ N) : bound len (-(N : ℤ)) = len - N := by
  rw [bound, if_pos (by omega)]
  omega

/-- The two slices of the sums, and what is left of them for each place. -/
theorem running_mean_eq (hnp : np.Documented) (x : List ℚ) (hN : 1 ≤ N) :
    running_mean np x N =
      .ok ((List.zipWith (fun s t => s - t) ((sums x).drop N)
        ((sums x).take (x.length + 1 - N))).map (fun s => s / N)) := by
  have hlen := length_sums x
  have hdrop : (sums x).drop (min N (x.length + 1)) = (sums x).drop N := by
    by_cases hle : N ≤ x.length + 1
    · rw [min_eq_left hle]
    · rw [min_eq_right (by omega), List.drop_of_length_le hlen.le,
        List.drop_of_length_le (by omega)]
  have hsame : ((sums x).drop N).length =
      ((sums x).take (x.length + 1 - N)).length := by
    rw [List.length_drop, List.length_take, hlen]
    omega
  have hdiv : ((N : ℤ) : ℚ) ≠ 0 := by
    rw [Int.cast_natCast, Nat.cast_ne_zero]
    omega
  rw [running_mean, cumsum_insert hnp, hlen, bound_natCast, bound_neg _ hN, hdrop,
    hnp.subtract _ _ hsame]
  change Except.ok (np.divide _ _) = _
  rw [hnp.divide _ _ hdiv, Int.cast_natCast]

/-- For every window that fits, one mean for each place where the window can begin. -/
theorem running_mean_averages (np : Numpy) (hnp : np.Documented) (x : List ℚ) (N : ℕ)
    (hN : 1 ≤ N) (hlen : N ≤ x.length) :
    ∃ means, running_mean np x N = .ok means ∧ means.length = x.length - N + 1 ∧
      ∀ (i : ℕ) (hi : i < means.length), means[i] = average ((x.drop i).take N) := by
  have hsums := length_sums x
  refine ⟨_, running_mean_eq hnp x hN, ?_, ?_⟩
  · rw [List.length_map, List.length_zipWith, List.length_drop, List.length_take, hsums]
    omega
  · intro i hi
    rw [List.length_map, List.length_zipWith, List.length_drop, List.length_take, hsums] at hi
    have hwindow : ((x.drop i).take N).length = N := by
      rw [List.length_take, List.length_drop]
      omega
    rw [List.getElem_map, List.getElem_zipWith, List.getElem_drop, List.getElem_take,
      getElem_sums, getElem_sums, Nat.add_comm N i, sum_take_sub, average,
      hwindow]

/-- Arrays of one dimension as lists; an array with one entry is stretched to the other one. -/
def numpy : Numpy where
  insert arr obj values := arr.insertIdx obj values
  cumsum a := (sums a).tail
  subtract a b :=
    if a.length = b.length then .ok (List.zipWith (fun x y => x - y) a b)
    else
      match a, b with
      | [x], b => .ok (b.map (fun y => x - y))
      | a, [y] => .ok (a.map (fun x => x - y))
      | _, _ => .error .valueError
  divide a y := a.map (fun x => x / y)

theorem numpy_documented : numpy.Documented where
  insert arr obj values hobj := rfl
  length_cumsum a := by
    change (sums a).tail.length = a.length
    rw [List.length_tail, length_sums, Nat.add_sub_cancel]
  getElem_cumsum a i hi := by
    exact (List.getElem_tail hi).trans (getElem_sums _)
  subtract a b hlen := if_pos hlen
  divide a y hy := rfl

example : running_mean numpy [3, 5, 1] 2 = .ok [4, 3] := by decide +kernel

theorem running_mean_averages_pair :
    (1 ≤ 2 ∧ 2 ≤ [3, 5, 1].length) ∧
    ∃ means, running_mean numpy [3, 5, 1] 2 = .ok means ∧ means.length = 2 := by
  obtain ⟨means, hmeans, hlength, -⟩ :=
    running_mean_averages numpy numpy_documented [3, 5, 1] 2 (by decide) (by decide)
  exact ⟨by decide, means, hmeans, hlength⟩

end Nxwlan.RunningMeans
