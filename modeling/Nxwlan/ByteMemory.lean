import Mathlib.Data.List.GetD
import Mathlib.Data.Nat.Init

/-!
A memory of cells with addresses. Stores of a few cells behind one another are one store, a
load gives back what a store has put there, and other cells are left alone.
-/
namespace Nxwlan.ByteMemory

variable {α : Type*}

abbrev Memory (α : Type*) := ℕ → α

def store (mem : Memory α) (a : ℕ) (cells : List α) : Memory α :=
  fun i => if i < a then mem i else (cells[i - a]?).getD (mem i)

def load (mem : Memory α) (a n : ℕ) : List α := (List.range n).map (fun i => mem (a + i))

variable {mem : Memory α} {a : ℕ} {cells : List α}

@[simp] theorem length_load (mem : Memory α) (a n : ℕ) : (load mem a n).length = n := by
  rw [load, List.length_map, List.length_range]

theorem load_add (mem : Memory α) (a m n : ℕ) :
    load mem a (m + n) = load mem a m ++ load mem (a + m) n := by
  simp only [load, List.range_add, List.map_append, List.map_map, Function.comp_def,
    Nat.add_assoc]

theorem store_before {i : ℕ} (hi : i < a) : store mem a cells i = mem i := if_pos hi

theorem store_behind {i : ℕ} (hi : a + cells.length ≤ i) : store mem a cells i = mem i := by
  rw [store, if_neg (by omega), List.getElem?_eq_none (by omega), Option.getD_none]

theorem store_at {i : ℕ} (hi : i < cells.length) : store mem a cells (a + i) = cells[i] := by
  rw [store, if_neg (by omega), Nat.add_sub_cancel_left, List.getElem?_eq_getElem hi,
    Option.getD_some]

theorem load_store (mem : Memory α) (a : ℕ) (cells : List α) :
    load (store mem a cells) a cells.length = cells := by
  apply List.ext_getElem
  · exact length_load _ _ _
  · intro i hi hi'
    simp only [load, List.getElem_map, List.getElem_range]
    exact store_at hi'

/-- A store right behind another one. -/
theorem store_store (mem : Memory α) (a : ℕ) (cells cells' : List α) :
    store (store mem a cells) (a + cells.length) cells' = store mem a (cells ++ cells') := by
  funext i
  by_cases hbefore : i < a
  · rw [store_before (by omega), store_before hbefore, store_before hbefore]
  · by_cases hfirst : i < a + cells.length
    · rw [store_before hfirst, store, store, if_neg hbefore, if_neg hbefore,
        List.getElem?_append_left (by omega)]
    · rw [store, if_neg hfirst, store_behind (by omega), store, if_neg hbefore,
        List.getElem?_append_right (by omega), Nat.sub_sub]

end Nxwlan.ByteMemory
