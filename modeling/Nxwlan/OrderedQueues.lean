import Mathlib.Data.List.Sort
import Mathlib.Order.Defs.LinearOrder

/-!
Queues in the order of a key. What is put in stands behind everything whose key is not larger,
so that entries of one key keep the order in which they came; what stands before an entry
never grows by entries of larger keys.
-/
namespace Nxwlan.OrderedQueues

variable {α K : Type*} [LinearOrder K] (key : α → K) {a b : α} {l pre post : List α}

/-- The entry goes before the first one with a larger key. -/
def enqueue (a : α) (l : List α) : List α := l.orderedInsert (fun x y => key x < key y) a

def Ordered (l : List α) : Prop := l.Pairwise (fun x y => key x ≤ key y)

variable {key}

theorem perm_enqueue (a : α) (l : List α) : (enqueue key a l).Perm (a :: l) :=
  List.perm_orderedInsert _ a l

theorem mem_enqueue : b ∈ enqueue key a l ↔ b = a ∨ b ∈ l := List.mem_orderedInsert _

theorem enqueue_cons (a b : α) (l : List α) :
    enqueue key a (b :: l) = if key a < key b then a :: b :: l else b :: enqueue key a l :=
  List.orderedInsert_cons ..

/-- An entry stays behind those that are not larger. -/
theorem enqueue_append (h : ∀ x ∈ pre, key x ≤ key a) (l : List α) :
    enqueue key a (pre ++ l) = pre ++ enqueue key a l := by
  induction pre with
  | nil => rfl
  | cons x pre ih =>
    have hx := h x (List.mem_cons_self ..)
    rw [List.cons_append, enqueue_cons, if_neg (not_lt.mpr hx),
      ih (fun y hy => h y (List.mem_cons_of_mem _ hy)), List.cons_append]

theorem Ordered.enqueue (h : Ordered key l) (a : α) : Ordered key (enqueue key a l) := by
  induction l with
  | nil => exact List.pairwise_singleton _ _
  | cons b l ih =>
    obtain ⟨hb, hl⟩ := List.pairwise_cons.mp h
    rw [enqueue_cons]
    by_cases hlt : key a < key b
    · rw [if_pos hlt]
      refine List.pairwise_cons.mpr ⟨fun x hx => ?_, h⟩
      rcases List.mem_cons.mp hx with rfl | hx
      · exact hlt.le
      · exact hlt.le.trans (hb x hx)
    · rw [if_neg hlt]
      refine List.pairwise_cons.mpr ⟨fun x hx => ?_, ih hl⟩
      rcases mem_enqueue.mp hx with rfl | hx
      · exact not_lt.mp hlt
      · exact hb x hx

theorem Ordered.sublist {l' : List α} (h : Ordered key l) (hsub : l'.Sublist l) : Ordered key l' :=
  List.Pairwise.sublist hsub h

theorem Ordered.before (h : Ordered key (pre ++ a :: post)) : ∀ x ∈ pre, key x ≤ key a :=
  fun x hx => (List.pairwise_append.mp h).2.2 x hx a (List.mem_cons_self ..)

/-- A later entry does not come before one that is not larger. -/
theorem enqueue_behind (h : Ordered key (pre ++ a :: post)) (hle : key a ≤ key b) :
    enqueue key b (pre ++ a :: post) = pre ++ a :: enqueue key b post := by
  rw [enqueue_append (fun x hx => (h.before x hx).trans hle), enqueue_cons,
    if_neg (not_lt.mpr hle)]

end Nxwlan.OrderedQueues
