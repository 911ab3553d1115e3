import Mathlib.Data.List.Infix

/-!
Scans for the letter behind a marker, on a memory that begins with a text and goes on behind
it. The letters of the marker are compared one after the other, up to the first that differs,
and what is read is recorded. A scan stays in the text unless the text ends in the middle of
a marker.
-/
namespace Nxwlan.MarkerScans

section Memory

variable {α : Type*}

/-- The text, and behind it whatever the memory holds. -/
def memory (t : List α) (behind : ℕ → α) (i : ℕ) : α := t[i]?.getD (behind i)

theorem memory_lt {t : List α} {i : ℕ} (behind : ℕ → α) (hi : i < t.length) :
    memory t behind i = t[i] := by
  rw [memory, List.getElem?_eq_getElem hi, Option.getD_some]

/-- Some letters at the end of the text begin a marker. -/
def EndsIn (p t : List α) : Prop := ∃ u, u ≠ [] ∧ u <:+ t ∧ u <+: p

theorem endsIn_iff {p t : List α} : EndsIn p t ↔ ∃ i < t.length, t.drop i <+: p := by
  constructor
  · rintro ⟨u, hne, ⟨s, rfl⟩, hprefix⟩
    have hpos := List.length_pos_iff.mpr hne
    refine ⟨s.length, by rw [List.length_append]; omega, ?_⟩
    rwa [List.drop_left]
  · rintro ⟨i, hi, hprefix⟩
    have hne : t.drop i ≠ [] := by
      rw [ne_eq, List.drop_eq_nil_iff]
      omega
    exact ⟨t.drop i, hne, List.drop_suffix i t, hprefix⟩

end Memory

section Scans

variable {α : Type*} [DecidableEq α] {t p : List α} {i : ℕ} {v : α}

instance (p t : List α) : Decidable (EndsIn p t) := decidable_of_iff' _ endsIn_iff

/-- The indices that are read for a marker at `i`, and the letter behind the marker. -/
def letterBehind (mem : ℕ → α) : List α → ℕ → List ℕ × Option α
  | [], i => ([i], some (mem i))
  | a :: p, i =>
      if mem i = a then
        let rest := letterBehind mem p (i + 1)
        (i :: rest.1, rest.2)
      else ([i], none)

/-- What one comparison reads is in the text unless the text ends before the first difference. -/
theorem reads_at_lt_iff (behind : ℕ → α) (hi : i ≤ t.length) :
    (∀ j ∈ (letterBehind (memory t behind) p i).1, j < t.length) ↔ ¬ t.drop i <+: p := by
  induction p generalizing i with
  | nil =>
    rw [letterBehind, List.forall_mem_singleton, List.prefix_nil, List.drop_eq_nil_iff, not_le]
  | cons a p ih =>
    rw [letterBehind]
    obtain hlt | rfl := hi.lt_or_eq
    · rw [List.drop_eq_getElem_cons hlt, List.cons_prefix_cons, memory_lt behind hlt]
      by_cases ha : t[i] = a
      · rw [if_pos ha, List.forall_mem_cons, ih hlt]
        simp only [hlt, ha, true_and]
      · rw [if_neg ha, List.forall_mem_singleton]
        simp only [hlt, ha, false_and, not_false_eq_true]
    · have hprefix : t.drop t.length <+: a :: p := by
        rw [List.drop_length]
        exact List.nil_prefix
      refine iff_of_false (fun hreads => ?_) (not_not.mpr hprefix)
      have hfirst : t.length ∈ (letterBehind (memory t behind) (a :: p) t.length).1 := by
        rw [letterBehind]
        split
        · exact List.mem_cons_self
        · exact List.mem_cons_self
      exact Nat.lt_irrefl _ (hreads _ hfirst)

/-- As long as it reads the text, a comparison finds the letter behind the marker. -/
theorem letterBehind_eq_some_iff (behind : ℕ → α) (hin : ¬ t.drop i <+: p) :
    (letterBehind (memory t behind) p i).2 = some v ↔ p ++ [v] <+: t.drop i := by
  induction p generalizing i with
  | nil =>
    have hlt : i < t.length := by
      rw [List.prefix_nil, List.drop_eq_nil_iff, not_le] at hin
      exact hin
    rw [letterBehind, memory_lt behind hlt, List.drop_eq_getElem_cons hlt, List.nil_append,
      List.cons_prefix_cons, Option.some.injEq]
    exact ⟨fun h => ⟨h.symm, List.nil_prefix⟩, fun h => h.1.symm⟩
  | cons a p ih =>
    have hlt : i < t.length := by
      by_contra hge
      rw [List.drop_eq_nil_iff.mpr (Nat.not_lt.mp hge)] at hin
      exact hin List.nil_prefix
    rw [List.drop_eq_getElem_cons hlt, List.cons_prefix_cons, not_and] at hin
    rw [letterBehind, memory_lt behind hlt, List.drop_eq_getElem_cons hlt, List.cons_append,
      List.cons_prefix_cons]
    by_cases ha : t[i] = a
    · rw [if_pos ha, ih (hin ha)]
      exact ⟨fun h => ⟨ha.symm, h⟩, fun h => h.2⟩
    · rw [if_neg ha]
      exact iff_of_false (fun h => Option.some_ne_none v h.symm) (fun h => ha h.1.symm)

/-- What a scan of the whole text reads. -/
def reads (mem : ℕ → α) (p : List α) (indices : List ℕ) : List ℕ :=
  indices.flatMap (fun i => (letterBehind mem p i).1)

/-- The letters that a scan finds behind the markers. -/
def found (mem : ℕ → α) (p : List α) (indices : List ℕ) : List α :=
  indices.filterMap (fun i => (letterBehind mem p i).2)

/-- A scan stays in the text exactly when the text does not end in the middle of a marker. -/
theorem reads_lt_iff (t p : List α) (behind : ℕ → α) :
    (∀ j ∈ reads (memory t behind) p (List.range t.length), j < t.length) ↔ ¬ EndsIn p t := by
  have hround : ∀ i < t.length,
      ((∀ j ∈ (letterBehind (memory t behind) p i).1, j < t.length) ↔ ¬ t.drop i <+: p) :=
    fun i hi => reads_at_lt_iff behind hi.le
  rw [endsIn_iff, reads, List.forall_mem_flatMap]
  constructor
  · rintro hreads ⟨i, hi, hprefix⟩
    exact (hround i hi).mp (hreads i (List.mem_range.mpr hi)) hprefix
  · intro hends i hi
    have hlt := List.mem_range.mp hi
    exact (hround i hlt).mpr (fun hprefix => hends ⟨i, hlt, hprefix⟩)

/-- In that case it finds the letters behind the markers of the text and no others. -/
theorem mem_found_iff (behind : ℕ → α) (h : ¬ EndsIn p t) :
    v ∈ found (memory t behind) p (List.range t.length) ↔ p ++ [v] <:+: t := by
  rw [endsIn_iff] at h
  rw [found, List.mem_filterMap, List.infix_iff_prefix_suffix]
  constructor
  · rintro ⟨i, hi, hfound⟩
    have hin : ¬ t.drop i <+: p := fun hprefix => h ⟨i, List.mem_range.mp hi, hprefix⟩
    exact ⟨t.drop i, (letterBehind_eq_some_iff behind hin).mp hfound, List.drop_suffix i t⟩
  · rintro ⟨u, hprefix, ⟨s, rfl⟩⟩
    have hpos : 0 < u.length := by
      have hle := hprefix.length_le
      rw [List.length_append, List.length_singleton] at hle
      omega
    have hlt : s.length < (s ++ u).length := by
      rw [List.length_append]
      omega
    have hin : ¬ (s ++ u).drop s.length <+: p := fun hprefix => h ⟨s.length, hlt, hprefix⟩
    refine ⟨s.length, List.mem_range.mpr hlt, (letterBehind_eq_some_iff behind hin).mpr ?_⟩
    rwa [List.drop_left]

end Scans

end Nxwlan.MarkerScans
