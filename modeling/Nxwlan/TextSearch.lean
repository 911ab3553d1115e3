import Nxwlan.PyText
import Mathlib.Data.List.Infix

/-!
Where `cut` and `replace` find a text inside another one. A separator that no
proper end of itself starts cannot overlap with itself, so that a search finds
it where it was put, unless it occurs before.
-/
namespace Nxwlan.PyText

variable {sep s t a b new : Text} {d : Char}

/-- No proper end of the separator is a beginning of it. -/
def Borderless (sep : Text) : Prop := ∀ i < sep.length, 0 < i → ¬ sep.drop i <+: sep

instance (sep : Text) : Decidable (Borderless sep) :=
  inferInstanceAs (Decidable (∀ i < sep.length, _))

theorem cut_some (h : cut sep s = some (a, b)) : s = a ++ sep ++ b := by
  induction s generalizing a with
  | nil =>
    unfold cut at h
    split at h
    · rename_i hsep
      simp only [Option.some.injEq, Prod.mk.injEq] at h
      obtain ⟨rfl, rfl⟩ := h
      rw [hsep]
      rfl
    · cases h
  | cons c s ih =>
    unfold cut at h
    split at h
    · rename_i hfound
      obtain ⟨rest, hrest⟩ := List.isPrefixOf_iff_prefix.mp hfound
      simp only [Option.some.injEq, Prod.mk.injEq] at h
      obtain ⟨rfl, rfl⟩ := h
      rw [← hrest, List.drop_left]
      rfl
    · obtain ⟨⟨a', b'⟩, hcut, hab⟩ := Option.map_eq_some_iff.mp h
      simp only [Prod.mk.injEq] at hab
      obtain ⟨rfl, rfl⟩ := hab
      rw [ih hcut]
      rfl

theorem cut_none_iff : cut sep s = none ↔ ¬ sep <:+: s := by
  induction s with
  | nil =>
    rw [List.infix_nil]
    unfold cut
    split
    · rename_i hsep
      simp [hsep]
    · rename_i hsep
      simp [hsep]
  | cons c s ih =>
    rw [cut, List.infix_cons_iff, ← List.isPrefixOf_iff_prefix]
    split
    · rename_i hfound
      simp [hfound]
    · rename_i hfound
      simp [hfound, ih]

theorem contains_iff : contains sep s = true ↔ sep <:+: s := by
  rw [contains, Option.isSome_iff_ne_none, ne_eq, cut_none_iff, not_not]

theorem contains_eq_false_iff : contains sep s = false ↔ ¬ sep <:+: s := by
  rw [← contains_iff, Bool.not_eq_true]

/-- What is found in a text is found at the same place in a longer one. -/
theorem cut_append_right (h : cut sep s = some (a, b)) : cut sep (s ++ t) = some (a, b ++ t) := by
  induction s generalizing a with
  | nil =>
    have hsep : sep = [] := by
      by_contra hne
      simp [cut, hne] at h
    subst hsep
    simp only [cut, if_true, Option.some.injEq, Prod.mk.injEq] at h
    obtain ⟨rfl, rfl⟩ := h
    cases t with
    | nil => rfl
    | cons c t => simp [cut]
  | cons c s ih =>
    have hlen := congrArg List.length (cut_some h)
    unfold cut at h
    split at h
    · rename_i hfound
      have hstarts := List.isPrefixOf_iff_prefix.mp hfound
      simp only [Option.some.injEq, Prod.mk.injEq] at h
      obtain ⟨rfl, rfl⟩ := h
      have hfound' : sep.isPrefixOf (c :: (s ++ t)) = true :=
        List.isPrefixOf_iff_prefix.mpr (hstarts.trans (List.prefix_append (c :: s) t))
      rw [List.cons_append, cut, hfound', if_pos rfl, ← List.cons_append,
        List.drop_append_of_le_length hstarts.length_le]
    · rename_i hfound
      obtain ⟨⟨a', b'⟩, hcut, hab⟩ := Option.map_eq_some_iff.mp h
      simp only [Prod.mk.injEq] at hab
      obtain ⟨rfl, rfl⟩ := hab
      -- the separator fits into the shorter text
      have hfound' : sep.isPrefixOf (c :: (s ++ t)) = false := by
        rw [List.isPrefixOf_iff_prefix] at hfound
        rw [← Bool.not_eq_true, List.isPrefixOf_iff_prefix]
        intro hstarts
        refine hfound (List.prefix_of_prefix_length_le hstarts (List.prefix_append (c :: s) t) ?_)
        simp only [List.length_append] at hlen
        omega
      rw [List.cons_append, cut, hfound', ih hcut]
      rfl

/-- A separator is found where it was put, if it does not occur before. -/
theorem cut_borderless (hsep : Borderless sep) (hne : sep ≠ []) (ha : ¬ sep <:+: a) :
    cut sep (a ++ sep ++ b) = some (a, b) := by
  induction a with
  | nil =>
    cases sep with
    | nil => exact absurd rfl hne
    | cons c sep => simp [cut, List.isPrefixOf_iff_prefix]
  | cons c a ih =>
    rw [List.infix_cons_iff, not_or] at ha
    have hfound : sep.isPrefixOf (c :: (a ++ sep ++ b)) = false := by
      rw [← Bool.not_eq_true, List.isPrefixOf_iff_prefix]
      intro hstarts
      rw [List.append_assoc, ← List.cons_append] at hstarts
      rcases Nat.lt_or_ge (c :: a).length sep.length with hlong | hshort
      · -- the occurrence would reach into the separator that was put
        have hdrop : sep.drop (c :: a).length <+: sep ++ b := by
          obtain ⟨rest, hrest⟩ := hstarts
          have := congrArg (List.drop (c :: a).length) hrest
          rw [List.drop_append_of_le_length hlong.le, List.drop_left] at this
          exact ⟨rest, this⟩
        refine hsep _ hlong (Nat.succ_pos _) ?_
        refine List.prefix_of_prefix_length_le hdrop (List.prefix_append _ _) ?_
        rw [List.length_drop]
        omega
      · exact ha.1 (List.prefix_of_prefix_length_le hstarts (List.prefix_append _ _) hshort)
    rw [List.cons_append, List.cons_append, cut, hfound, ih ha.2]
    rfl

/-- A cut at a letter is at its first occurrence. -/
theorem not_mem_of_cut_letter (h : cut [d] s = some (a, b)) : d ∉ a := by
  induction s generalizing a with
  | nil => simp [cut] at h
  | cons e s ih =>
    unfold cut at h
    split at h
    · obtain ⟨rfl, -⟩ := Prod.mk.inj (Option.some.inj h)
      exact List.not_mem_nil
    · rename_i hne
      obtain ⟨⟨a', b'⟩, hcut, hpair⟩ := Option.map_eq_some_iff.mp h
      obtain ⟨rfl, rfl⟩ := Prod.mk.inj hpair
      have hde : d ≠ e := by
        rintro rfl
        simp [List.isPrefixOf] at hne
      simp only [List.mem_cons, not_or]
      exact ⟨hde, ih hcut⟩

/-- The first part of a text that is cut at a letter. -/
theorem split_letter_head (d : Char) (n : ℕ) (s : Text) :
    ∃ first rest, split [d] (n + 1) s = first :: rest ∧ ∀ c ∈ first, c ∈ s ∧ c ≠ d := by
  unfold split
  cases hcut : cut [d] s with
  | none =>
    refine ⟨s, [], rfl, ?_⟩
    intro c hc
    refine ⟨hc, ?_⟩
    rintro rfl
    exact cut_none_iff.mp hcut ((List.singleton_infix_iff c s).mpr hc)
  | some parts =>
    refine ⟨parts.1, split [d] n parts.2, rfl, ?_⟩
    intro c hc
    refine ⟨mem_of_cut hcut (Or.inl hc), ?_⟩
    rintro rfl
    exact not_mem_of_cut_letter hcut hc

theorem split_letter_append (n : ℕ) (b : Text) (ha : d ∉ a) :
    split [d] (n + 1) (a ++ d :: b) = a :: split [d] n b := by
  have hcut : cut [d] (a ++ d :: b) = some (a, b) := by
    have := @cut_append d [] a b ha
    simpa using this
  rw [split, hcut]

/-- A text without the letter is one piece. -/
theorem split_letter_none (n : ℕ) (ha : d ∉ a) : split [d] n a = [a] := by
  cases n with
  | zero => rfl
  | succ n =>
    have hcut : cut [d] a = none := by
      rw [cut_none_iff]
      intro hinside
      exact ha (hinside.subset List.mem_cons_self)
    rw [split, hcut]

/-- A text is not found across a letter that it does not have. -/
theorem infix_append_cons (hd : d ∉ sep) : sep <:+: s ++ d :: t ↔ sep <:+: s ∨ sep <:+: t := by
  constructor
  · rintro ⟨u, v, huv⟩
    rw [List.append_assoc, List.append_eq_append_iff] at huv
    rcases huv with ⟨w, rfl, hw⟩ | ⟨w, rfl, hw⟩
    · rw [List.append_eq_append_iff] at hw
      rcases hw with ⟨x, rfl, -⟩ | ⟨x, rfl, hx⟩
      · exact Or.inl ⟨u, x, by simp⟩
      · cases x with
        | nil => exact Or.inl ⟨u, [], by simp⟩
        | cons e x =>
          obtain ⟨rfl, -⟩ := List.cons.inj hx
          exact absurd (by simp) hd
    · cases w with
      | nil =>
        cases sep with
        | nil => exact Or.inr (List.nil_infix)
        | cons e sep =>
          obtain ⟨rfl, -⟩ := List.cons.inj hw
          exact absurd (by simp) hd
      | cons e w =>
        obtain ⟨rfl, rfl⟩ := List.cons.inj hw
        exact Or.inr ⟨w, v, by simp⟩
  · rintro (h | h)
    · exact h.trans (List.prefix_append s _).isInfix
    · exact h.trans ((List.suffix_cons d t).isInfix.trans (List.suffix_append s _).isInfix)

theorem not_infix_of_not_mem (hd : d ∈ sep) (hs : d ∉ s) : ¬ sep <:+: s :=
  fun h => hs (h.subset hd)

/-- What begins with a letter that the front does not have is found behind it. -/
theorem infix_of_infix_append (hsep : sep.head? = some d) (hd : d ∉ a) (h : sep <:+: a ++ b) :
    sep <:+: b := by
  obtain ⟨sep, rfl⟩ := List.head?_eq_some_iff.mp hsep
  induction a with
  | nil => exact h
  | cons c a ih =>
    simp only [List.mem_cons, not_or] at hd
    rw [List.cons_append, List.infix_cons_iff] at h
    rcases h with h | h
    · exact absurd (List.cons_prefix_cons.mp h).1 hd.1
    · exact ih hd.2 h

theorem replaceFrom_skip (k : ℕ) (s : Text) :
    replaceFrom sep new k s = replaceFrom sep new 0 (s.drop k) := by
  induction s generalizing k with
  | nil => simp [replaceFrom]
  | cons c s ih =>
    cases k with
    | zero => rfl
    | succ k => rw [replaceFrom, ih k, List.drop_succ_cons]

theorem replace_of_cut_none (h : cut sep s = none) : replace sep new s = s := by
  induction s with
  | nil => rfl
  | cons c s ih =>
    unfold cut at h
    split at h
    · cases h
    · rename_i hfound
      rw [replace, replaceFrom, if_neg hfound, ← replace, ih (Option.map_eq_none_iff.mp h)]

/-- Replacing goes on behind the first occurrence. -/
theorem replace_of_cut_some (hne : sep ≠ []) (h : cut sep s = some (a, b)) :
    replace sep new s = a ++ new ++ replace sep new b := by
  induction s generalizing a with
  | nil => simp [cut, hne] at h
  | cons c s ih =>
    unfold cut at h
    split at h
    · rename_i hfound
      simp only [Option.some.injEq, Prod.mk.injEq] at h
      obtain ⟨rfl, rfl⟩ := h
      have hdrop : (c :: s).drop sep.length = s.drop (sep.length - 1) := by
        obtain ⟨e, sep, rfl⟩ := List.exists_cons_of_ne_nil hne
        rfl
      rw [replace, replaceFrom, if_pos hfound, replaceFrom_skip, hdrop]
      rfl
    · rename_i hfound
      obtain ⟨⟨a', b'⟩, hcut, hab⟩ := Option.map_eq_some_iff.mp h
      simp only [Prod.mk.injEq] at hab
      obtain ⟨rfl, rfl⟩ := hab
      rw [replace, replaceFrom, if_neg hfound, ← replace, ih hcut]
      rfl

theorem contains_append (hsep : sep.head? = some d) (ha : d ∉ a) (b : Text) :
    contains sep (a ++ b) = contains sep b := by
  rw [Bool.eq_iff_iff, contains_iff, contains_iff]
  constructor
  · exact infix_of_infix_append hsep ha
  · intro h
    exact h.trans (List.suffix_append a b).isInfix

/-- A front without the first letter is left alone. -/
theorem replace_append (hsep : sep.head? = some d) (ha : d ∉ a) (b : Text) :
    replace sep new (a ++ b) = a ++ replace sep new b := by
  obtain ⟨sep, rfl⟩ := List.head?_eq_some_iff.mp hsep
  induction a with
  | nil => rfl
  | cons c a ih =>
    rw [List.mem_cons, not_or] at ha
    have hfound : ¬ List.isPrefixOf (d :: sep) (c :: (a ++ b)) = true := by
      simp [List.isPrefixOf, ha.1]
    rw [List.cons_append, replace, replaceFrom, if_neg hfound, ← replace, ih ha.2]
    rfl

/-- One occurrence, behind a front without its first letter. -/
theorem replace_once (hsep : sep.head? = some d) (ha : d ∉ a) (hb : ¬ sep <:+: b) :
    replace sep new (a ++ sep ++ b) = a ++ new ++ b := by
  obtain ⟨sep, rfl⟩ := List.head?_eq_some_iff.mp hsep
  rw [replace_of_cut_some (List.cons_ne_nil d sep) (cut_append b ha),
    replace_of_cut_none (cut_none_iff.mpr hb)]

/-- A letter is deleted everywhere. -/
theorem replace_letter (d : Char) (s : Text) : replace [d] [] s = s.filter (· ≠ d) := by
  induction s with
  | nil => rfl
  | cons c s ih =>
    by_cases hc : d = c
    · subst hc
      have hfound : List.isPrefixOf [d] (d :: s) = true := by
        simp [List.isPrefixOf]
      rw [replace, replaceFrom, if_pos hfound, List.filter_cons_of_neg (by simp), ← ih]
      rfl
    · have hfound : List.isPrefixOf [d] (c :: s) = false := by
        simp [List.isPrefixOf, hc]
      rw [replace, replaceFrom, hfound, if_neg Bool.false_ne_true,
        List.filter_cons_of_pos (by simpa using Ne.symm hc), ← ih]
      rfl

/-- Deleting does not make a text longer. -/
theorem length_replace_nil_le (hne : sep ≠ []) (s : Text) :
    (replace sep [] s).length ≤ s.length := by
  induction hlen : s.length using Nat.strong_induction_on generalizing s with
  | _ n ih =>
    cases hcut : cut sep s with
    | none => rw [replace_of_cut_none hcut, hlen]
    | some ab =>
      obtain ⟨a, b⟩ := ab
      have hs := congrArg List.length (cut_some hcut)
      have hpos := List.length_pos_iff.mpr hne
      simp only [List.length_append] at hs
      have hb := ih b.length (by omega) b rfl
      rw [replace_of_cut_some hne hcut]
      simp only [List.length_append, List.length_nil]
      omega

/-- Deleting what occurs makes a text shorter. -/
theorem length_replace_nil_lt (hne : sep ≠ []) (h : sep <:+: s) :
    (replace sep [] s).length + sep.length ≤ s.length := by
  cases hcut : cut sep s with
  | none => exact absurd h (cut_none_iff.mp hcut)
  | some ab =>
    obtain ⟨a, b⟩ := ab
    have hs := congrArg List.length (cut_some hcut)
    have hb := length_replace_nil_le hne b
    rw [replace_of_cut_some hne hcut]
    simp only [List.length_append, List.length_nil] at hs ⊢
    omega

/-- A separator at the end is deleted, and nothing else, if it does not occur before. -/
theorem replace_nil_append (hsep : Borderless sep) (hne : sep ≠ []) (ha : ¬ sep <:+: a) :
    replace sep [] (a ++ sep) = a := by
  have hcut : cut sep (a ++ sep) = some (a, []) := by
    have := cut_borderless (b := []) hsep hne ha
    rwa [List.append_nil] at this
  rw [replace_of_cut_some hne hcut]
  simp [replace, replaceFrom]

/-- If it does occur before, more than the end is missing. -/
theorem length_replace_append_lt (hne : sep ≠ []) (ha : sep <:+: a) :
    (replace sep [] (a ++ sep)).length + sep.length ≤ a.length := by
  cases hcut : cut sep a with
  | none => exact absurd ha (cut_none_iff.mp hcut)
  | some uv =>
    obtain ⟨u, v⟩ := uv
    have hlen := congrArg List.length (cut_some hcut)
    have hrest := length_replace_nil_lt hne (List.suffix_append v sep).isInfix
    rw [replace_of_cut_some hne (cut_append_right hcut)]
    simp only [List.length_append, List.length_nil] at hlen hrest ⊢
    omega

end Nxwlan.PyText
