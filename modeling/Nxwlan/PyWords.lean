import Nxwlan.TextSearch

/-!
Words and blanks of a text in Python 2: `strip` takes blanks off both ends, and `split`
without a separator cuts at runs of blanks.
-/
namespace Nxwlan.PyText

/-- `s.split()`. -/
def words (s : Text) : List Text := (s.splitOnP isSpace).filter (fun w => w ≠ [])

/-- A run of blanks within a line. -/
def Blank (s : Text) : Prop := ∀ c ∈ s, isSpace c = true ∧ c ≠ '\n'

/-- A word has letters and no blanks. -/
structure Word (w : Text) : Prop where
  ne_nil : w ≠ []
  solid : ∀ c ∈ w, isSpace c = false

/-- A text with no blank at either end. -/
structure Trimmed (s : Text) : Prop where
  ne_nil : s ≠ []
  first : ∀ c ∈ s.head?, isSpace c = false
  last : ∀ c ∈ s.getLast?, isSpace c = false

variable {s t w a b sep : Text} {c : Char}

theorem Word.trimmed (h : Word w) : Trimmed w :=
  ⟨h.ne_nil, fun c hc => h.solid c (List.mem_of_mem_head? hc),
    fun c hc => h.solid c (List.mem_of_mem_getLast? hc)⟩

theorem Trimmed.of_ends {d : Char} (hfirst : s.head? = some c) (hlast : s.getLast? = some d)
    (hc : isSpace c = false) (hd : isSpace d = false) : Trimmed s := by
  refine ⟨?_, ?_, ?_⟩
  · rintro rfl
    cases hfirst
  · intro e he
    rw [hfirst] at he
    rwa [← Option.some.inj he]
  · intro e he
    rw [hlast] at he
    rwa [← Option.some.inj he]

/-- Two trimmed texts with anything between them. -/
theorem Trimmed.between (hs : Trimmed s) (ht : Trimmed t) (a : Text) : Trimmed (s ++ a ++ t) := by
  refine ⟨by simp [hs.ne_nil], ?_, ?_⟩
  · intro c hc
    rw [List.append_assoc, List.head?_append_of_ne_nil _ hs.ne_nil] at hc
    exact hs.first c hc
  · intro c hc
    rw [List.getLast?_append_of_ne_nil _ ht.ne_nil] at hc
    exact ht.last c hc

theorem Blank.cons_iff : Blank (c :: s) ↔ (isSpace c = true ∧ c ≠ '\n') ∧ Blank s :=
  List.forall_mem_cons

theorem Blank.line (hb : Blank b) : '\n' ∉ b := fun hmem => (hb _ hmem).2 rfl

theorem Blank.not_mem (hb : Blank b) (hc : isSpace c = false) : c ∉ b := by
  intro hmem
  rw [(hb c hmem).1] at hc
  cases hc

theorem Word.line (hw : Word w) : '\n' ∉ w := by
  intro hmem
  exact absurd (hw.solid _ hmem) (by decide)

/-- Words on both sides of a blank are apart. -/
theorem words_append (s t : Text) (hc : isSpace c = true) :
    words (s ++ c :: t) = words s ++ words t := by
  rw [words, List.splitOnP_append_cons s t hc, List.filter_append]
  rfl

theorem words_blank (hb : Blank b) (s : Text) : words (b ++ s) = words s := by
  induction b with
  | nil => rfl
  | cons c b ih =>
    obtain ⟨⟨hc, -⟩, hb⟩ := Blank.cons_iff.mp hb
    have hcut : words ([] ++ c :: (b ++ s)) = words [] ++ words (b ++ s) := words_append [] _ hc
    rw [List.nil_append] at hcut
    rw [List.cons_append, hcut, ih hb]
    rfl

theorem words_word (hw : Word w) : words w = [w] := by
  rw [words, List.splitOnP_eq_singleton hw.solid, List.filter_cons_of_pos (by simpa using hw.ne_nil)]
  rfl

/-- A word, blanks and the rest. -/
theorem words_cons (hw : Word w) (hb : Blank b) (hne : b ≠ []) (s : Text) :
    words (w ++ b ++ s) = w :: words s := by
  cases b with
  | nil => exact absurd rfl hne
  | cons c b =>
    obtain ⟨⟨hc, -⟩, hb⟩ := Blank.cons_iff.mp hb
    rw [List.append_assoc, List.cons_append, words_append _ _ hc, words_word hw, words_blank hb]
    rfl

theorem dropWhile_blank (ha : Blank a) (hs : Trimmed s) (t : Text) :
    (a ++ (s ++ t)).dropWhile isSpace = s ++ t := by
  induction a with
  | nil =>
    cases s with
    | nil => exact absurd rfl hs.ne_nil
    | cons c s =>
      have hc : isSpace c = false := hs.first c rfl
      rw [List.nil_append, List.cons_append, List.dropWhile_cons_of_neg (by simp [hc])]
  | cons c a ih =>
    obtain ⟨⟨hc, -⟩, ha⟩ := Blank.cons_iff.mp ha
    rw [List.cons_append, List.dropWhile_cons_of_pos hc, ih ha]

theorem Trimmed.reverse (hs : Trimmed s) : Trimmed s.reverse :=
  ⟨by simpa using hs.ne_nil, by simpa using hs.last, by simpa using hs.first⟩

/-- Blanks around a trimmed text are stripped. -/
theorem strip_blanks (ha : Blank a) (hs : Trimmed s) (hb : Blank b) : strip (a ++ s ++ b) = s := by
  have hb' : Blank b.reverse := fun c hc => hb c (List.mem_reverse.mp hc)
  have hback := dropWhile_blank hb' hs.reverse []
  rw [List.append_nil] at hback
  rw [strip, List.append_assoc, dropWhile_blank ha hs, List.reverse_append, hback,
    List.reverse_reverse]

theorem strip_blank (hb : Blank b) : strip b = [] := by
  have hall : b.dropWhile isSpace = [] := by
    induction b with
    | nil => rfl
    | cons c b ih =>
      obtain ⟨⟨hc, -⟩, hb⟩ := Blank.cons_iff.mp hb
      rw [List.dropWhile_cons_of_pos hc, ih hb]
  rw [strip, hall]
  rfl

/-- Blanks behind a text do not complete an occurrence of a text without blanks. -/
theorem infix_append_blank (hsep : Word sep) (hb : Blank b) (h : sep <:+: s ++ b) : sep <:+: s := by
  cases b with
  | nil => simpa using h
  | cons c b =>
    obtain ⟨⟨hc, -⟩, hb⟩ := Blank.cons_iff.mp hb
    have hfree : ∀ d, isSpace d = true → d ∉ sep := by
      intro d hd hmem
      rw [hsep.solid d hmem] at hd
      cases hd
    rcases (infix_append_cons (hfree c hc)).mp h with h | h
    · exact h
    · obtain ⟨d, hd⟩ := List.exists_mem_of_ne_nil _ hsep.ne_nil
      exact absurd hd (hfree d (hb d (h.subset hd)).1)

end Nxwlan.PyText
