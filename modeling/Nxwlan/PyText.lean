import Mathlib.Data.Int.Notation
import Mathlib.Data.List.Basic
import Mathlib.Tactic.Common
import Mathlib.Tactic.IntervalCases

/-!
Text operations of Python 2 on character lists: searching, splitting with a
bound on the number of cuts, replacing, slicing with negative indices, hex
decoding and the decimal reading of int. Texts are `List Char`; every function
recurses on the text itself, so that it evaluates in the kernel.
-/
namespace Nxwlan.PyText

abbrev Text := List Char

/-- The text before and after the first occurrence of `sep`, if there is one. -/
def cut (sep : Text) : Text → Option (Text × Text)
  | [] => if sep = [] then some ([], []) else none
  | c :: s =>
      if sep.isPrefixOf (c :: s) then some ([], (c :: s).drop sep.length)
      else (cut sep s).map (fun p => (c :: p.1, p.2))

/-- `sep in s`. -/
def contains (sep s : Text) : Bool := (cut sep s).isSome

/-- `s.split(sep, n)`: at most `n` cuts, taken from the left. -/
def split (sep : Text) : ℕ → Text → List Text
  | 0, s => [s]
  | n + 1, s =>
      match cut sep s with
      | none => [s]
      | some (a, b) => a :: split sep n b

/-- Worker of `replace`; the counter is the number of characters of the last
match still to be skipped. -/
def replaceFrom (old new : Text) : ℕ → Text → Text
  | _, [] => []
  | k + 1, _ :: s => replaceFrom old new k s
  | 0, c :: s =>
      if old.isPrefixOf (c :: s) then new ++ replaceFrom old new (old.length - 1) s
      else c :: replaceFrom old new 0 s

/-- `s.replace(old, new)` for a non-empty `old`. -/
def replace (old new s : Text) : Text := replaceFrom old new 0 s

/-- A slice bound: negative bounds count from the end, all are clipped. -/
def bound (len : ℕ) (i : ℤ) : ℕ :=
  if i < 0 then (i + len).toNat else min i.toNat len

/-- `s[i:j]`. -/
def slice (s : Text) (i j : ℤ) : Text :=
  (s.take (bound s.length j)).drop (bound s.length i)

def digitValue (c : Char) : Option ℕ :=
  if c.isDigit then some (c.toNat - '0'.toNat) else none

def hexValue (c : Char) : Option ℕ :=
  if c.isDigit then some (c.toNat - '0'.toNat)
  else if 'a' ≤ c ∧ c ≤ 'f' then some (c.toNat - 'a'.toNat + 10)
  else if 'A' ≤ c ∧ c ≤ 'F' then some (c.toNat - 'A'.toNat + 10)
  else none

/-- `s.decode("hex")`; `none` where the codec raises. -/
def unhex : Text → Option (List UInt8)
  | [] => some []
  | [_] => none
  | a :: b :: s => do
      let x ← hexValue a
      let y ← hexValue b
      let rest ← unhex s
      pure (UInt8.ofNat (16 * x + y) :: rest)

def upperHex (n : ℕ) : Char :=
  if n < 10 then Char.ofNat ('0'.toNat + n) else Char.ofNat ('A'.toNat + (n - 10))

/-- The two digits of `"%02X"`. -/
def hexByte (b : UInt8) : Text := [upperHex (b.toNat / 16), upperHex (b.toNat % 16)]

def hexDump (bytes : List UInt8) : Text := bytes.flatMap hexByte

def isSpace (c : Char) : Bool :=
  c == ' ' || c == '\t' || c == '\n' || c == '\r' || c == Char.ofNat 11 || c == Char.ofNat 12

def readDigits : ℕ → Text → Option ℕ
  | acc, [] => some acc
  | acc, c :: s => (digitValue c).bind (fun d => readDigits (10 * acc + d) s)

def strip (s : Text) : Text := ((s.dropWhile isSpace).reverse.dropWhile isSpace).reverse

/-- A non-empty run of decimal digits. -/
def readNat (s : Text) : Option ℕ := if s = [] then none else readDigits 0 s

/-- `int(s)`: blanks around the number, and between the sign and its digits,
are skipped. `none` where a ValueError is raised. -/
def readInt (s : Text) : Option ℤ :=
  match strip s with
  | '-' :: t => (readNat (t.dropWhile isSpace)).map (fun n => -(n : ℤ))
  | '+' :: t => (readNat (t.dropWhile isSpace)).map (fun n => (n : ℤ))
  | t => (readNat t).map (fun n => (n : ℤ))

/-- `"%d"`. -/
def showInt : ℤ → Text
  | .ofNat n => Nat.toDigits 10 n
  | .negSucc n => '-' :: Nat.toDigits 10 (n + 1)

/-- A check of all letters of a text that can be evaluated. -/
theorem forall_of_all {P : Char → Prop} [DecidablePred P] {s : Text}
    (h : s.all (fun c => decide (P c)) = true) : ∀ c ∈ s, P c :=
  fun c hc => of_decide_eq_true (List.all_eq_true.mp h c hc)

/-- The parts around a cut have no letters of their own. -/
theorem mem_of_cut {sep s a b : Text} (h : cut sep s = some (a, b)) {c : Char}
    (hc : c ∈ a ∨ c ∈ b) : c ∈ s := by
  induction s generalizing a with
  | nil =>
    unfold cut at h
    split at h
    · simp only [Option.some.injEq, Prod.mk.injEq] at h
      obtain ⟨rfl, rfl⟩ := h
      simp at hc
    · simp at h
  | cons d s ih =>
    unfold cut at h
    split at h
    · simp only [Option.some.injEq, Prod.mk.injEq] at h
      obtain ⟨rfl, rfl⟩ := h
      rcases hc with hc | hc
      · simp at hc
      · exact List.mem_of_mem_drop hc
    · obtain ⟨⟨a', b'⟩, hcut, heq⟩ := Option.map_eq_some_iff.mp h
      simp only [Prod.mk.injEq] at heq
      obtain ⟨rfl, rfl⟩ := heq
      rcases hc with hc | hc
      · rcases List.mem_cons.mp hc with rfl | hc
        · exact List.mem_cons_self
        · exact List.mem_cons_of_mem _ (ih hcut (Or.inl hc))
      · exact List.mem_cons_of_mem _ (ih hcut (Or.inr hc))

/-- A separator is found behind a text without its first letter. -/
theorem cut_append {d : Char} {sep a : Text} (b : Text) (ha : d ∉ a) :
    cut (d :: sep) (a ++ (d :: sep) ++ b) = some (a, b) := by
  induction a with
  | nil => simp [cut, List.isPrefixOf_iff_prefix]
  | cons e a ih =>
    simp only [List.mem_cons, not_or] at ha
    have hne : (d :: sep).isPrefixOf (e :: (a ++ (d :: sep) ++ b)) = false := by
      simp [List.isPrefixOf, ha.1]
    rw [List.cons_append, List.cons_append, cut, hne, ih ha.2]
    rfl

theorem mem_of_replaceFrom {old new : Text} (k : ℕ) {s : Text} {c : Char}
    (hc : c ∈ replaceFrom old new k s) : c ∈ new ∨ c ∈ s := by
  induction s generalizing k with
  | nil => simp [replaceFrom] at hc
  | cons d s ih =>
    cases k with
    | succ k =>
      rw [replaceFrom] at hc
      exact (ih k hc).imp_right (List.mem_cons_of_mem d)
    | zero =>
      rw [replaceFrom] at hc
      split at hc
      · rcases List.mem_append.mp hc with hc | hc
        · exact Or.inl hc
        · exact (ih _ hc).imp_right (List.mem_cons_of_mem d)
      · rcases List.mem_cons.mp hc with rfl | hc
        · exact Or.inr List.mem_cons_self
        · exact (ih _ hc).imp_right (List.mem_cons_of_mem d)

/-- Deleting adds no letters. -/
theorem mem_of_replace_nil {old s : Text} {c : Char} (hc : c ∈ replace old [] s) : c ∈ s := by
  rcases mem_of_replaceFrom 0 hc with hc | hc
  · simp at hc
  · exact hc

theorem mem_of_slice {s : Text} {i j : ℤ} {c : Char} (hc : c ∈ slice s i j) : c ∈ s :=
  List.mem_of_mem_take (List.mem_of_mem_drop hc)

/-- Hex digits can be decoded when there is an even number of them. -/
theorem unhex_isSome_iff {s : Text} (h : ∀ c ∈ s, (hexValue c).isSome = true) :
    (unhex s).isSome = true ↔ s.length % 2 = 0 := by
  induction s using unhex.induct with
  | case1 => simp [unhex]
  | case2 c => simp [unhex]
  | case3 a b s ih =>
    obtain ⟨x, hx⟩ := Option.isSome_iff_exists.mp (h a (by simp))
    obtain ⟨y, hy⟩ := Option.isSome_iff_exists.mp (h b (by simp))
    have hrest := ih (fun c hc => h c (by simp [hc]))
    simp only [unhex, hx, hy, Option.pure_def, Option.bind_eq_bind, Option.bind_some,
      List.length_cons]
    rw [show (s.length + 1 + 1) % 2 = s.length % 2 by omega, ← hrest]
    cases unhex s <;> rfl

theorem length_of_unhex {s : Text} {b : List UInt8} (h : unhex s = some b) :
    s.length = 2 * b.length := by
  induction s using unhex.induct generalizing b with
  | case1 =>
    obtain rfl := Option.some.inj h
    rfl
  | case2 c => cases h
  | case3 c d s ih =>
    simp only [unhex, Option.pure_def, Option.bind_eq_bind, Option.bind_eq_some_iff,
      Option.some.injEq] at h
    obtain ⟨x, -, y, -, rest, hrest, rfl⟩ := h
    simp only [List.length_cons, ih hrest]
    omega

/-- Texts of even length are taken two letters at a time. -/
theorem even_induction {motive : ∀ s : Text, s.length % 2 = 0 → Prop} (nil : motive [] rfl)
    (pair : ∀ a b s (h : s.length % 2 = 0), motive s h →
      motive (a :: b :: s) ((Nat.add_mod_right s.length 2).trans h))
    (s : Text) (h : s.length % 2 = 0) : motive s h :=
  match s, h with
  | [], _ => nil
  | [_], h => absurd h Nat.one_ne_zero
  | a :: b :: s, h =>
      have hs : s.length % 2 = 0 := (Nat.add_mod_right s.length 2).symm.trans h
      pair a b s hs (even_induction nil pair s hs)

/-- Whole bytes in front are decoded on their own. -/
theorem unhex_append {s : Text} (h : s.length % 2 = 0) (u : Text) :
    unhex (s ++ u) = (unhex s).bind (fun x => (unhex u).map (fun y => x ++ y)) := by
  induction s, h using even_induction with
  | nil => simp [unhex]
  | pair a b s h ih =>
    rw [List.cons_append, List.cons_append, unhex, unhex, ih]
    cases hexValue a with
    | none => rfl
    | some x =>
      cases hexValue b with
      | none => rfl
      | some y =>
        cases unhex s with
        | none => rfl
        | some x' => cases unhex u <;> rfl

/-- Decoding undoes any encoding by two hex digits a byte. -/
theorem unhex_digits {digit : ℕ → Char} (h : ∀ n < 16, hexValue (digit n) = some n)
    (bytes : List UInt8) :
    unhex (bytes.flatMap (fun b => [digit (b.toNat / 16), digit (b.toNat % 16)])) = some bytes := by
  induction bytes with
  | nil => rfl
  | cons b rest ih =>
    have hlt := b.toNat_lt
    have hhigh := h (b.toNat / 16) (by omega)
    have hlow := h (b.toNat % 16) (by omega)
    have hbyte : UInt8.ofNat (16 * (b.toNat / 16) + b.toNat % 16) = b := by
      rw [Nat.div_add_mod, UInt8.ofNat_toNat]
    rw [List.flatMap_cons]
    simp only [List.cons_append, List.nil_append, unhex, hhigh, hlow, ih, hbyte,
      Option.pure_def, Option.bind_eq_bind, Option.bind_some]

/-- The letters of a hex dump. -/
def isUpperHex (c : Char) : Bool := c.isDigit || ('A' ≤ c && c ≤ 'F')

theorem upperHex_isUpperHex {n : ℕ} (h : n < 16) : isUpperHex (upperHex n) = true := by
  interval_cases n <;> decide

theorem hexDump_isUpperHex (bytes : List UInt8) : ∀ c ∈ hexDump bytes, isUpperHex c = true := by
  intro c hc
  obtain ⟨b, -, hb⟩ := List.mem_flatMap.mp hc
  have hhigh : b.toNat / 16 < 16 := by
    have := b.toNat_lt
    omega
  simp only [hexByte, List.mem_cons, List.not_mem_nil, or_false] at hb
  rcases hb with rfl | rfl
  · exact upperHex_isUpperHex hhigh
  · exact upperHex_isUpperHex (Nat.mod_lt _ (by decide))

theorem hexValue_of_isUpperHex {c : Char} (h : isUpperHex c = true) :
    (hexValue c).isSome = true := by
  unfold hexValue
  split_ifs with h₁ h₂ h₃
  · rfl
  · rfl
  · rfl
  · simp [isUpperHex, h₁, h₃] at h

theorem readDigits_eq {s : Text} (h : ∀ c ∈ s, c.isDigit = true) (acc : ℕ) :
    readDigits acc s = some (Nat.ofDigitChars 10 s acc) := by
  induction s generalizing acc with
  | nil => simp [readDigits]
  | cons c s ih =>
    have hc : digitValue c = some (c.toNat - '0'.toNat) := by
      simp [digitValue, h c (by simp)]
    rw [readDigits, hc, Option.bind_some, Nat.ofDigitChars_cons]
    exact ih (fun d hd => h d (by simp [hd])) _

theorem readDigits_isSome_iff (s : Text) (acc : ℕ) :
    (readDigits acc s).isSome = true ↔ ∀ c ∈ s, c.isDigit = true := by
  constructor
  · intro h
    induction s generalizing acc with
    | nil => simp
    | cons c s ih =>
      rw [readDigits] at h
      by_cases hc : c.isDigit = true
      · simp only [digitValue, hc, if_true, Option.bind_some] at h
        intro d hd
        rcases List.mem_cons.mp hd with rfl | hd
        · exact hc
        · exact ih _ h d hd
      · simp [digitValue, hc] at h
  · intro h
    rw [readDigits_eq h]
    rfl

theorem readNat_isSome_iff (s : Text) :
    (readNat s).isSome = true ↔ s ≠ [] ∧ ∀ c ∈ s, c.isDigit = true := by
  unfold readNat
  split
  · rename_i hs
    simp [hs]
  · rename_i hs
    rw [readDigits_isSome_iff]
    simp [hs]

theorem dropWhile_isSpace {s : Text} (h : ∀ c ∈ s, isSpace c = false) :
    s.dropWhile isSpace = s := by
  cases s with
  | nil => rfl
  | cons c s => simp [List.dropWhile, h c (by simp)]

/-- Text without blanks has nothing to strip. -/
theorem strip_eq {s : Text} (h : ∀ c ∈ s, isSpace c = false) : strip s = s := by
  rw [strip, dropWhile_isSpace h,
    dropWhile_isSpace (fun c hc => h c (List.mem_reverse.mp hc)), List.reverse_reverse]

theorem isSpace_of_isUpperHex {c : Char} (h : isUpperHex c = true) : isSpace c = false := by
  by_contra hspace
  simp only [isSpace, Bool.not_eq_false, Bool.or_eq_true, beq_iff_eq] at hspace
  rcases hspace with ((((rfl | rfl) | rfl) | rfl) | rfl) | rfl <;> exact absurd h (by decide)

theorem toDigits_isUpperHex (n : ℕ) : ∀ c ∈ Nat.toDigits 10 n, isUpperHex c = true := by
  intro c hc
  simp [isUpperHex, Nat.isDigit_of_mem_toDigits (by decide) (by decide) hc]

theorem readNat_toDigits (n : ℕ) : readNat (Nat.toDigits 10 n) = some n := by
  have hdigits : ∀ c ∈ Nat.toDigits 10 n, c.isDigit = true := fun c hc =>
    Nat.isDigit_of_mem_toDigits (by decide) (by decide) hc
  rw [readNat, if_neg Nat.toDigits_ne_nil, readDigits_eq hdigits, Nat.ofDigitChars_ten_toDigits]

/-- A text of hex digits has no sign and no blanks. -/
theorem readInt_eq {s : Text} (h : ∀ c ∈ s, isUpperHex c = true) :
    readInt s = (readNat s).map (fun n => (n : ℤ)) := by
  rw [readInt, strip_eq (fun c hc => isSpace_of_isUpperHex (h c hc))]
  split
  · exact absurd (h '-' (by simp)) (by decide)
  · exact absurd (h '+' (by simp)) (by decide)
  · rfl

theorem not_mem_showInt {c : Char} (hminus : c ≠ '-') (hdigit : c.isDigit = false) (i : ℤ) :
    c ∉ showInt i := by
  have hnat : ∀ n, c ∉ Nat.toDigits 10 n := by
    intro n hmem
    rw [Nat.isDigit_of_mem_toDigits (by decide) (by decide) hmem] at hdigit
    cases hdigit
  cases i with
  | ofNat n => exact hnat n
  | negSucc n => simp [showInt, hminus, hnat]

theorem readInt_showInt (i : ℤ) : readInt (showInt i) = some i := by
  cases i with
  | ofNat n => rw [showInt, readInt_eq (toDigits_isUpperHex n), readNat_toDigits]; rfl
  | negSucc n =>
    have hspace : ∀ c ∈ Nat.toDigits 10 (n + 1), isSpace c = false := fun c hc =>
      isSpace_of_isUpperHex (toDigits_isUpperHex _ c hc)
    have hstrip : strip ('-' :: Nat.toDigits 10 (n + 1)) = '-' :: Nat.toDigits 10 (n + 1) := by
      apply strip_eq
      intro c hc
      rcases List.mem_cons.mp hc with rfl | hc
      · decide
      · exact hspace c hc
    rw [showInt, readInt, hstrip]
    simp only [dropWhile_isSpace hspace, readNat_toDigits]
    rfl

/-- A text of upper case hex digits is a number when all of them are decimal. -/
theorem readInt_isSome_iff {s : Text} (h : ∀ c ∈ s, isUpperHex c = true) :
    (readInt s).isSome = true ↔ s ≠ [] ∧ ∀ c ∈ s, c.isDigit = true := by
  rw [readInt_eq h, ← readNat_isSome_iff]
  cases readNat s <;> simp

theorem mem_dropWhile_isSpace {s : Text} {c : Char} (hc : c ∈ s) (hspace : isSpace c = false) :
    c ∈ s.dropWhile isSpace := by
  induction s with
  | nil => cases hc
  | cons b s ih =>
    rw [List.dropWhile_cons]
    split
    · rename_i hb
      rcases List.mem_cons.mp hc with rfl | hc
      · rw [hspace] at hb
        cases hb
      · exact ih hc
    · exact hc

/-- Only blanks are stripped. -/
theorem mem_strip {s : Text} {c : Char} (hc : c ∈ s) (hspace : isSpace c = false) :
    c ∈ strip s := by
  rw [strip, List.mem_reverse]
  apply mem_dropWhile_isSpace _ hspace
  rw [List.mem_reverse]
  exact mem_dropWhile_isSpace hc hspace

theorem readNat_eq_none {s : Text} {c : Char} (hc : c ∈ s) (hdigit : c.isDigit = false) :
    readNat s = none := by
  rw [← Option.not_isSome_iff_eq_none, readNat_isSome_iff]
  intro h
  rw [h.2 c hc] at hdigit
  cases hdigit

/-- A letter that is no digit, no blank and no sign is in no number. -/
theorem readInt_eq_none {s : Text} {c : Char} (hc : c ∈ s) (hdigit : c.isDigit = false)
    (hspace : isSpace c = false) (hminus : c ≠ '-') (hplus : c ≠ '+') : readInt s = none := by
  have hstrip := mem_strip hc hspace
  rw [readInt]
  split
  · rename_i t ht
    rw [ht] at hstrip
    have htail := (List.mem_cons.mp hstrip).resolve_left hminus
    rw [readNat_eq_none (mem_dropWhile_isSpace htail hspace) hdigit]
    rfl
  · rename_i t ht
    rw [ht] at hstrip
    have htail := (List.mem_cons.mp hstrip).resolve_left hplus
    rw [readNat_eq_none (mem_dropWhile_isSpace htail hspace) hdigit]
    rfl
  · rw [readNat_eq_none hstrip hdigit]
    rfl

end Nxwlan.PyText
