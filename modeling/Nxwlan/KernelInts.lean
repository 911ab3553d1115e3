import Nxwlan.PyText

/-!
Numbers as `kstrtoint` and `kstrtouint` of the Linux kernel read them with base 0: a
leading `0x` is hexadecimal, any other leading `0` octal, and the rest decimal. A sign
may stand in front and one line end behind; a numeral with anything else behind it, or
out of range, is an error. A number that is too large for the 64 bits in between is too
large for 32 bits as well.
-/
namespace Nxwlan.KernelInts

open PyText

def digit (base : ℕ) (c : Char) : Option ℕ := (hexValue c).filter (· < base)

/-- `_parse_integer_fixup_radix`. -/
def fixupRadix : Text → ℕ × Text
  | '0' :: x :: c :: s =>
      if (x = 'x' ∨ x = 'X') ∧ (hexValue c).isSome then (16, c :: s) else (8, '0' :: x :: c :: s)
  | '0' :: s => (8, '0' :: s)
  | s => (10, s)

/-- `_parse_integer`: the value of the digits in front, and what follows. -/
def parseInteger (base : ℕ) : ℕ → Text → ℕ × Text
  | acc, [] => (acc, [])
  | acc, c :: s =>
      match digit base c with
      | some d => parseInteger base (acc * base + d) s
      | none => (acc, c :: s)

/-- `_kstrtoull`. -/
def readUnsigned (s : Text) : Option ℕ :=
  let (base, s) := fixupRadix s
  if ((s.head?).bind (digit base)).isSome then
    let (n, rest) := parseInteger base 0 s
    if rest = [] ∨ rest = ['\n'] then some n else none
  else none

/-- `kstrtoull`. -/
def kstrtoull : Text → Option ℕ
  | '+' :: s => readUnsigned s
  | s => readUnsigned s

def kstrtouint (s : Text) : Option (BitVec 32) :=
  ((kstrtoull s).filter (· < 2 ^ 32)).map (BitVec.ofNat 32)

def kstrtoint : Text → Option (BitVec 32)
  | '-' :: s => ((readUnsigned s).filter (· ≤ 2 ^ 31)).map (fun n => BitVec.ofInt 32 (-n))
  | s => ((kstrtoull s).filter (· < 2 ^ 31)).map (fun n => BitVec.ofInt 32 n)

/-- A numeral in decimal digits, and its value. -/
structure Digits (s : Text) (n : ℕ) : Prop where
  ne_nil : s ≠ []
  digits : ∀ c ∈ s, c.isDigit = true
  value : Nat.ofDigitChars 10 s 0 = n

/-- Digits that are a decimal number to the kernel: there is no zero in front, which would make
the number octal, or there are only zeros in front of one octal digit. -/
def NotOctal (s : Text) : Prop :=
  (∀ rest, s ≠ '0' :: rest) ∨
    ∃ k d, s = List.replicate k '0' ++ [d] ∧ d.toNat < '8'.toNat

/-- A decimal numeral that is not taken for an octal one. -/
structure Decimal (s : Text) (n : ℕ) : Prop extends Digits s n where
  notOctal : NotOctal s

/-- Digits with a sign or without. -/
inductive SignedDigits : Text → ℤ → Prop where
  | plain {s : Text} {n : ℕ} (h : Digits s n) : SignedDigits s n
  | plus {s : Text} {n : ℕ} (h : Digits s n) : SignedDigits ('+' :: s) n
  | minus {s : Text} {n : ℕ} (h : Digits s n) : SignedDigits ('-' :: s) (-n)

/-- A numeral without its sign. -/
def unsigned : Text → Text
  | '+' :: s => s
  | '-' :: s => s
  | s => s

variable {s tail : Text} {n : ℕ}

theorem digit_ten {c : Char} (h : c.isDigit = true) : digit 10 c = some (c.toNat - '0'.toNat) := by
  have hrange : 48 ≤ c.toNat ∧ c.toNat ≤ 57 := by
    simp only [Char.isDigit, Bool.and_eq_true, decide_eq_true_eq] at h
    exact ⟨h.1, h.2⟩
  have hlt : c.toNat - '0'.toNat < 10 := by
    change c.toNat - 48 < 10
    omega
  rw [digit, hexValue, if_pos h]
  exact Option.filter_some_pos (by simpa using hlt)

/-- The digits of a numeral are read up to what follows. -/
theorem parseInteger_append (hdigits : ∀ c ∈ s, c.isDigit = true)
    (htail : tail = [] ∨ tail = ['\n']) (acc : ℕ) :
    parseInteger 10 acc (s ++ tail) = (Nat.ofDigitChars 10 s acc, tail) := by
  induction s generalizing acc with
  | nil =>
    rcases htail with rfl | rfl
    · rfl
    · rfl
  | cons c s ih =>
    rw [List.cons_append, parseInteger, digit_ten (hdigits c List.mem_cons_self),
      Nat.ofDigitChars_cons, Nat.mul_comm]
    exact ih (fun d hd => hdigits d (List.mem_cons_of_mem c hd)) _

theorem fixupRadix_zero {u : Text} (h : ∀ c ∈ u, c ≠ 'x' ∧ c ≠ 'X') :
    fixupRadix ('0' :: u) = (8, '0' :: u) := by
  unfold fixupRadix
  split
  · rename_i x c v heq
    obtain rfl := (List.cons.inj heq).2
    obtain ⟨hlow, hhigh⟩ := h x List.mem_cons_self
    rw [if_neg]
    rintro ⟨hx, -⟩
    exact hx.elim hlow hhigh
  · rename_i heq
    obtain rfl := (List.cons.inj heq).2
    rfl
  · rename_i hother
    exact absurd rfl (hother u)

/-- Zeros add nothing, and the digit behind them counts as it is. -/
theorem parseInteger_zeros {d : Char} (hd : d.isDigit = true) (hlt : d.toNat < '8'.toNat)
    (htail : tail = [] ∨ tail = ['\n']) (k : ℕ) :
    parseInteger 8 0 (List.replicate k '0' ++ [d] ++ tail) = (d.toNat - '0'.toNat, tail) := by
  have hrange : 48 ≤ d.toNat := by
    simp only [Char.isDigit, Bool.and_eq_true, decide_eq_true_eq] at hd
    exact hd.1
  have hdigit : digit 8 d = some (d.toNat - '0'.toNat) := by
    rw [digit, hexValue, if_pos hd]
    refine Option.filter_some_pos ?_
    change decide (d.toNat - 48 < 8) = true
    have : d.toNat < 56 := hlt
    exact decide_eq_true (by omega)
  induction k with
  | zero =>
    rw [List.replicate_zero, List.nil_append, List.singleton_append, parseInteger, hdigit]
    dsimp only
    rw [Nat.zero_mul, Nat.zero_add]
    rcases htail with rfl | rfl
    · rfl
    · rfl
  | succ k ih =>
    rw [List.replicate_succ, List.cons_append, List.cons_append, parseInteger]
    exact ih

theorem value_zeros {d : Char} (k : ℕ) (h : Digits (List.replicate k '0' ++ [d]) n) :
    d.toNat - '0'.toNat = n := by
  have hvalue := h.value
  rw [Nat.ofDigitChars_append, Nat.ofDigitChars_replicate_zero, Nat.mul_zero,
    Nat.ofDigitChars_cons, Nat.ofDigitChars_nil, Nat.mul_zero, Nat.zero_add] at hvalue
  exact hvalue

theorem not_x_of_isDigit {c : Char} (h : c.isDigit = true) : c ≠ 'x' ∧ c ≠ 'X' := by
  constructor
  · rintro rfl
    cases h
  · rintro rfl
    cases h

/-- An octal numeral of zeros and one digit is the decimal one. -/
theorem readUnsigned_zeros {rest : Text} (h : Digits ('0' :: rest) n)
    (hzeros : NotOctal ('0' :: rest)) (htail : tail = [] ∨ tail = ['\n']) :
    readUnsigned ('0' :: rest ++ tail) = some n := by
  obtain ⟨k, d, hform, hlt⟩ := hzeros.resolve_left (fun hnone => hnone rest rfl)
  have hd : d.isDigit = true := h.digits d (by rw [hform]; simp)
  have hradix : fixupRadix ('0' :: (rest ++ tail)) = (8, '0' :: (rest ++ tail)) := by
    refine fixupRadix_zero ?_
    intro c hc
    rcases List.mem_append.mp hc with hc | hc
    · exact not_x_of_isDigit (h.digits c (List.mem_cons_of_mem _ hc))
    · rcases htail with rfl | rfl
      · cases hc
      · rw [List.mem_singleton.mp hc]
        decide
  have hparse := parseInteger_zeros hd hlt htail k
  rw [← hform, List.cons_append] at hparse
  rw [List.cons_append, readUnsigned, hradix]
  dsimp only
  rw [if_pos (by rfl), hparse]
  dsimp only
  rw [if_pos htail, value_zeros k (hform ▸ h)]

theorem readUnsigned_decimal (h : Decimal s n) (htail : tail = [] ∨ tail = ['\n']) :
    readUnsigned (s ++ tail) = some n := by
  cases s with
  | nil => exact absurd rfl h.ne_nil
  | cons c rest =>
    by_cases hzero : c = '0'
    · subst hzero
      exact readUnsigned_zeros h.toDigits h.notOctal htail
    · have hradix : fixupRadix (c :: rest ++ tail) = (10, c :: rest ++ tail) := by
        rw [List.cons_append]
        unfold fixupRadix
        split
        · rename_i heq
          exact absurd (List.cons.inj heq).1 hzero
        · rename_i heq
          exact absurd (List.cons.inj heq).1 hzero
        · rfl
      have hhead : (((c :: rest ++ tail).head?).bind (digit 10)).isSome = true := by
        rw [List.cons_append, List.head?_cons, Option.bind_some,
          digit_ten (h.digits c List.mem_cons_self)]
        rfl
      rw [readUnsigned, hradix]
      dsimp only
      rw [if_pos hhead, parseInteger_append h.digits htail]
      dsimp only
      rw [if_pos htail, h.value]

theorem Digits.head (h : Digits s n) : ∃ c rest, s = c :: rest ∧ c ≠ '+' ∧ c ≠ '-' := by
  cases s with
  | nil => exact absurd rfl h.ne_nil
  | cons c rest =>
    have hdigit := h.digits c List.mem_cons_self
    refine ⟨c, rest, rfl, ?_, ?_⟩
    · rintro rfl
      cases hdigit
    · rintro rfl
      cases hdigit

theorem Digits.not_mem (h : Digits s n) {c : Char} (hc : c.isDigit = false) : c ∉ s := by
  intro hmem
  rw [h.digits c hmem] at hc
  cases hc

theorem SignedDigits.not_mem {i : ℤ} (h : SignedDigits s i) {c : Char} (hc : c.isDigit = false)
    (hplus : c ≠ '+') (hminus : c ≠ '-') : c ∉ s := by
  cases h with
  | plain h => exact h.not_mem hc
  | plus h => exact fun hmem => (List.mem_cons.mp hmem).elim hplus (h.not_mem hc)
  | minus h => exact fun hmem => (List.mem_cons.mp hmem).elim hminus (h.not_mem hc)

theorem kstrtoull_decimal (h : Decimal s n) (htail : tail = [] ∨ tail = ['\n']) :
    kstrtoull (s ++ tail) = some n := by
  rw [← readUnsigned_decimal h htail]
  obtain ⟨c, rest, rfl, hplus, -⟩ := h.head
  rw [List.cons_append]
  unfold kstrtoull
  split
  · rename_i heq
    exact absurd (List.cons.inj heq).1 hplus
  · rfl

theorem kstrtouint_decimal (h : Decimal s n) (hn : n < 2 ^ 32)
    (htail : tail = [] ∨ tail = ['\n']) :
    kstrtouint (s ++ tail) = some (BitVec.ofNat 32 n) := by
  rw [kstrtouint, kstrtoull_decimal h htail, Option.filter_some_pos (by simpa using hn)]
  rfl

theorem kstrtoint_decimal {i : ℤ} (h : SignedDigits s i) (hoctal : NotOctal (unsigned s))
    (hlow : -2 ^ 31 < i) (hhigh : i < 2 ^ 31) : kstrtoint s = some (BitVec.ofInt 32 i) := by
  cases h with
  | @plain s n h =>
    obtain ⟨c, rest, rfl, hplus, hminus⟩ := h.head
    have hbare : unsigned (c :: rest) = c :: rest := by
      unfold unsigned
      split
      · rename_i heq
        exact absurd (List.cons.inj heq).1 hplus
      · rename_i heq
        exact absurd (List.cons.inj heq).1 hminus
      · rfl
    rw [hbare] at hoctal
    have hread := kstrtoull_decimal ⟨h, hoctal⟩ (Or.inl rfl)
    rw [List.append_nil] at hread
    unfold kstrtoint
    split
    · rename_i heq
      exact absurd (List.cons.inj heq).1 hminus
    · rw [hread, Option.filter_some_pos (by simp; omega)]
      rfl
  | @plus s n h =>
    have hread := readUnsigned_decimal ⟨h, hoctal⟩ (Or.inl rfl)
    rw [List.append_nil] at hread
    change ((readUnsigned s).filter (· < 2 ^ 31)).map (fun n => BitVec.ofInt 32 n) = _
    rw [hread, Option.filter_some_pos (by simp; omega)]
    rfl
  | @minus s n h =>
    have hread := readUnsigned_decimal ⟨h, hoctal⟩ (Or.inl rfl)
    rw [List.append_nil] at hread
    rw [kstrtoint, hread, Option.filter_some_pos (by simp; omega)]
    rfl

end Nxwlan.KernelInts
