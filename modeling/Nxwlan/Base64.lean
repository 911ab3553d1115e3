import Mathlib.Data.List.Basic
import Mathlib.Tactic.IntervalCases
import Mathlib.Tactic.NormNum

/-!
The base64 module of the Python standard library. `encodestring` writes lines
of 57 bytes, each ended by a newline. `decodestring` is the quad machine of
binascii: characters outside the alphabet are skipped, a pad sequence ends
the input, and left-over bits are an error.
-/
namespace Nxwlan.Base64

abbrev Bytes := List UInt8

def digit (v : ℕ) : Char :=
  if v < 26 then Char.ofNat ('A'.toNat + v)
  else if v < 52 then Char.ofNat ('a'.toNat + (v - 26))
  else if v < 62 then Char.ofNat ('0'.toNat + (v - 52))
  else if v = 62 then '+' else '/'

def value (c : Char) : Option ℕ :=
  if 'A' ≤ c ∧ c ≤ 'Z' then some (c.toNat - 'A'.toNat)
  else if 'a' ≤ c ∧ c ≤ 'z' then some (c.toNat - 'a'.toNat + 26)
  else if '0' ≤ c ∧ c ≤ '9' then some (c.toNat - '0'.toNat + 52)
  else if c = '+' then some 62
  else if c = '/' then some 63
  else none

/-- One line without its newline: three bytes become four digits. -/
def encodeLine : Bytes → List Char
  | [] => []
  | [a] => [digit (a.toNat / 4), digit (a.toNat % 4 * 16), '=', '=']
  | [a, b] =>
      [digit (a.toNat / 4), digit (a.toNat % 4 * 16 + b.toNat / 16),
        digit (b.toNat % 16 * 4), '=']
  | a :: b :: c :: rest =>
      digit (a.toNat / 4) :: digit (a.toNat % 4 * 16 + b.toNat / 16) ::
        digit (b.toNat % 16 * 4 + c.toNat / 64) :: digit (c.toNat % 64) :: encodeLine rest

/-- The lines of a byte string, `fuel` bounding their number. -/
def encodeLines : ℕ → Bytes → List Char
  | 0, _ => []
  | fuel + 1, s =>
      if s = [] then []
      else encodeLine (s.take 57) ++ '\n' :: encodeLines fuel (s.drop 57)

def encodestring (s : Bytes) : List Char := encodeLines s.length s

/-- The next character the machine does not skip. -/
def nextValid : List Char → Option Char
  | [] => none
  | c :: s => if c = '=' ∨ (value c).isSome then some c else nextValid s

/-- The quad position, the bits not yet written and their number, as binascii
keeps them; `none` is the error for incorrect padding. -/
def decodeFrom (quadPos leftchar leftbits : ℕ) : List Char → Option Bytes
  | [] => if leftbits = 0 then some [] else none
  | c :: s =>
      if c = '=' then
        if quadPos < 2 ∨ (quadPos = 2 ∧ nextValid s ≠ some '=') then
          decodeFrom quadPos leftchar leftbits s
        else some []
      else
        match value c with
        | none => decodeFrom quadPos leftchar leftbits s
        | some v =>
            if leftbits + 6 < 8 then
              decodeFrom ((quadPos + 1) % 4) (leftchar * 64 + v) (leftbits + 6) s
            else
              (decodeFrom ((quadPos + 1) % 4)
                ((leftchar * 64 + v) % 2 ^ (leftbits + 6 - 8)) (leftbits + 6 - 8) s).map
                (UInt8.ofNat ((leftchar * 64 + v) / 2 ^ (leftbits + 6 - 8)) :: ·)

def decodestring (s : List Char) : Option Bytes := decodeFrom 0 0 0 s

theorem digit_valid {v : ℕ} (hv : v < 64) : value (digit v) = some v ∧ digit v ≠ '=' := by
  interval_cases v <;> decide

/-- A digit of the alphabet shifts six bits in and writes a byte when eight are there. -/
theorem decodeFrom_digit (quadPos leftchar leftbits : ℕ) {v : ℕ} (hv : v < 64)
    (s : List Char) :
    decodeFrom quadPos leftchar leftbits (digit v :: s) =
      if leftbits + 6 < 8 then
        decodeFrom ((quadPos + 1) % 4) (leftchar * 64 + v) (leftbits + 6) s
      else
        (decodeFrom ((quadPos + 1) % 4)
          ((leftchar * 64 + v) % 2 ^ (leftbits + 6 - 8)) (leftbits + 6 - 8) s).map
          (UInt8.ofNat ((leftchar * 64 + v) / 2 ^ (leftbits + 6 - 8)) :: ·) := by
  obtain ⟨hval, hpad⟩ := digit_valid hv
  simp only [decodeFrom, hpad, if_false, hval]

theorem byte_of_div {n : ℕ} {a : UInt8} (h : n = a.toNat) : UInt8.ofNat n = a := by
  subst h
  exact UInt8.ofNat_toNat

/-- The first two digits of a quad give its first byte back. -/
theorem decodeFrom_two (a : UInt8) {x : ℕ} (hx : x < 16) (s : List Char) :
    decodeFrom 0 0 0 (digit (a.toNat / 4) :: digit (a.toNat % 4 * 16 + x) :: s) =
      (decodeFrom 2 x 4 s).map (a :: ·) := by
  have ha := a.toNat_lt
  rw [decodeFrom_digit 0 0 0 (by omega), if_pos (by omega)]
  rw [decodeFrom_digit _ _ _ (by omega), if_neg (by omega)]
  change (decodeFrom 2 (((0 * 64 + a.toNat / 4) * 64 + (a.toNat % 4 * 16 + x)) % 16) 4 s).map
    (UInt8.ofNat (((0 * 64 + a.toNat / 4) * 64 + (a.toNat % 4 * 16 + x)) / 16) :: ·) = _
  have hleft : ((0 * 64 + a.toNat / 4) * 64 + (a.toNat % 4 * 16 + x)) % 16 = x := by omega
  have hbyte : ((0 * 64 + a.toNat / 4) * 64 + (a.toNat % 4 * 16 + x)) / 16 = a.toNat := by omega
  rw [hleft, byte_of_div hbyte]

theorem decodeFrom_three (b : UInt8) {x : ℕ} (hx : x < 4) (s : List Char) :
    decodeFrom 2 (b.toNat / 16) 4 (digit (b.toNat % 16 * 4 + x) :: s) =
      (decodeFrom 3 x 2 s).map (b :: ·) := by
  have hb := b.toNat_lt
  rw [decodeFrom_digit _ _ _ (by omega), if_neg (by omega)]
  change (decodeFrom 3 ((b.toNat / 16 * 64 + (b.toNat % 16 * 4 + x)) % 4) 2 s).map
    (UInt8.ofNat ((b.toNat / 16 * 64 + (b.toNat % 16 * 4 + x)) / 4) :: ·) = _
  have hleft : (b.toNat / 16 * 64 + (b.toNat % 16 * 4 + x)) % 4 = x := by omega
  have hbyte : (b.toNat / 16 * 64 + (b.toNat % 16 * 4 + x)) / 4 = b.toNat := by omega
  rw [hleft, byte_of_div hbyte]

theorem decodeFrom_four (c : UInt8) (s : List Char) :
    decodeFrom 3 (c.toNat / 64) 2 (digit (c.toNat % 64) :: s) =
      (decodeFrom 0 0 0 s).map (c :: ·) := by
  have hc := c.toNat_lt
  rw [decodeFrom_digit _ _ _ (by omega), if_neg (by omega)]
  change (decodeFrom 0 ((c.toNat / 64 * 64 + c.toNat % 64) % 1) 0 s).map
    (UInt8.ofNat ((c.toNat / 64 * 64 + c.toNat % 64) / 1) :: ·) = _
  have hbyte : (c.toNat / 64 * 64 + c.toNat % 64) / 1 = c.toNat := by omega
  rw [Nat.mod_one, byte_of_div hbyte]

theorem decodeFrom_newline (s : List Char) :
    decodeFrom 0 0 0 ('\n' :: s) = decodeFrom 0 0 0 s := rfl

/-- A line whose length is a multiple of three is unpadded, so that decoding
goes on behind it. -/
theorem decodeFrom_full_line (line : Bytes) (s : List Char) (h : line.length % 3 = 0) :
    decodeFrom 0 0 0 (encodeLine line ++ s) = (decodeFrom 0 0 0 s).map (line ++ ·) := by
  fun_induction encodeLine line with
  | case1 => simp
  | case2 a => simp at h
  | case3 a b => simp at h
  | case4 a b c rest ih =>
    have hb := b.toNat_lt
    have hc := c.toNat_lt
    have hrest : rest.length % 3 = 0 := by
      simp only [List.length_cons] at h
      omega
    simp only [List.cons_append]
    rw [decodeFrom_two a (by omega), decodeFrom_three b (by omega), decodeFrom_four, ih hrest]
    simp [Option.map_map, Function.comp_def]

/-- Any line read as the last one is recovered, padding included. -/
theorem decodeFrom_last_line (line : Bytes) :
    decodeFrom 0 0 0 (encodeLine line ++ ['\n']) = some line := by
  fun_induction encodeLine line with
  | case1 => rfl
  | case2 a =>
    have htwo := decodeFrom_two a (x := 0) (by omega) ['=', '=', '\n']
    simp only [Nat.add_zero] at htwo
    simp only [List.cons_append, List.nil_append]
    rw [htwo]
    rfl
  | case3 a b =>
    have hb := b.toNat_lt
    have hthree := decodeFrom_three b (x := 0) (by omega) ['=', '\n']
    simp only [Nat.add_zero] at hthree
    simp only [List.cons_append, List.nil_append]
    rw [decodeFrom_two a (by omega), hthree]
    rfl
  | case4 a b c rest ih =>
    have hb := b.toNat_lt
    have hc := c.toNat_lt
    simp only [List.cons_append]
    rw [decodeFrom_two a (by omega), decodeFrom_three b (by omega), decodeFrom_four, ih]
    rfl

theorem decodeFrom_encodeLines (fuel : ℕ) (s : Bytes) (hfuel : s.length ≤ fuel) :
    decodeFrom 0 0 0 (encodeLines fuel s) = some s := by
  induction fuel generalizing s with
  | zero =>
    have hs : s = [] := List.length_eq_zero_iff.mp (by omega)
    subst hs
    rfl
  | succ fuel ih =>
    by_cases hs : s = []
    · subst hs
      rfl
    · have hpos : 0 < s.length := List.length_pos_of_ne_nil hs
      simp only [encodeLines, hs, if_false]
      by_cases hlong : 57 ≤ s.length
      · rw [decodeFrom_full_line _ _ (by simp [hlong]), decodeFrom_newline,
          ih (s.drop 57) (by simp only [List.length_drop]; omega)]
        simp
      · have htake : s.take 57 = s := List.take_of_length_le (by omega)
        have hdrop : s.drop 57 = [] := List.drop_of_length_le (by omega)
        have hnil : encodeLines fuel [] = [] := by cases fuel <;> rfl
        rw [htake, hdrop, hnil]
        exact decodeFrom_last_line s

/-- `decodestring` gives back every byte string that `encodestring` wrote. -/
theorem decodestring_encodestring (s : Bytes) : decodestring (encodestring s) = some s :=
  decodeFrom_encodeLines s.length s (Nat.le_refl _)

theorem digit_ascii {v : ℕ} (hv : v < 64) : (digit v).toNat < 128 := by
  interval_cases v <;> decide

theorem encodeLine_ascii (line : Bytes) : ∀ c ∈ encodeLine line, c.toNat < 128 := by
  fun_induction encodeLine line with
  | case1 => simp
  | case2 a =>
    have ha := a.toNat_lt
    have h1 := digit_ascii (v := a.toNat / 4) (by omega)
    have h2 := digit_ascii (v := a.toNat % 4 * 16) (by omega)
    simp [h1, h2]
  | case3 a b =>
    have ha := a.toNat_lt
    have hb := b.toNat_lt
    have h1 := digit_ascii (v := a.toNat / 4) (by omega)
    have h2 := digit_ascii (v := a.toNat % 4 * 16 + b.toNat / 16) (by omega)
    have h3 := digit_ascii (v := b.toNat % 16 * 4) (by omega)
    simp [h1, h2, h3]
  | case4 a b c rest ih =>
    have ha := a.toNat_lt
    have hb := b.toNat_lt
    have hc := c.toNat_lt
    have h1 := digit_ascii (v := a.toNat / 4) (by omega)
    have h2 := digit_ascii (v := a.toNat % 4 * 16 + b.toNat / 16) (by omega)
    have h3 := digit_ascii (v := b.toNat % 16 * 4 + c.toNat / 64) (by omega)
    have h4 := digit_ascii (v := c.toNat % 64) (by omega)
    simpa only [List.forall_mem_cons] using ⟨h1, h2, h3, h4, ih⟩

theorem encodeLines_ascii (fuel : ℕ) (s : Bytes) :
    ∀ c ∈ encodeLines fuel s, c.toNat < 128 := by
  induction fuel generalizing s with
  | zero => simp [encodeLines]
  | succ fuel ih =>
    intro c hc
    by_cases hs : s = []
    · simp [encodeLines, hs] at hc
    · simp only [encodeLines, hs, if_false, List.mem_append, List.mem_cons] at hc
      rcases hc with hline | hnewline | hrest
      · exact encodeLine_ascii _ c hline
      · subst hnewline
        decide
      · exact ih _ c hrest

/-- Encoded text is ASCII, so that it survives the JSON transport as it is. -/
theorem encodestring_ascii (s : Bytes) : ∀ c ∈ encodestring s, c.toNat < 128 :=
  encodeLines_ascii s.length s

end Nxwlan.Base64
