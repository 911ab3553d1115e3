import Nxwlan.PerFlowPower

/-!
A write to the debugfs file of the powers per flow, store by store. The loop copies each
character into the current row of `valbuf` and goes on to the next row behind every blank,
without a look at the number of rows; the numbers are then read out of the three rows, and
a row that is no number leaves its variable as it was. What is written is unchanged by
anything but three numbers only by chance.
-/
namespace Nxwlan.DebugfsWrites

open PyText KernelInts PerFlowPower

/-- `valbuf[row][col] = letter`. -/
structure Store where
  row : ℕ
  col : ℕ
  letter : Char

/-- All stores of the loop, from `positionIndex` and `j` on. -/
def stores : ℕ → ℕ → Text → List Store
  | _, _, [] => []
  | positionIndex, j, c :: buf =>
      ⟨positionIndex, j, c⟩ ::
        if c = ' ' then ⟨positionIndex, j, '\x00'⟩ :: stores (positionIndex + 1) 0 buf
        else stores positionIndex (j + 1) buf

/-- The characters that are copied. -/
def copied (user_buf : Text) : Text := user_buf.take 31

/-- Every store lies in the three rows of 32 bytes. -/
def InBounds (buf : Text) : Prop := ∀ st ∈ stores 0 0 buf, st.row < 3 ∧ st.col < 32

/-- One store into the rows. -/
def storeInto (mem : ℕ → ℕ → Char) (st : Store) : ℕ → ℕ → Char :=
  Function.update mem st.row (Function.update (mem st.row) st.col st.letter)

/-- The rows after some stores; they were cleared before. -/
def memory (sts : List Store) : ℕ → ℕ → Char := sts.foldl storeInto (fun _ _ => '\x00')

variable {buf a b c : Text} {stack : Stack} {list : List Entry} {user_buf : Text}

/-! Where the stores go. -/

theorem stores_blank (p j : ℕ) (buf : Text) : stores p j (' ' :: buf) =
    ⟨p, j, ' '⟩ :: ⟨p, j, '\x00'⟩ :: stores (p + 1) 0 buf := by
  rw [stores, if_pos rfl]

theorem stores_letter {x : Char} (hx : x ≠ ' ') (p j : ℕ) (buf : Text) :
    stores p j (x :: buf) = ⟨p, j, x⟩ :: stores p (j + 1) buf := by
  rw [stores, if_neg hx]

/-- The rows that are written to are those of the blanks before the last character. -/
theorem stores_row_iff (n p j : ℕ) (buf : Text) : (∀ st ∈ stores p j buf, st.row < n) ↔
    buf = [] ∨ p + buf.dropLast.count ' ' < n := by
  induction buf generalizing p j with
  | nil => simp [stores]
  | cons x buf ih =>
    rw [or_iff_right (List.cons_ne_nil x buf)]
    by_cases hx : x = ' '
    · subst hx
      rw [stores_blank, List.forall_mem_cons, List.forall_mem_cons, ih]
      cases buf with
      | nil => simp
      | cons y buf =>
        rw [or_iff_right (List.cons_ne_nil y buf), List.dropLast_cons_cons, List.count_cons_self]
        dsimp only
        omega
    · rw [stores_letter hx, List.forall_mem_cons, ih]
      cases buf with
      | nil => simp
      | cons y buf =>
        rw [or_iff_right (List.cons_ne_nil y buf), List.dropLast_cons_cons,
          List.count_cons_of_ne hx]
        dsimp only
        omega

theorem stores_col_lt (p j : ℕ) (buf : Text) : ∀ st ∈ stores p j buf, st.col < j + buf.length := by
  induction buf generalizing p j with
  | nil => simp [stores]
  | cons x buf ih =>
    have hfirst : j < j + (x :: buf).length := by
      rw [List.length_cons]
      omega
    by_cases hx : x = ' '
    · subst hx
      rw [stores_blank, List.forall_mem_cons, List.forall_mem_cons]
      refine ⟨hfirst, hfirst, ?_⟩
      intro st hst
      have := ih (p + 1) 0 st hst
      rw [List.length_cons]
      omega
    · rw [stores_letter hx, List.forall_mem_cons]
      refine ⟨hfirst, ?_⟩
      intro st hst
      have := ih p (j + 1) st hst
      rw [List.length_cons]
      omega

/-- The stores stay within `valbuf` when no more than two blanks stand before the last of the
characters that are copied. -/
theorem inBounds_iff (user_buf : Text) :
    InBounds (copied user_buf) ↔ (copied user_buf).dropLast.count ' ' ≤ 2 := by
  have hlen : (copied user_buf).length ≤ 31 := List.length_take_le 31 user_buf
  have hcol : ∀ st ∈ stores 0 0 (copied user_buf), st.col < 32 := by
    intro st hst
    have := stores_col_lt 0 0 (copied user_buf) st hst
    omega
  have hrow := stores_row_iff 3 0 0 (copied user_buf)
  constructor
  · intro h
    rcases hrow.mp (fun st hst => (h st hst).1) with hnil | hcount
    · rw [hnil]
      decide
    · omega
  · intro h st hst
    exact ⟨hrow.mpr (.inr (by omega)) st hst, hcol st hst⟩

/-! What the rows hold afterwards. -/

/-- The characters between two blanks. -/
def rowOf : ℕ → Text → Text
  | _, [] => []
  | 0, x :: buf => if x = ' ' then [] else x :: rowOf 0 buf
  | k + 1, x :: buf => if x = ' ' then rowOf k buf else rowOf (k + 1) buf

theorem rowOf_letter_zero {x : Char} (hx : x ≠ ' ') (buf : Text) :
    rowOf 0 (x :: buf) = x :: rowOf 0 buf := if_neg hx

theorem rowOf_letter_succ {x : Char} (hx : x ≠ ' ') (k : ℕ) (buf : Text) :
    rowOf (k + 1) (x :: buf) = rowOf (k + 1) buf := if_neg hx

theorem rowOf_append_zero (ha : ' ' ∉ a) (buf : Text) : rowOf 0 (a ++ ' ' :: buf) = a := by
  induction a with
  | nil => rfl
  | cons x a ih =>
    have hx : x ≠ ' ' := fun heq => ha (heq ▸ List.mem_cons_self)
    rw [List.cons_append, rowOf_letter_zero hx, ih (fun h => ha (List.mem_cons_of_mem x h))]

theorem rowOf_append_succ (ha : ' ' ∉ a) (k : ℕ) (buf : Text) :
    rowOf (k + 1) (a ++ ' ' :: buf) = rowOf k buf := by
  induction a with
  | nil => rfl
  | cons x a ih =>
    have hx : x ≠ ' ' := fun heq => ha (heq ▸ List.mem_cons_self)
    rw [List.cons_append, rowOf_letter_succ hx, ih (fun h => ha (List.mem_cons_of_mem x h))]

theorem rowOf_last_zero (ha : ' ' ∉ a) : rowOf 0 a = a := by
  induction a with
  | nil => rfl
  | cons x a ih =>
    have hx : x ≠ ' ' := fun heq => ha (heq ▸ List.mem_cons_self)
    rw [rowOf_letter_zero hx, ih (fun h => ha (List.mem_cons_of_mem x h))]

theorem rowOf_last_succ (ha : ' ' ∉ a) (k : ℕ) : rowOf (k + 1) a = [] := by
  induction a with
  | nil => rfl
  | cons x a ih =>
    have hx : x ≠ ' ' := fun heq => ha (heq ▸ List.mem_cons_self)
    rw [rowOf_letter_succ hx, ih (fun h => ha (List.mem_cons_of_mem x h))]

theorem storeInto_other (mem : ℕ → ℕ → Char) {row p j : ℕ} {x : Char} (h : row ≠ p) :
    storeInto mem ⟨p, j, x⟩ row = mem row := Function.update_of_ne h _ _

theorem storeInto_same (mem : ℕ → ℕ → Char) (p j col : ℕ) (x : Char) :
    storeInto mem ⟨p, j, x⟩ p col = if col = j then x else mem p col := by
  rw [storeInto, Function.update_self, Function.update_apply]

/-- From a cleared rest of row `p` on, the rows are filled with what stands between the blanks. -/
theorem foldl_stores (mem : ℕ → ℕ → Char) (p j : ℕ) (buf : Text)
    (hrow : ∀ col, j ≤ col → mem p col = '\x00')
    (hrows : ∀ row, p < row → ∀ col, mem row col = '\x00') :
    (∀ row, row < p → (stores p j buf).foldl storeInto mem row = mem row) ∧
    (∀ col, (stores p j buf).foldl storeInto mem p col =
      if col < j then mem p col else (rowOf 0 buf)[col - j]?.getD '\x00') ∧
    ∀ k col, (stores p j buf).foldl storeInto mem (p + k + 1) col =
      (rowOf (k + 1) buf)[col]?.getD '\x00' := by
  induction buf generalizing mem p j with
  | nil =>
    refine ⟨fun row _ => rfl, ?_, ?_⟩
    · intro col
      split
      · rfl
      · rename_i hcol
        exact hrow col (not_lt.mp hcol)
    · intro k col
      exact hrows _ (by omega) col
  | cons x buf ih =>
    by_cases hx : x = ' '
    · subst hx
      rw [stores_blank, List.foldl_cons, List.foldl_cons]
      have hhere : ∀ col, storeInto (storeInto mem ⟨p, j, ' '⟩) ⟨p, j, '\x00'⟩ p col =
          if col = j then '\x00' else mem p col := by
        intro col
        rw [storeInto_same, storeInto_same]
        split <;> rfl
      have hthere : ∀ row, row ≠ p →
          storeInto (storeInto mem ⟨p, j, ' '⟩) ⟨p, j, '\x00'⟩ row = mem row := by
        intro row hne
        rw [storeInto_other _ hne, storeInto_other _ hne]
      obtain ⟨hbelow, hat, habove⟩ := ih (storeInto (storeInto mem ⟨p, j, ' '⟩) ⟨p, j, '\x00'⟩)
        (p + 1) 0 (fun col _ => by rw [hthere _ (by omega)]; exact hrows _ (by omega) col)
        (fun row hlt col => by rw [hthere _ (by omega)]; exact hrows _ (by omega) col)
      refine ⟨?_, ?_, ?_⟩
      · intro row hlt
        rw [hbelow row (by omega), hthere row (by omega)]
      · intro col
        rw [hbelow p (by omega), hhere]
        by_cases hcol : col < j
        · rw [if_pos hcol, if_neg (by omega)]
        · rw [if_neg hcol]
          split
          · rfl
          · exact hrow col (not_lt.mp hcol)
      · intro k col
        cases k with
        | zero => exact hat col
        | succ k =>
          rw [show p + (k + 1) + 1 = p + 1 + k + 1 by omega]
          exact habove k col
    · rw [stores_letter hx, List.foldl_cons]
      obtain ⟨hbelow, hat, habove⟩ := ih (storeInto mem ⟨p, j, x⟩) p (j + 1)
        (fun col hle => by rw [storeInto_same, if_neg (by omega)]; exact hrow col (by omega))
        (fun row hlt col => by rw [storeInto_other _ (by omega)]; exact hrows row hlt col)
      refine ⟨?_, ?_, ?_⟩
      · intro row hlt
        rw [hbelow row hlt, storeInto_other _ (by omega)]
      · intro col
        rw [hat, storeInto_same, rowOf_letter_zero hx]
        rcases lt_trichotomy col j with hlt | rfl | hgt
        · rw [if_pos (by omega), if_neg (by omega), if_pos hlt]
        · rw [if_pos (by omega), if_pos rfl, if_neg (lt_irrefl col), Nat.sub_self]
          rfl
        · rw [if_neg (by omega), if_neg (by omega), show col - j = col - (j + 1) + 1 by omega,
            List.getElem?_cons_succ]
      · intro k col
        rw [habove k col, rowOf_letter_succ hx]

/-- The rows as C strings after the whole loop. -/
theorem memory_stores (buf : Text) (row col : ℕ) :
    memory (stores 0 0 buf) row col = (rowOf row buf)[col]?.getD '\x00' := by
  obtain ⟨-, hzero, hsucc⟩ := foldl_stores (fun _ _ => '\x00') 0 0 buf (fun _ _ => rfl)
    (fun _ _ _ => rfl)
  cases row with
  | zero => exact hzero col
  | succ k =>
    have h := hsucc k col
    rw [Nat.zero_add] at h
    exact h

theorem length_rowOf_le (k : ℕ) (buf : Text) : (rowOf k buf).length ≤ buf.length := by
  induction buf generalizing k with
  | nil => cases k <;> exact le_rfl
  | cons x buf ih =>
    rw [List.length_cons]
    by_cases hx : x = ' '
    · subst hx
      cases k with
      | zero => exact Nat.zero_le _
      | succ k => exact (ih k).trans (Nat.le_succ _)
    · cases k with
      | zero =>
        rw [rowOf_letter_zero hx, List.length_cons]
        exact Nat.succ_le_succ (ih 0)
      | succ k =>
        rw [rowOf_letter_succ hx]
        exact (ih (k + 1)).trans (Nat.le_succ _)

/-- A text with zeros behind it, up to its end. -/
theorem cString_padded {n : ℕ} (h : buf.length < n) :
    cString ((List.range n).map (fun col => buf[col]?.getD '\x00')) = cString buf := by
  induction buf generalizing n with
  | nil =>
    obtain ⟨n, rfl⟩ := Nat.exists_eq_succ_of_ne_zero (Nat.ne_zero_of_lt h)
    rw [List.range_succ_eq_map, List.map_cons]
    rfl
  | cons x buf ih =>
    obtain ⟨n, rfl⟩ := Nat.exists_eq_succ_of_ne_zero (Nat.ne_zero_of_lt h)
    have hrest := ih (Nat.lt_of_succ_lt_succ h)
    rw [List.range_succ_eq_map, List.map_cons, List.map_map]
    rw [cString] at hrest ⊢
    rw [cString] at hrest ⊢
    by_cases hx : x = '\x00'
    · subst hx
      rfl
    · have hx' : decide (x ≠ '\x00') = true := decide_eq_true hx
      rw [List.takeWhile_cons_of_pos (p := (· ≠ '\x00')) hx']
      exact (List.takeWhile_cons_of_pos (p := (· ≠ '\x00')) hx').trans (congrArg (x :: ·) hrest)

/-- A row of 32 bytes up to its end. -/
def readRow (mem : ℕ → ℕ → Char) (row : ℕ) : Text := cString ((List.range 32).map (mem row))

/-- After the loop the rows hold what stands between the blanks. -/
theorem readRow_memory (user_buf : Text) (row : ℕ) :
    readRow (memory (stores 0 0 (copied user_buf))) row = cString (rowOf row (copied user_buf)) := by
  have hlen : (rowOf row (copied user_buf)).length < 32 := by
    have hle := length_rowOf_le row (copied user_buf)
    have hcopied : (copied user_buf).length ≤ 31 := List.length_take_le 31 user_buf
    omega
  rw [readRow, ← cString_padded hlen]
  exact congrArg cString (List.map_congr_left (fun col _ => memory_stores _ row col))

/-! The three fields. -/

/-- A text is cut at its first blank, or it has none. -/
theorem cut_at_blank (buf : Text) : ' ' ∉ buf ∨ ∃ a rest, ' ' ∉ a ∧ buf = a ++ ' ' :: rest := by
  by_cases hmem : ' ' ∈ buf
  · obtain ⟨a, rest, hbuf, ha⟩ := List.eq_append_cons_of_mem hmem
    exact .inr ⟨a, rest, ha, hbuf⟩
  · exact .inl hmem

theorem count_dropLast_none (ha : ' ' ∉ a) : a.dropLast.count ' ' = 0 :=
  List.count_eq_zero.mpr (fun h => ha (List.mem_of_mem_dropLast h))

theorem count_dropLast_blank (ha : ' ' ∉ a) (rest : Text) :
    (a ++ ' ' :: rest).dropLast.count ' ' =
      if rest = [] then 0 else rest.dropLast.count ' ' + 1 := by
  rw [List.dropLast_append_of_ne_nil (List.cons_ne_nil _ _), List.count_append,
    List.count_eq_zero.mpr ha, Nat.zero_add]
  cases rest with
  | nil => rfl
  | cons y rest => rw [List.dropLast_cons_cons, List.count_cons_self, if_neg (List.cons_ne_nil _ _)]

/-- The fields are the first three rows, unless something is stored behind them. -/
theorem valbuf_eq (buf : Text) : valbuf buf =
    if buf.dropLast.count ' ' ≤ 2 then some (rowOf 0 buf, rowOf 1 buf, rowOf 2 buf) else none := by
  rcases cut_at_blank buf with h | ⟨a, r₁, ha, rfl⟩
  · rw [count_dropLast_none h, if_pos (by omega), valbuf, split_letter_none 3 h, rowOf_last_zero h,
      rowOf_last_succ h, rowOf_last_succ h]
  · rw [valbuf, split_letter_append 2 _ ha, rowOf_append_zero ha, rowOf_append_succ ha,
      rowOf_append_succ ha, count_dropLast_blank ha]
    rcases cut_at_blank r₁ with h | ⟨b, r₂, hb, rfl⟩
    · rw [split_letter_none 2 h, rowOf_last_zero h, rowOf_last_succ h, count_dropLast_none h,
        if_pos (by split <;> omega)]
    · have hne : ¬ b ++ ' ' :: r₂ = [] := by simp
      rw [split_letter_append 1 _ hb, rowOf_append_zero hb, rowOf_append_succ hb,
        if_neg hne, count_dropLast_blank hb]
      rcases cut_at_blank r₂ with h | ⟨c, r₃, hc, rfl⟩
      · rw [split_letter_none 1 h, rowOf_last_zero h, count_dropLast_none h,
          if_pos (by split <;> omega)]
      · have hne' : ¬ c ++ ' ' :: r₃ = [] := by simp
        rw [split_letter_append 0 _ hc, rowOf_append_zero hc, if_neg hne', count_dropLast_blank hc]
        cases r₃ with
        | nil => rfl
        | cons x r₃ =>
          rw [if_neg (List.cons_ne_nil x r₃), if_neg (by omega)]
          rfl

/-- Exactly three fields that are numbers, with a blank between them and perhaps one behind. -/
def ThreeNumbers (buf : Text) : Prop :=
  ∃ a b c, ' ' ∉ a ∧ ' ' ∉ b ∧ ' ' ∉ c ∧
    (buf = a ++ ' ' :: (b ++ ' ' :: c) ∨ buf = a ++ ' ' :: (b ++ ' ' :: (c ++ [' ']))) ∧
    (kstrtoint (cString a)).isSome ∧ (kstrtouint (cString b)).isSome ∧
    (kstrtouint (cString c)).isSome

theorem ThreeNumbers.count_le (h : ThreeNumbers buf) : buf.dropLast.count ' ' ≤ 2 := by
  obtain ⟨a, b, c, ha, hb, hc, hbuf, -⟩ := h
  have hne : ∀ rest : Text, ¬ b ++ ' ' :: rest = [] := by simp
  rcases hbuf with rfl | rfl
  · rw [count_dropLast_blank ha, if_neg (hne c), count_dropLast_blank hb, count_dropLast_none hc]
    split <;> omega
  · have hlast : ¬ c ++ [' '] = [] := by simp
    rw [count_dropLast_blank ha, if_neg (hne _), count_dropLast_blank hb, if_neg hlast,
      count_dropLast_blank hc, if_pos rfl]

/-! The values that the three variables end up with. -/

def markOf (stack : Stack) (buf : Text) : BitVec 32 :=
  (kstrtoint (cString (rowOf 0 buf))).getD stack.mark

def powerOf (stack : Stack) (buf : Text) : BitVec 32 :=
  (kstrtouint (cString (rowOf 1 buf))).getD stack.power

def rateOf (stack : Stack) (buf : Text) : BitVec 32 :=
  (kstrtouint (cString (rowOf 2 buf))).getD stack.rate

theorem write_eq (h : (copied user_buf).dropLast.count ' ' ≤ 2) :
    write_file_per_flow_tx_power stack list user_buf =
      some (update list (markOf stack (copied user_buf)) (powerOf stack (copied user_buf))
        (rateOf stack (copied user_buf))) := by
  rw [write_file_per_flow_tx_power, ← copied, valbuf_eq, if_pos h]
  rfl

/-- Numbers that change nothing: the mark 0 for an empty table, a negative mark without an
entry, a positive one whose entry has the power and the rate already. -/
def Idle (list : List Entry) (mark power rate : BitVec 32) : Prop :=
  if mark = 0 then list = []
  else if mark.toInt < 0 then ∀ tmp ∈ list, tmp.mark ≠ -mark
  else ∃ tmp, list.find? (fun tmp => tmp.mark = mark) = some tmp ∧
    tmp.power = power.setWidth 8 ∧ tmp.rate = rate

section Changes

variable {mark power rate : BitVec 32}

theorem updateEntry_same_iff (mark power rate : BitVec 32) (list : List Entry) :
    updateEntry mark power rate list = some list ↔
      ∃ tmp, list.find? (fun tmp => tmp.mark = mark) = some tmp ∧
        tmp.power = power.setWidth 8 ∧ tmp.rate = rate := by
  induction list with
  | nil => simp [updateEntry]
  | cons tmp list ih =>
    by_cases htmp : tmp.mark = mark
    · rw [updateEntry, if_pos htmp, List.find?_cons_of_pos (by simpa using htmp)]
      constructor
      · intro h
        have hsame := (List.cons.inj (Option.some.inj h)).1
        exact ⟨tmp, rfl, congrArg Entry.power hsame.symm, congrArg Entry.rate hsame.symm⟩
      · rintro ⟨tmp', heq, hpower, hrate⟩
        cases heq
        rw [← hpower, ← hrate]
    · rw [updateEntry, if_neg htmp, List.find?_cons_of_neg (by simpa using htmp), ← ih]
      cases updateEntry mark power rate list with
      | none => simp
      | some list' => simp

theorem update_eq_self_iff (list : List Entry) (mark power rate : BitVec 32) :
    update list mark power rate = list ↔ Idle list mark power rate := by
  rw [update, Idle]
  split
  · exact eq_comm
  · split
    · rw [List.filter_eq_self]
      simp
    · rw [← updateEntry_same_iff]
      cases updateEntry mark power rate list with
      | none => simp
      | some list' => simp

end Changes

/-- A write whose stores stay within the buffer changes the table by what the rows then hold. -/
theorem write_from_memory (stack : Stack) (list : List Entry) (user_buf : Text)
    (h : InBounds (copied user_buf)) :
    let mem := memory (stores 0 0 (copied user_buf))
    write_file_per_flow_tx_power stack list user_buf =
      some (update list ((kstrtoint (readRow mem 0)).getD stack.mark)
        ((kstrtouint (readRow mem 1)).getD stack.power)
        ((kstrtouint (readRow mem 2)).getD stack.rate)) := by
  simp only [readRow_memory]
  exact write_eq ((inBounds_iff user_buf).mp h)

/-- A write stays within the buffer and leaves the table alone unless it has three numbers
exactly when it has three numbers, or ends in time and what it leaves in the variables
happens to change nothing. -/
theorem write_safe_iff (stack : Stack) (list : List Entry) (user_buf : Text) :
    (InBounds (copied user_buf) ∧ (¬ ThreeNumbers (copied user_buf) →
      write_file_per_flow_tx_power stack list user_buf = some list)) ↔
    ThreeNumbers (copied user_buf) ∨ (copied user_buf).dropLast.count ' ' ≤ 2 ∧
      Idle list (markOf stack (copied user_buf)) (powerOf stack (copied user_buf))
        (rateOf stack (copied user_buf)) := by
  rw [inBounds_iff]
  constructor
  · rintro ⟨hcount, hsame⟩
    by_cases hthree : ThreeNumbers (copied user_buf)
    · exact .inl hthree
    · have hwrite := hsame hthree
      rw [write_eq hcount] at hwrite
      exact .inr ⟨hcount, (update_eq_self_iff _ _ _ _).mp (Option.some.inj hwrite)⟩
  · rintro (hthree | ⟨hcount, hidle⟩)
    · exact ⟨hthree.count_le, fun h => absurd hthree h⟩
    · refine ⟨hcount, fun _ => ?_⟩
      rw [write_eq hcount, (update_eq_self_iff _ _ _ _).mpr hidle]

/-- The stores and the table: as long as the stores stay within the buffer, the numbers are
those that the rows hold, and exactly under the condition the write is safe. -/
theorem debugfs_write_iff (stack : Stack) (list : List Entry) (user_buf : Text) :
    (InBounds (copied user_buf) →
      let mem := memory (stores 0 0 (copied user_buf))
      write_file_per_flow_tx_power stack list user_buf =
        some (update list ((kstrtoint (readRow mem 0)).getD stack.mark)
          ((kstrtouint (readRow mem 1)).getD stack.power)
          ((kstrtouint (readRow mem 2)).getD stack.rate))) ∧
    ((InBounds (copied user_buf) ∧ (¬ ThreeNumbers (copied user_buf) →
      write_file_per_flow_tx_power stack list user_buf = some list)) ↔
    ThreeNumbers (copied user_buf) ∨ (copied user_buf).dropLast.count ' ' ≤ 2 ∧
      Idle list (markOf stack (copied user_buf)) (powerOf stack (copied user_buf))
        (rateOf stack (copied user_buf))) :=
  ⟨write_from_memory stack list user_buf, write_safe_iff stack list user_buf⟩

/-- A fourth field is stored behind the rows, and a single number adds an entry with the power
and the rate that the variables happened to hold. -/
theorem debugfs_write_unsafe : ¬ InBounds (copied "1 2 3 4".toList) ∧
    ¬ ThreeNumbers (copied "5".toList) ∧
    ∀ stack : Stack, write_file_per_flow_tx_power stack [] "5".toList =
      some [⟨5, stack.power.setWidth 8, stack.rate⟩] := by
  refine ⟨?_, ?_, ?_⟩
  · rw [inBounds_iff]
    decide
  · rintro ⟨a, b, c, -, -, -, hbuf, -⟩
    have hlen : (copied "5".toList).length = 1 := by decide
    rcases hbuf with hbuf | hbuf
    · rw [hbuf] at hlen
      simp at hlen
      omega
    · rw [hbuf] at hlen
      simp at hlen
      omega
  · intro stack
    rfl

end Nxwlan.DebugfsWrites
