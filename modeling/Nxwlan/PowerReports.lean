import Nxwlan.PerFlowPower
import Mathlib.Data.List.Basic

/-!
The report of the table of transmit powers, which is what its debugfs file shows. It is cut
where its buffer ends. A report that has not been cut tells the table, in whatever pieces it
is read.
-/
namespace Nxwlan.PowerReports

open PyText PerFlowPower

section Report

/-- `scnprintf` behind what is in a buffer of `size` bytes, which keeps one for the end. -/
def scnprintf (size : ℕ) (buf s : Text) : Text := buf ++ s.take (size - buf.length - 1)

def headline : Text := "Per-flow TxPower list\n".toList

/-- The three texts that are printed for an entry; the numbers are printed as `int`. -/
def fields (tmp : Entry) : List Text :=
  ["Mark: ".toList ++ showInt tmp.mark.toInt ++ [' '],
    "Power: ".toList ++ showInt tmp.power.toNat ++ [' '],
    "Rate: ".toList ++ showInt tmp.rate.toInt ++ ['\n']]

/-- What is in the buffer of `read_file_per_flow_tx_power`. -/
def report (list : List Entry) : Text :=
  (list.flatMap fields).foldl (scnprintf 1024) (scnprintf 1024 [] headline)

/-- `read_file_per_flow_tx_power`, with the position of the file. -/
def read_file_per_flow_tx_power (list : List Entry) (count ppos : ℕ) : Text × ℕ :=
  let data := ((report list).drop ppos).take count
  (data, ppos + data.length)

/-- What a program reads from the position on, in pieces of the given sizes. -/
def readPieces (list : List Entry) : List ℕ → ℕ → List Text
  | [], _ => []
  | count :: counts, ppos =>
      let r := read_file_per_flow_tx_power list count ppos
      r.1 :: readPieces list counts r.2

/-- The report with a buffer without end. -/
def fullReport (list : List Entry) : Text := headline ++ (list.flatMap fields).flatten

end Report

section Cuts

variable {size : ℕ} {list list' : List Entry}

theorem scnprintf_take (size : ℕ) (buf s : Text) :
    scnprintf size (buf.take (size - 1)) s = (buf ++ s).take (size - 1) := by
  unfold scnprintf
  rw [List.take_append, List.length_take]
  by_cases hshort : buf.length ≤ size - 1
  · rw [Nat.min_eq_right hshort]
    congr 2
    omega
  · have hnone : size - min (size - 1) buf.length - 1 = size - 1 - buf.length := by omega
    rw [hnone]

theorem foldl_scnprintf (size : ℕ) (buf : Text) (texts : List Text) :
    texts.foldl (scnprintf size) (buf.take (size - 1)) =
      (buf ++ texts.flatten).take (size - 1) := by
  induction texts generalizing buf with
  | nil => rw [List.flatten_nil, List.append_nil, List.foldl_nil]
  | cons s texts ih =>
    rw [List.foldl_cons, scnprintf_take, ih, List.flatten_cons, List.append_assoc]

/-- The report is cut before the last byte of its buffer. -/
theorem report_eq (list : List Entry) : report list = (fullReport list).take 1023 := by
  have hfirst : scnprintf 1024 [] headline = headline.take (1024 - 1) :=
    scnprintf_take 1024 [] headline
  rw [report, hfirst, foldl_scnprintf, fullReport]

theorem report_full (h : (report list).length < 1023) : report list = fullReport list := by
  rw [report_eq, List.length_take] at h
  rw [report_eq, List.take_of_length_le (by omega)]

end Cuts

section Lines

variable {a b : ℤ} {x y : Text} {c : Char}

theorem showInt_injective (h : showInt a = showInt b) : a = b := by
  have hread := readInt_showInt a
  rw [h, readInt_showInt] at hread
  exact (Option.some.inj hread).symm

/-- A number and what follows it are told by a letter that no number has. -/
theorem number_append (hminus : c ≠ '-') (hdigit : c.isDigit = false)
    (h : showInt a ++ c :: x = showInt b ++ c :: y) : a = b ∧ x = y := by
  have hcut : ∀ i rest, cut [c] (showInt i ++ c :: rest) = some (showInt i, rest) := by
    intro i rest
    have happend : showInt i ++ c :: rest = showInt i ++ [c] ++ rest := by simp
    rw [happend]
    exact cut_append rest (not_mem_showInt hminus hdigit i)
  have hparts := hcut a x
  rw [h, hcut] at hparts
  obtain ⟨hnumber, hrest⟩ := Prod.mk.inj (Option.some.inj hparts)
  exact ⟨(showInt_injective hnumber).symm, hrest.symm⟩

theorem fields_flatten (tmp : Entry) (rest : Text) :
    (fields tmp).flatten ++ rest = "Mark: ".toList ++ (showInt tmp.mark.toInt ++ ' ' ::
      ("Power: ".toList ++ (showInt tmp.power.toNat ++ ' ' ::
        ("Rate: ".toList ++ (showInt tmp.rate.toInt ++ '\n' :: rest))))) := by
  simp only [fields, List.flatten_cons, List.flatten_nil, List.append_nil, List.append_assoc,
    List.cons_append, List.nil_append]

/-- The line of an entry tells the entry. -/
theorem fields_inj {tmp tmp' : Entry}
    (h : (fields tmp).flatten ++ x = (fields tmp').flatten ++ y) : tmp = tmp' ∧ x = y := by
  rw [fields_flatten, fields_flatten] at h
  obtain ⟨hmark, h⟩ := number_append (by decide) (by decide) (List.append_cancel_left h)
  obtain ⟨hpower, h⟩ := number_append (by decide) (by decide) (List.append_cancel_left h)
  obtain ⟨hrate, hrest⟩ := number_append (by decide) (by decide) (List.append_cancel_left h)
  have hentry : tmp = tmp' := by
    obtain ⟨mark, power, rate⟩ := tmp
    obtain ⟨mark', power', rate'⟩ := tmp'
    obtain rfl := BitVec.toInt_inj.mp hmark
    obtain rfl := BitVec.toNat_inj.mp (Int.ofNat_inj.mp hpower)
    obtain rfl := BitVec.toInt_inj.mp hrate
    rfl
  exact ⟨hentry, hrest⟩

theorem fullReport_injective {list list' : List Entry} (h : fullReport list = fullReport list') :
    list = list' := by
  have hlines := List.append_cancel_left h
  clear h
  induction list generalizing list' with
  | nil =>
    cases list' with
    | nil => rfl
    | cons tmp' list' => simp [fields] at hlines
  | cons tmp list ih =>
    cases list' with
    | nil => simp [fields] at hlines
    | cons tmp' list' =>
      simp only [List.flatMap_cons, List.flatten_append] at hlines
      obtain ⟨rfl, hrest⟩ := fields_inj hlines
      rw [ih hrest]

end Lines

section Reads

variable {list list' : List Entry} {counts counts' : List ℕ}

/-- A piece and what is behind it make up what was left. -/
theorem piece_append (list : List Entry) (count ppos : ℕ) :
    let r := read_file_per_flow_tx_power list count ppos
    r.1 ++ (report list).drop r.2 = (report list).drop ppos := by
  simp only [read_file_per_flow_tx_power]
  rw [List.length_take, ← List.drop_drop, List.length_drop]
  by_cases hrest : count ≤ (report list).length - ppos
  · rw [Nat.min_eq_left hrest, List.take_append_drop]
  · have hall : ((report list).drop ppos).length ≤ count := by
      rw [List.length_drop]
      omega
    rw [List.take_of_length_le hall, Nat.min_eq_right (by omega), ← List.length_drop,
      List.drop_length, List.append_nil]

theorem piece_nil {count ppos : ℕ} (hcount : 0 < count)
    (hnil : (read_file_per_flow_tx_power list count ppos).1 = []) :
    (report list).drop ppos = [] := by
  have hempty := List.take_eq_nil_iff.mp hnil
  exact hempty.resolve_left (Nat.ne_of_gt hcount)

/-- The end of the file is where a read for at least one byte returns nothing; then all of the
report has been read. -/
theorem readPieces_end {ppos : ℕ} (hpos : ∀ count ∈ counts, 0 < count)
    (hend : (readPieces list counts ppos).getLast? = some []) :
    (readPieces list counts ppos).flatten = (report list).drop ppos := by
  induction counts generalizing ppos with
  | nil => cases hend
  | cons count counts ih =>
    have hcount := hpos count (List.mem_cons_self ..)
    rw [readPieces] at hend ⊢
    rw [List.flatten_cons]
    cases counts with
    | nil =>
      rw [readPieces, List.getLast?_singleton] at hend
      have hnil := Option.some.inj hend
      rw [hnil, piece_nil hcount hnil, readPieces, List.flatten_nil, List.append_nil]
    | cons next counts =>
      have hlast : (readPieces list (next :: counts)
          (read_file_per_flow_tx_power list count ppos).2).getLast? = some [] := by
        rw [readPieces] at hend ⊢
        rwa [List.getLast?_cons_cons] at hend
      rw [ih (fun count hc => hpos count (List.mem_cons_of_mem _ hc)) hlast]
      exact piece_append list count ppos

/-- Whoever reads the file to its end knows the table, if the report has not been cut: two tables
of which the same has been read are the same, whatever the sizes of the reads. -/
theorem report_tells_table (hpos : ∀ count ∈ counts, 0 < count)
    (hpos' : ∀ count ∈ counts', 0 < count)
    (hend : (readPieces list counts 0).getLast? = some [])
    (hend' : (readPieces list' counts' 0).getLast? = some [])
    (hshort : (readPieces list counts 0).flatten.length < 1023)
    (hsame : (readPieces list counts 0).flatten = (readPieces list' counts' 0).flatten) :
    list = list' := by
  rw [readPieces_end hpos hend, List.drop_zero] at hshort hsame
  rw [readPieces_end hpos' hend', List.drop_zero] at hsame
  have hfull := report_full hshort
  rw [hsame] at hshort
  rw [hfull, report_full hshort] at hsame
  exact fullReport_injective hsame

/-- Two flows, the second with a negative rate. -/
def sampleTable : List Entry := [⟨10002, 40, 1⟩, ⟨10003, 100, -1⟩]

theorem report_tells_table_sample :
    sampleTable = [⟨BitVec.ofInt 32 10002, 40, 1⟩, ⟨10003, 100, BitVec.ofInt 32 (-1)⟩] :=
  report_tells_table (show ∀ count ∈ [50, 50, 50], 0 < count by decide)
    (show ∀ count ∈ [80, 20, 1], 0 < count by decide) (by decide +kernel) (by decide +kernel)
    (by decide +kernel) (by decide +kernel)

end Reads

end Nxwlan.PowerReports
