import Mathlib.Data.List.Basic
import Mathlib.Data.UInt

/-!
Records of a tag byte, a length byte and a value, one behind the other. A pass over them
carries a state from record to record and stops where no whole record is left; it reaches
the end exactly when the bytes are a list of encoded records.
-/
namespace Nxwlan.TaggedRecords

/-- A tag and a value. -/
abbrev Record := UInt8 × List UInt8

def encode (r : Record) : List UInt8 := r.1 :: UInt8.ofNat r.2.length :: r.2

/-- The length fits into its byte. -/
def Short (r : Record) : Prop := r.2.length < 256

/-- The bytes are encoded records and nothing else. -/
def IsRecords (bytes : List UInt8) : Prop :=
  ∃ records : List Record, (∀ r ∈ records, Short r) ∧ bytes = records.flatMap encode

variable {σ : Type*}

/-- The state after the last whole record, and whether nothing is left behind it. -/
def scan (step : σ → Record → σ) (s : σ) : List UInt8 → σ × Bool
  | [] => (s, true)
  | [_] => (s, false)
  | tag :: size :: rest =>
      if rest.length < size.toNat then (s, false)
      else scan step (step s (tag, rest.take size.toNat)) (rest.drop size.toNat)
termination_by bytes => bytes.length
decreasing_by
  simp only [List.length_drop, List.length_cons]
  omega

variable {step : σ → Record → σ} {r : Record}

theorem toNat_size (hr : Short r) : (UInt8.ofNat r.2.length).toNat = r.2.length :=
  Nat.mod_eq_of_lt hr

/-- A record at the front is one step. -/
theorem scan_encode (s : σ) (hr : Short r) (rest : List UInt8) :
    scan step s (encode r ++ rest) = scan step (step s r) rest := by
  rw [encode, List.cons_append, List.cons_append, scan, toNat_size hr, if_neg (by simp),
    List.take_left, List.drop_left]

theorem scan_records (step : σ → Record → σ) (s : σ) {records : List Record}
    (hshort : ∀ r ∈ records, Short r) (rest : List UInt8) :
    scan step s (records.flatMap encode ++ rest) = scan step (records.foldl step s) rest := by
  induction records generalizing s with
  | nil => rfl
  | cons r records ih =>
    rw [List.flatMap_cons, List.append_assoc, scan_encode s (hshort r List.mem_cons_self),
      ih (step s r) (fun r' hr' => hshort r' (List.mem_cons_of_mem r hr')), List.foldl_cons]

theorem isRecords_nil : IsRecords [] := ⟨[], List.forall_mem_nil _, rfl⟩

theorem IsRecords.encode_append {bytes : List UInt8} (hr : Short r) (h : IsRecords bytes) :
    IsRecords (encode r ++ bytes) := by
  obtain ⟨records, hshort, rfl⟩ := h
  exact ⟨r :: records, List.forall_mem_cons.mpr ⟨hr, hshort⟩, rfl⟩

/-- Two bytes and as many as the second one says are a record. -/
theorem encode_take (tag : UInt8) {size : UInt8} {rest : List UInt8}
    (hsize : size.toNat ≤ rest.length) :
    Short (tag, rest.take size.toNat) ∧
      tag :: size :: rest = encode (tag, rest.take size.toNat) ++ rest.drop size.toNat := by
  have hlen : (rest.take size.toNat).length = size.toNat := List.length_take_of_le hsize
  refine ⟨hlen.trans_lt size.toNat_lt, ?_⟩
  rw [encode, List.cons_append, List.cons_append, hlen, UInt8.ofNat_toNat, List.take_append_drop]

/-- The pass comes to the end of lists of records only. -/
theorem scan_complete_iff (step : σ → Record → σ) (s : σ) (bytes : List UInt8) :
    (scan step s bytes).2 = true ↔ IsRecords bytes := by
  constructor
  · intro hscan
    induction s, bytes using scan.induct step with
    | case1 s => exact isRecords_nil
    | case2 s tag =>
      rw [scan] at hscan
      cases hscan
    | case3 s tag size rest hshort =>
      rw [scan, if_pos hshort] at hscan
      cases hscan
    | case4 s tag size rest hsize ih =>
      rw [scan, if_neg hsize] at hscan
      have hrecord := encode_take tag (Nat.le_of_not_lt hsize)
      rw [hrecord.2]
      exact (ih hscan).encode_append hrecord.1
  · intro hrecords
    obtain ⟨records, hshort, rfl⟩ := hrecords
    have hall := scan_records step s hshort []
    rw [List.append_nil] at hall
    rw [hall, scan]

end Nxwlan.TaggedRecords
