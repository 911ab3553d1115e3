import Mathlib.Algebra.Order.Ring.Nat
import Mathlib.Algebra.BigOperators.Group.List.Basic
import Mathlib.Data.List.Forall2
import Mathlib.Data.List.Induction
import Mathlib.Tactic.Common
import Mathlib.Tactic.Ring

/-!
Headers made of whole-byte fields in network byte order. A layout lists the
widths of the fields; extracting reads them from the front of a byte string
and emitting writes them back. The two undo each other.
-/
namespace Nxwlan.ByteFields

abbrev Bytes := List UInt8

/-- The number that bytes stand for, most significant byte first. -/
def beNat (bs : Bytes) : ℕ := bs.foldl (fun n b => 256 * n + b.toNat) 0

/-- The same with the least significant byte first. -/
def leNat : Bytes → ℕ
  | [] => 0
  | b :: bs => b.toNat + 256 * leNat bs

/-- The last `k` bytes of a number, most significant byte first. -/
def beBytes : ℕ → ℕ → Bytes
  | 0, _ => []
  | k + 1, n => beBytes k (n / 256) ++ [UInt8.ofNat n]

theorem beNat_append_singleton (bs : Bytes) (b : UInt8) :
    beNat (bs ++ [b]) = 256 * beNat bs + b.toNat := by
  simp [beNat, List.foldl_append]

theorem beNat_lt (bs : Bytes) : beNat bs < 256 ^ bs.length := by
  induction bs using List.reverseRecOn with
  | nil => simp [beNat]
  | append_singleton bs b ih =>
    have hb := b.toNat_lt
    rw [beNat_append_singleton, List.length_append, List.length_singleton, pow_succ]
    omega

theorem length_beBytes (k n : ℕ) : (beBytes k n).length = k := by
  induction k generalizing n with
  | zero => rfl
  | succ k ih => simp [beBytes, ih]

theorem beBytes_beNat (bs : Bytes) : beBytes bs.length (beNat bs) = bs := by
  induction bs using List.reverseRecOn with
  | nil => rfl
  | append_singleton bs b ih =>
    have hb := b.toNat_lt
    have hdiv : (256 * beNat bs + b.toNat) / 256 = beNat bs := by omega
    have hlast : UInt8.ofNat (256 * beNat bs + b.toNat) = b := by
      apply UInt8.toNat_inj.mp
      rw [UInt8.toNat_ofNat']
      omega
    rw [beNat_append_singleton, List.length_append, List.length_singleton, beBytes, hdiv, ih,
      hlast]

theorem beNat_beBytes {k n : ℕ} (h : n < 256 ^ k) : beNat (beBytes k n) = n := by
  induction k generalizing n with
  | zero =>
    obtain rfl : n = 0 := by simpa using h
    rfl
  | succ k ih =>
    rw [pow_succ] at h
    rw [beBytes, beNat_append_singleton, ih (by omega), UInt8.toNat_ofNat']
    omega

/-- The fields of the given widths at the front of a byte string. -/
def extractFields : List ℕ → Bytes → Option (List ℕ × Bytes)
  | [], bs => some ([], bs)
  | k :: ks, bs =>
      if k ≤ bs.length then
        (extractFields ks (bs.drop k)).map (fun r => (beNat (bs.take k) :: r.1, r.2))
      else none

def emitFields : List ℕ → List ℕ → Bytes
  | k :: ks, v :: vs => beBytes k v ++ emitFields ks vs
  | _, _ => []

theorem extractFields_cons {k : ℕ} {ks : List ℕ} {bs rest : Bytes} {vs : List ℕ}
    (h : extractFields (k :: ks) bs = some (vs, rest)) :
    k ≤ bs.length ∧ ∃ ws, vs = beNat (bs.take k) :: ws ∧
      extractFields ks (bs.drop k) = some (ws, rest) := by
  rw [extractFields] at h
  split at h
  · rename_i hk
    obtain ⟨⟨ws, rest'⟩, hrest, heq⟩ := Option.map_eq_some_iff.mp h
    simp only [Prod.mk.injEq] at heq
    obtain ⟨rfl, rfl⟩ := heq
    exact ⟨hk, ws, rfl, hrest⟩
  · simp at h

theorem emitFields_of_extractFields {ks : List ℕ} {bs rest : Bytes} {vs : List ℕ}
    (h : extractFields ks bs = some (vs, rest)) : emitFields ks vs ++ rest = bs := by
  induction ks generalizing bs vs with
  | nil =>
    simp only [extractFields, Option.some.injEq, Prod.mk.injEq] at h
    obtain ⟨rfl, rfl⟩ := h
    rfl
  | cons k ks ih =>
    obtain ⟨hk, ws, rfl, hrest⟩ := extractFields_cons h
    have htake : beBytes k (beNat (bs.take k)) = bs.take k := by
      have hlen : (bs.take k).length = k := by simp [hk]
      have hround := beBytes_beNat (bs.take k)
      rwa [hlen] at hround
    rw [emitFields, htake, List.append_assoc, ih hrest, List.take_append_drop]

theorem extractFields_emitFields {ks vs : List ℕ} (rest : Bytes)
    (h : List.Forall₂ (fun v k => v < 256 ^ k) vs ks) :
    extractFields ks (emitFields ks vs ++ rest) = some (vs, rest) := by
  induction h with
  | nil => rfl
  | @cons v k vs ks hv _ ih =>
    have hlen := length_beBytes k v
    have hle : k ≤ (beBytes k v ++ (emitFields ks vs ++ rest)).length := by
      simp [hlen]
    have htake : (beBytes k v ++ (emitFields ks vs ++ rest)).take k = beBytes k v :=
      List.take_left' hlen
    have hdrop : (beBytes k v ++ (emitFields ks vs ++ rest)).drop k = emitFields ks vs ++ rest :=
      List.drop_left' hlen
    rw [emitFields, List.append_assoc, extractFields, if_pos hle, htake, hdrop, ih,
      beNat_beBytes hv]
    rfl

theorem extractFields_bound {ks : List ℕ} {bs rest : Bytes} {vs : List ℕ}
    (h : extractFields ks bs = some (vs, rest)) :
    List.Forall₂ (fun v k => v < 256 ^ k) vs ks := by
  induction ks generalizing bs vs with
  | nil =>
    simp only [extractFields, Option.some.injEq, Prod.mk.injEq] at h
    obtain ⟨rfl, -⟩ := h
    exact .nil
  | cons k ks ih =>
    obtain ⟨hk, ws, rfl, hrest⟩ := extractFields_cons h
    have hlt := beNat_lt (bs.take k)
    rw [List.length_take, min_eq_left hk] at hlt
    exact .cons hlt (ih hrest)

/-- A header type whose values are made of fields of fixed widths. -/
structure Layout (H : Type) where
  widths : List ℕ
  fields : H → List ℕ
  build : List ℕ → Option H
  build_fields : ∀ vs h, build vs = some h → fields h = vs := by
    -- a list of the right length builds a value with these fields, and no other list does
    intro vs h hb
    split at hb
    · cases hb
      rfl
    · cases hb
  fields_build : ∀ h, build (fields h) = some h := by exact fun _ => rfl

namespace Layout

variable {H : Type} (L : Layout H)

def extract (bs : Bytes) : Option (H × Bytes) :=
  (extractFields L.widths bs).bind (fun r => (L.build r.1).map (fun h => (h, r.2)))

def emit (h : H) : Bytes := emitFields L.widths (L.fields h)

theorem extract_inv {bs rest : Bytes} {h : H} (hx : L.extract bs = some (h, rest)) :
    extractFields L.widths bs = some (L.fields h, rest) := by
  obtain ⟨⟨vs, rest'⟩, hfields, hbuild⟩ := Option.bind_eq_some_iff.mp hx
  obtain ⟨h', hh, heq⟩ := Option.map_eq_some_iff.mp hbuild
  simp only [Prod.mk.injEq] at heq
  obtain ⟨rfl, rfl⟩ := heq
  rw [hfields, L.build_fields vs h' hh]

/-- Emitting what was extracted gives the bytes back. -/
theorem emit_of_extract {bs rest : Bytes} {h : H} (hx : L.extract bs = some (h, rest)) :
    L.emit h ++ rest = bs :=
  emitFields_of_extractFields (L.extract_inv hx)

/-- The fields of an extracted header fit their widths. -/
theorem extract_bound {bs rest : Bytes} {h : H} (hx : L.extract bs = some (h, rest)) :
    List.Forall₂ (fun v k => v < 256 ^ k) (L.fields h) L.widths :=
  extractFields_bound (L.extract_inv hx)

/-- Extracting what was emitted gives the header back if its fields fit. -/
theorem extract_emit {h : H} (hfit : List.Forall₂ (fun v k => v < 256 ^ k) (L.fields h) L.widths)
    (rest : Bytes) : L.extract (L.emit h ++ rest) = some (h, rest) := by
  rw [extract, emit, extractFields_emitFields rest hfit]
  simp [L.fields_build]

end Layout

end Nxwlan.ByteFields
