import Mathlib.Algebra.Order.Group.Nat
import Mathlib.Logic.Basic
import Mathlib.Tactic.Common

/-!
A window of consecutive numbers over a ring of `m` marks. The window starts with the number
`s`, whose mark is in the place `h` of the ring, and ends before `t`; it is shorter than the
ring, so that its numbers have marks of their own. Numbers leave the window from its start
once they are not marked any more, and join it at its end.
-/
namespace Nxwlan.RingWindow

/-- The place of a number. -/
def slot (m h s n : ℕ) : ℕ := (h + (n - s)) % m

/-- The marks are those of the numbers in `P`, which lie in the window. -/
structure Holds (m : ℕ) (marked : ℕ → Bool) (h s t : ℕ) (P : ℕ → Prop) : Prop where
  head : h < m
  le : s ≤ t
  span : t - s < m
  within : ∀ n, P n → s ≤ n ∧ n < t
  marks : ∀ k, k < m → (marked k = true ↔ ∃ n, P n ∧ slot m h s n = k)

section Slots

variable {m h s n n' : ℕ}

theorem slot_lt (hm : 0 < m) : slot m h s n < m := Nat.mod_lt _ hm

theorem slot_start (hh : h < m) : slot m h s s = h := by
  rw [slot, Nat.sub_self, Nat.add_zero, Nat.mod_eq_of_lt hh]

/-- Places are counted around the ring. -/
theorem slot_eq (hh : h < m) (hn : n - s < m) :
    slot m h s n = if h + (n - s) < m then h + (n - s) else h + (n - s) - m := by
  rw [slot]
  split
  · rename_i hlt
    exact Nat.mod_eq_of_lt hlt
  · rename_i hge
    rw [Nat.mod_eq_sub_mod (not_lt.mp hge), Nat.mod_eq_of_lt (by omega)]

theorem slot_injective (hh : h < m) (hn : s ≤ n ∧ n - s < m) (hn' : s ≤ n' ∧ n' - s < m)
    (heq : slot m h s n = slot m h s n') : n = n' := by
  rw [slot_eq hh hn.2, slot_eq hh hn'.2] at heq
  split at heq
  · split at heq
    · omega
    · omega
  · split at heq
    · omega
    · omega

theorem slot_advance (hn : s < n) : slot m ((h + 1) % m) (s + 1) n = slot m h s n := by
  rw [slot, slot, Nat.mod_add_mod]
  congr 1
  omega

end Slots

namespace Holds

variable {m h s t n : ℕ} {marked marked' : ℕ → Bool} {P : ℕ → Prop}

theorem pos (w : Holds m marked h s t P) : 0 < m := by
  have := w.head
  omega

/-- An empty window. -/
theorem empty (hh : h < m) (hmarked : ∀ k, k < m → marked k = false) :
    Holds m marked h s s (fun _ => False) := by
  refine ⟨hh, le_rfl, by omega, fun n hn => hn.elim, ?_⟩
  intro k hk
  rw [hmarked k hk]
  simp

/-- The window is empty when its end has the place of its start. -/
theorem slot_end_iff (w : Holds m marked h s t P) : slot m h s t = h ↔ s = t := by
  constructor
  · intro heq
    refine slot_injective w.head ⟨le_rfl, ?_⟩ ⟨w.le, w.span⟩ ?_
    · have := w.pos
      omega
    · rw [slot_start w.head, heq]
  · rintro rfl
    exact slot_start w.head

theorem marked_start_iff (w : Holds m marked h s t P) : marked h = true ↔ P s := by
  rw [w.marks h w.head]
  constructor
  · rintro ⟨n, hn, hslot⟩
    obtain ⟨hle, hlt⟩ := w.within n hn
    have := w.span
    have heq : n = s := slot_injective w.head ⟨hle, by omega⟩ ⟨le_rfl, by omega⟩
      (hslot.trans (slot_start w.head).symm)
    rwa [← heq]
  · intro hs
    exact ⟨s, hs, slot_start w.head⟩

/-- The mark of a number is taken away. -/
theorem clear (w : Holds m marked h s t P) (hn : s ≤ n ∧ n < t)
    (hmarked : ∀ k, k < m → (marked' k = true ↔ k ≠ slot m h s n ∧ marked k = true)) :
    Holds m marked' h s t (fun k => P k ∧ k ≠ n) := by
  refine ⟨w.head, w.le, w.span, fun k hk => w.within k hk.1, ?_⟩
  intro k hk
  rw [hmarked k hk, w.marks k hk]
  have hspan := w.span
  constructor
  · rintro ⟨hne, a, ha, rfl⟩
    exact ⟨a, ⟨ha, fun heq => hne (by rw [heq])⟩, rfl⟩
  · rintro ⟨a, ⟨ha, hne⟩, rfl⟩
    refine ⟨?_, a, ha, rfl⟩
    intro heq
    obtain ⟨hle, hlt⟩ := w.within a ha
    exact hne (slot_injective w.head ⟨hle, by omega⟩ ⟨hn.1, by omega⟩ heq)

/-- The number behind the window joins it with a mark. -/
theorem extend (w : Holds m marked h s t P) (hroom : t + 1 - s < m)
    (hmarked : ∀ k, k < m → (marked' k = true ↔ k = slot m h s t ∨ marked k = true)) :
    Holds m marked' h s (t + 1) (fun k => P k ∨ k = t) := by
  have hle := w.le
  refine ⟨w.head, by omega, hroom, ?_, ?_⟩
  · rintro k (hk | rfl)
    · have := w.within k hk
      omega
    · omega
  · intro k hk
    rw [hmarked k hk, w.marks k hk]
    constructor
    · rintro (rfl | ⟨a, ha, rfl⟩)
      · exact ⟨t, Or.inr rfl, rfl⟩
      · exact ⟨a, Or.inl ha, rfl⟩
    · rintro ⟨a, ha | rfl, rfl⟩
      · exact Or.inr ⟨a, ha, rfl⟩
      · exact Or.inl rfl

/-- A number without a mark leaves at the start. -/
theorem advance (w : Holds m marked h s t P) (hlt : s < t) (hs : ¬ P s) :
    Holds m marked ((h + 1) % m) (s + 1) t P := by
  have hspan := w.span
  have hwithin : ∀ n, P n → s < n := by
    intro n hn
    refine lt_of_le_of_ne (w.within n hn).1 ?_
    rintro rfl
    exact hs hn
  refine ⟨Nat.mod_lt _ w.pos, hlt, by omega, fun n hn => ⟨hwithin n hn, (w.within n hn).2⟩, ?_⟩
  intro k hk
  rw [w.marks k hk]
  constructor
  · rintro ⟨n, hn, rfl⟩
    exact ⟨n, hn, slot_advance (hwithin n hn)⟩
  · rintro ⟨n, hn, rfl⟩
    exact ⟨n, hn, (slot_advance (hwithin n hn)).symm⟩

theorem congr {P' : ℕ → Prop} (w : Holds m marked h s t P) (hP : ∀ n, P n ↔ P' n) :
    Holds m marked h s t P' := by
  have heq : P = P' := funext (fun n => propext (hP n))
  exact heq ▸ w

end Holds

end Nxwlan.RingWindow
