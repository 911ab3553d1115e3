import Nxwlan.ReorderWindow
import Nxwlan.RxReorder

/-!
The ring of a block acknowledgement session does what a window over numbers that never wrap
does. Frames are handed on in the order of their numbers, each of them once, and one that has
been stored is handed on or still waits, with a timer set for it.
-/
namespace Nxwlan.RxReorder

open ReorderWindow

section Numbers

/-- The sizes of rings in which the places of numbers agree when sequence numbers wrap. -/
structure RingSize (m : ℕ) : Prop where
  two_le : 2 ≤ m
  le : m ≤ 64
  dvd : m ∣ 4096

/-- The first number from `next` on that has the sequence number. -/
def number (next sn : ℕ) : ℕ := next + (sn + 4096 - next % 4096) % 4096

variable {next n n' m sn : ℕ}

theorem le_number (next sn : ℕ) : next ≤ number next sn := Nat.le_add_right _ _

theorem number_mod (next : ℕ) (hsn : sn < 4096) : number next sn % 4096 = sn := by
  unfold number
  omega

theorem sn_less_next (next : ℕ) (hsn : sn < 4096) :
    ieee80211_sn_less sn (next % 4096) = decide (next + 2048 < number next sn) := by
  unfold ieee80211_sn_less number
  refine decide_eq_decide.mpr ?_
  omega

theorem sn_less_end (hsn : sn < 4096) (hm : RingSize m) (h : number next sn ≤ next + 2048) :
    ieee80211_sn_less sn (next % 4096 + m) = decide (number next sn < next + m) := by
  have hle := hm.le
  unfold number at h
  unfold ieee80211_sn_less number
  refine decide_eq_decide.mpr ?_
  omega

theorem next_sn_less (next sn : ℕ) :
    ieee80211_sn_less (next % 4096) sn =
      decide (next < number next sn ∧ number next sn < next + 2048) := by
  unfold ieee80211_sn_less number
  refine decide_eq_decide.mpr ?_
  omega

theorem sn_inc_sub (hm : RingSize m) (h : next + m ≤ number next sn) :
    ieee80211_sn_inc (ieee80211_sn_sub sn m) = (number next sn + 1 - m) % 4096 := by
  have hle := hm.le
  have htwo := hm.two_le
  unfold ieee80211_sn_inc ieee80211_sn_add ieee80211_sn_sub
  unfold number at h ⊢
  omega

theorem number_self (hle : next ≤ n) (hlt : n < next + 4096) : number next (n % 4096) = n := by
  unfold number
  omega

/-- Two numbers of a window have their own places. -/
theorem mod_inj (next : ℕ) (h : n % m = n' % m) (hle : next ≤ n) (hlt : n < next + m)
    (hle' : next ≤ n') (hlt' : n' < next + m) : n = n' := by
  rcases Nat.le_total n n' with hnn | hnn
  · have hdvd : m ∣ n' - n := Nat.dvd_of_mod_eq_zero (Nat.sub_mod_eq_zero_of_mod_eq h.symm)
    have hzero := Nat.eq_zero_of_dvd_of_lt hdvd (by omega)
    omega
  · have hdvd : m ∣ n - n' := Nat.dvd_of_mod_eq_zero (Nat.sub_mod_eq_zero_of_mod_eq h)
    have hzero := Nat.eq_zero_of_dvd_of_lt hdvd (by omega)
    omega

end Numbers

section Rings

/-- A stored frame with the time it was stored at. -/
abbrev Item := Frame × BitVec 64

variable {m n : ℕ} {r : Bool} {t t' : TidRx} {frames : List Frame} {w w' : Window Item}

/-- The ring holds the frames of a window. -/
structure Rep (m : ℕ) (r : Bool) (t : TidRx) (frames : List Frame) (w : Window Item) : Prop where
  size : t.buf_size = m
  head : t.head_seq_num = w.next % 4096
  slot : ∀ n, w.next ≤ n → n < w.next + m →
    t.reorder_buf (n % m) = ((w.held n).map Prod.fst).toList
  time : ∀ n a, w.held n = some a → t.reorder_time (n % m) = a.2
  plain : ∀ n a, w.held n = some a → a.1.amsdu_more = false
  stored : t.stored_mpdu_num = (w.taken.length : ℤ) - w.out.length
  frames : frames = w.out.map (fun x => x.2.1)
  fixed : t.auto_seq = false ∧ t.removed = r
  dead : r = true → t.reorder_timer = none
  sound : Sound m w

theorem Rep.index (h : Rep m r t frames w) (hm : RingSize m) :
    t.head_seq_num % t.buf_size = w.next % m := by
  rw [h.head, h.size, Nat.mod_mod_of_dvd _ hm.dvd]

theorem Rep.ready (h : Rep m r t frames w) (hle : w.next ≤ n) (hlt : n < w.next + m) :
    ieee80211_rx_reorder_ready (t.reorder_buf (n % m)) = (w.held n).isSome := by
  rw [h.slot n hle hlt]
  cases ha : w.held n with
  | none => rfl
  | some a => simp [ieee80211_rx_reorder_ready, h.plain n a ha]

theorem Rep.stored_iff (h : Rep m r t frames w) :
    t.stored_mpdu_num ≠ 0 ↔ ∃ n, (w.held n).isSome = true := by
  have hle := h.sound.length_le
  rw [h.sound.held_iff, h.stored]
  omega

theorem release_none {index : ℕ} (hslot : t.reorder_buf index = []) (frames : List Frame) :
    ieee80211_release_reorder_frame index t frames =
      ({ t with head_seq_num := ieee80211_sn_inc t.head_seq_num }, frames) := by
  unfold ieee80211_release_reorder_frame
  simp only
  rw [if_pos hslot]

theorem release_some {index : ℕ} {skb : Frame} (hslot : t.reorder_buf index = [skb])
    (hplain : skb.amsdu_more = false) (frames : List Frame) :
    ieee80211_release_reorder_frame index t frames =
      (purge index { t with
        head_seq_num := ieee80211_sn_inc t.head_seq_num
        stored_mpdu_num := t.stored_mpdu_num - 1 }, frames ++ [skb]) := by
  unfold ieee80211_release_reorder_frame
  simp only
  rw [hslot, if_neg (by simp), if_neg (by simp [ieee80211_rx_reorder_ready, hplain])]

theorem sn_inc_mod (next : ℕ) : ieee80211_sn_inc (next % 4096) = (next + 1) % 4096 := by
  unfold ieee80211_sn_inc ieee80211_sn_add
  omega

/-- The head of the ring moves by one, and its frame is handed on. -/
theorem Rep.pop (h : Rep m r t frames w) (hm : RingSize m) :
    Rep m r (ieee80211_release_reorder_frame (w.next % m) t frames).1
      (ieee80211_release_reorder_frame (w.next % m) t frames).2 (pop w) := by
  have htwo := hm.two_le
  have hslot := h.slot w.next (Nat.le_refl _) (by omega)
  have hsound := h.sound.pop
  -- the place of the head is the one of the number that enters the window
  have hplace : ∀ n, w.next + 1 ≤ n → n < w.next + 1 + m →
      (n = w.next + m ∧ n % m = w.next % m) ∨ (n < w.next + m ∧ n % m ≠ w.next % m) := by
    intro n hle hlt
    by_cases hend : n = w.next + m
    · exact Or.inl ⟨hend, by rw [hend, Nat.add_mod_right]⟩
    · refine Or.inr ⟨by omega, fun hsame => ?_⟩
      have heq := mod_inj w.next hsame (Nat.le_of_lt hle) (by omega) (Nat.le_refl _) (by omega)
      omega
  have hend : w.held (w.next + m) = none := by
    by_contra hheld
    have hroom := h.sound.room (w.next + m) (Option.isSome_iff_ne_none.mpr hheld)
    omega
  cases ha : w.held w.next with
  | none =>
    rw [ha] at hslot
    rw [release_none hslot]
    rw [pop_gap ha] at hsound ⊢
    refine ⟨h.size, ?_, fun n hle hlt => ?_, h.time, h.plain, h.stored, h.frames, h.fixed,
      h.dead, hsound⟩
    · show ieee80211_sn_inc t.head_seq_num = (w.next + 1) % 4096
      rw [h.head, sn_inc_mod]
    · show t.reorder_buf (n % m) = ((w.held n).map Prod.fst).toList
      rcases hplace n hle hlt with ⟨rfl, hsame⟩ | ⟨hlt', -⟩
      · rw [hsame, hslot, hend]
      · have hle : w.next + 1 ≤ n := hle
        exact h.slot n (by omega) hlt'
  | some a =>
    rw [ha] at hslot
    rw [release_some hslot (h.plain _ a ha)]
    refine ⟨h.size, ?_, fun n hle hlt => ?_, fun n a ha => h.time n a (held_of_pop ha),
      fun n a ha => h.plain n a (held_of_pop ha), ?_, ?_, h.fixed, h.dead, hsound⟩
    · show ieee80211_sn_inc t.head_seq_num = (w.next + 1) % 4096
      rw [h.head, sn_inc_mod]
    · have hle : w.next + 1 ≤ n := hle
      show Function.update t.reorder_buf (w.next % m) [] (n % m) = _
      rw [held_pop (by omega)]
      rcases hplace n hle hlt with ⟨rfl, hsame⟩ | ⟨hlt', hother⟩
      · rw [hsame, Function.update_self, hend]
        rfl
      · rw [Function.update_of_ne hother]
        exact h.slot n (by omega) hlt'
    · show t.stored_mpdu_num - 1 =
        (w.taken.length : ℤ) - (w.out ++ ((w.held w.next).map (fun a => (w.next, a))).toList).length
      rw [h.stored, ha]
      simp only [List.length_append, Option.map_some, Option.toList_some, List.length_singleton]
      omega
    · show frames ++ [a.1] =
        (w.out ++ ((w.held w.next).map (fun a => (w.next, a))).toList).map (fun x => x.2.1)
      rw [h.frames, ha, List.map_append]
      rfl

end Rings

section Loops

variable {m n k : ℕ} {r : Bool} {t t' : TidRx} {frames : List Frame} {w w' : Window Item}
  {timeout jiffies : BitVec 64}

theorem Rep.set_timer (h : Rep m r t frames w) {timer : Option (BitVec 64)}
    (hdead : r = true → timer = none) : Rep m r { t with reorder_timer := timer } frames w :=
  ⟨h.size, h.head, h.slot, h.time, h.plain, h.stored, h.frames, h.fixed, hdead, h.sound⟩

theorem release_timer (index : ℕ) (t : TidRx) (frames : List Frame) :
    (ieee80211_release_reorder_frame index t frames).1.reorder_timer = t.reorder_timer := by
  unfold ieee80211_release_reorder_frame
  simp only
  split
  · rfl
  · split
    · rfl
    · rfl

/-- The head of the ring moves to a number that is not far ahead. -/
theorem Rep.release_loop (h : Rep m r t frames w) (hm : RingSize m) {d : ℕ} (hd : d < 2048)
    (hk : d < k) :
    ∃ t' frames', releaseLoop ((w.next + d) % 4096) k t frames = some (t', frames') ∧
      Rep m r t' frames' (pops d w) ∧ t'.reorder_timer = t.reorder_timer := by
  induction d generalizing t frames w k with
  | zero =>
    obtain ⟨k, rfl⟩ := Nat.exists_eq_succ_of_ne_zero (Nat.ne_of_gt hk)
    refine ⟨t, frames, ?_, h, rfl⟩
    rw [Nat.add_zero, releaseLoop, h.head, next_sn_less,
      number_self (Nat.le_refl _) (by omega), if_neg (by simp)]
  | succ d ih =>
    obtain ⟨k, rfl⟩ := Nat.exists_eq_succ_of_ne_zero (Nat.ne_of_gt (Nat.zero_lt_of_lt hk))
    obtain ⟨t', frames', hrun, hrep, htimer⟩ :=
      ih (h.pop hm) (by omega) (Nat.lt_of_succ_lt_succ hk)
    refine ⟨t', frames', ?_, hrep, htimer.trans (release_timer ..)⟩
    have htarget : number w.next ((w.next + (d + 1)) % 4096) = w.next + (d + 1) :=
      number_self (by omega) (by omega)
    rw [releaseLoop, h.head, next_sn_less, htarget, if_pos (by simp; omega), ← h.head,
      h.index hm]
    have hnext : w.next + (d + 1) = (ReorderWindow.pop w).next + d := by
      rw [pop_next]
      omega
    rw [hnext]
    exact hrun

/-- The frames at the head of the ring are released. -/
theorem Rep.ready_loop (h : Rep m r t frames w) (hm : RingSize m)
    (hk : ∀ n, (w.held n).isSome = true → n < w.next + k) :
    ∃ t' frames', readyLoop (k + 1) (w.next % m) t frames = some (t', frames') ∧
      Rep m r t' frames' (settle k w) := by
  have htwo := hm.two_le
  have hready := h.ready (Nat.le_refl w.next) (by omega)
  induction k generalizing t frames w with
  | zero =>
    refine ⟨t, frames, ?_, h⟩
    have hnone : (w.held w.next).isSome = false := by
      rw [Bool.eq_false_iff]
      exact fun hheld => absurd (hk w.next hheld) (by omega)
    rw [readyLoop, hready, hnone, if_neg (by simp)]
  | succ k ih =>
    rw [readyLoop, hready, settle]
    cases hheld : (w.held w.next).isSome with
    | false =>
      rw [if_neg (by simp), if_neg (by simp)]
      exact ⟨t, frames, rfl, h⟩
    | true =>
      rw [if_pos rfl, if_pos rfl]
      have hpop := h.pop hm
      simp only
      rw [hpop.index hm]
      refine ih hpop (fun n hn => ?_) (hpop.ready (Nat.le_refl _) (by omega))
      obtain ⟨a, ha⟩ := Option.isSome_iff_exists.mp hn
      have hlt := hk n (Option.isSome_iff_exists.mpr ⟨a, held_of_pop ha⟩)
      rw [pop_next]
      omega

/-- Slots without frames are left as they are. -/
theorem purge_loop {i d : ℕ} (hsize : t.buf_size = m)
    (hempty : ∀ x, i ≤ x → x < i + d → t.reorder_buf (x % m) = []) (hd : d < m) (hk : d < k) :
    purgeLoop ((i + d) % m) k (i % m) t = some t := by
  induction d generalizing i k with
  | zero =>
    obtain ⟨k, rfl⟩ := Nat.exists_eq_succ_of_ne_zero (Nat.ne_of_gt hk)
    rw [Nat.add_zero, purgeLoop, if_pos rfl]
  | succ d ih =>
    obtain ⟨k, rfl⟩ := Nat.exists_eq_succ_of_ne_zero (Nat.ne_of_gt (Nat.zero_lt_of_lt hk))
    have hother : i % m ≠ (i + (d + 1)) % m := by
      intro hsame
      have heq := mod_inj i hsame (Nat.le_refl _) (by omega) (by omega) (by omega)
      omega
    have hslot := hempty i (Nat.le_refl _) (by omega)
    have hpurge : purge (i % m) t = t := by
      rw [purge, ← hslot, Function.update_eq_self]
    rw [purgeLoop, if_neg hother, hpurge, hsize, Nat.mod_add_mod]
    have hend : i + (d + 1) = i + 1 + d := by omega
    rw [hend]
    exact ih (fun x hle hlt => hempty x (by omega) (by omega)) (by omega) (by omega)

/-- Numbers that are missing are given up. -/
theorem Rep.skip (h : Rep m r t frames w) (hm : RingSize m) {d : ℕ}
    (hgap : ∀ n, w.next ≤ n → n < w.next + d → w.held n = none) :
    Rep m r { t with head_seq_num := (t.head_seq_num + d) % 4096 } frames (pops d w) := by
  have htwo := hm.two_le
  induction d generalizing t w with
  | zero =>
    have hhead : (t.head_seq_num + 0) % 4096 = t.head_seq_num := by
      rw [h.head, Nat.add_zero, Nat.mod_mod]
    rw [hhead]
    exact h
  | succ d ih =>
    have hslot := h.slot w.next (Nat.le_refl _) (by omega)
    rw [hgap w.next (Nat.le_refl _) (by omega)] at hslot
    have hpop := h.pop hm
    rw [release_none hslot] at hpop
    have hrep := ih hpop (fun n hle hlt => by
      rw [pop_next] at hle hlt
      rw [held_pop (by omega)]
      exact hgap n (by omega) (by omega))
    have hhead : (ieee80211_sn_inc t.head_seq_num + d) % 4096 =
        (t.head_seq_num + (d + 1)) % 4096 := by
      unfold ieee80211_sn_inc ieee80211_sn_add
      omega
    rw [← hhead]
    exact hrep

/-- A frame is released before its turn, and the numbers before it are given up. -/
theorem Rep.release_at (h : Rep m r t frames w) (hm : RingSize m) {a : Item}
    (ha : w.held n = some a) (hgap : ∀ x, w.next ≤ x → x < n → w.held x = none) :
    let x := ieee80211_release_reorder_frame (n % m) t frames
    Rep m r { x.1 with head_seq_num := (x.1.head_seq_num + (n - w.next)) % 4096 } x.2
      (pops (n + 1 - w.next) w) := by
  obtain ⟨hle, hlt⟩ := h.sound.room n (Option.isSome_iff_exists.mpr ⟨a, ha⟩)
  have hslot := h.slot n hle hlt
  rw [ha] at hslot
  have hplain := h.plain n a ha
  have hskip := h.skip hm (d := n - w.next) (fun x hle hlt => hgap x hle (by omega))
  have hnext : (pops (n - w.next) w).next = n := by
    rw [pops_next]
    omega
  have hpop := hskip.pop hm
  rw [hnext] at hpop
  have hcount : n + 1 - w.next = n - w.next + 1 := by omega
  have hhead : (ieee80211_sn_inc t.head_seq_num + (n - w.next)) % 4096 =
      ieee80211_sn_inc ((t.head_seq_num + (n - w.next)) % 4096) := by
    unfold ieee80211_sn_inc ieee80211_sn_add
    omega
  rw [hcount, pops_add]
  simp only
  rw [release_some hslot hplain]
  rw [release_some (t := { t with head_seq_num := (t.head_seq_num + (n - w.next)) % 4096 }) hslot
    hplain, ← hhead] at hpop
  exact hpop

end Loops

section Releases

variable {m n k : ℕ} {r : Bool} {t t' : TidRx} {frames : List Frame} {w w' : Window Item}
  {timeout jiffies : BitVec 64} {skb : Frame}

/-- The time for the frames before this one is over. -/
def late (timeout jiffies : BitVec 64) (a : Item) : Bool := time_after jiffies (a.2 + timeout)

/-- The ring is searched from the slot behind the head on, once around. -/
theorem Rep.expire_loop (h : Rep m r t frames w) (hm : RingSize m) (timeout jiffies : BitVec 64)
    {i : ℕ} (hi : i ≤ w.next) (hnext : w.next ≤ n) (hfirst : i < n) (hn : n + k = i + m)
    (hgap : ∀ x, w.next ≤ x → x < n → w.held x = none)
    (hroom : ∀ x, (w.held x).isSome = true → x < i + m) :
    ∃ t' frames' j,
      expireLoop timeout jiffies (i % m) (k + 1) (n % m) (n - w.next) t frames =
        some (t', frames', j) ∧
      Rep m r t' frames' (expire (late timeout jiffies) k n w) := by
  induction k generalizing n t frames w with
  | zero =>
    refine ⟨t, frames, none, ?_, h⟩
    have hend : n = i + m := by omega
    rw [expireLoop, if_pos (by rw [hend, Nat.add_mod_right])]
  | succ k ih =>
    have hother : n % m ≠ i % m := by
      intro hsame
      have heq := mod_inj i hsame (by omega) (by omega) (Nat.le_refl _) (by omega)
      omega
    rw [expireLoop, if_neg hother, h.ready hnext (by omega), expire]
    cases ha : w.held n with
    | none =>
      rw [if_pos (by rfl), h.size, Nat.mod_add_mod]
      have hskipped : n - w.next + 1 = n + 1 - w.next := by omega
      rw [hskipped]
      refine ih h hi (by omega) (by omega) (by omega) (fun x hle hlt => ?_) hroom
      by_cases hx : x = n
      · rw [hx, ha]
      · exact hgap x hle (by omega)
    | some a =>
      rw [if_neg (by simp), h.time n a ha]
      by_cases hstop : n ≠ w.next ∧ late timeout jiffies a = false
      · rw [if_pos ⟨by omega, hstop.2⟩]
        simp only
        rw [if_pos hstop]
        exact ⟨t, frames, some (n % m), rfl, h⟩
      · have hgoes : ¬(n - w.next ≠ 0 ∧ time_after jiffies (a.2 + timeout) = false) :=
          fun hcode => hstop ⟨by omega, hcode.2⟩
        -- the slots up to this one are empty: their frames have gone out, or never came
        have hpurge : purgeLoop (n % m) t.buf_size ((i % m + 1) % t.buf_size) t = some t := by
          have hn' : n = i + 1 + (n - (i + 1)) := by omega
          rw [h.size, Nat.mod_add_mod]
          conv_lhs => rw [hn']
          refine purge_loop h.size (fun x hle hlt => ?_) (by omega) (by omega)
          by_cases hx : w.next ≤ x
          · rw [h.slot x hx (by omega), hgap x hx (by omega)]
            rfl
          · have hnone : w.held (x + m) = none := by
              by_contra hheld
              have hlast := hroom (x + m) (Option.isSome_iff_ne_none.mpr hheld)
              omega
            have hslot := h.slot (x + m) (by omega) (by omega)
            rw [hnone, Nat.add_mod_right] at hslot
            exact hslot
        rw [if_neg hgoes, hpurge]
        simp only
        rw [if_neg hstop]
        have hrep := h.release_at hm ha hgap
        have hnext' : (pops (n + 1 - w.next) w).next = n + 1 := by
          rw [pops_next]
          omega
        obtain ⟨t', frames', j, hrun, hrep'⟩ :=
          ih (n := n + 1) hrep (by omega) (by omega) (by omega) (by omega)
            (fun x hle hlt => absurd hle (by omega)) (fun x hx => by
              obtain ⟨b, hb⟩ := Option.isSome_iff_exists.mp hx
              exact hroom x (Option.isSome_iff_exists.mpr ⟨b, held_of_pops hb⟩))
        refine ⟨t', frames', j, ?_, hrep'⟩
        rw [hnext', Nat.sub_self] at hrun
        rw [h.size, Nat.mod_add_mod]
        exact hrun

/-- The search for the first frame ends when there is one. -/
theorem Rep.find_loop (h : Rep m r t frames w) (hle : w.next ≤ n) (hk : w.next + m ≤ n + k)
    (hgap : ∀ x, w.next ≤ x → x < n → w.held x = none)
    (hheld : ∃ x, (w.held x).isSome = true) :
    ∃ j, findLoop t (w.next % m) k (n % m) = some j := by
  have hlt : n < w.next + m := by
    obtain ⟨x, hx⟩ := hheld
    obtain ⟨hxle, hxlt⟩ := h.sound.room x hx
    by_contra hend
    rw [hgap x hxle (by omega)] at hx
    cases hx
  induction k generalizing n with
  | zero => omega
  | succ k ih =>
    unfold findLoop
    split
    · exact ⟨_, rfl⟩
    · rw [h.ready hle hlt]
      cases ha : w.held n with
      | some a => exact ⟨_, if_pos rfl⟩
      | none =>
        rw [if_neg (by simp), h.size, Nat.mod_add_mod]
        have hgap' : ∀ x, w.next ≤ x → x < n + 1 → w.held x = none := by
          intro x hxle hxlt
          by_cases hx : x = n
          · rw [hx, ha]
          · exact hgap x hxle (by omega)
        refine ih (by omega) (by omega) hgap' ?_
        obtain ⟨x, hx⟩ := hheld
        obtain ⟨hxle, hxlt⟩ := h.sound.room x hx
        by_contra hend
        rw [hgap' x hxle (by omega)] at hx
        cases hx

/-- Unless the session counts as removed, a timer is set as long as frames wait. -/
def Armed (r : Bool) (t : TidRx) : Prop :=
  r = false → t.stored_mpdu_num ≠ 0 → t.reorder_timer.isSome = true

theorem Rep.set (h : Rep m r t frames w) (timeout : BitVec 64) (j : ℕ) :
    Rep m r (setTimer timeout j t) frames w ∧ Armed r (setTimer timeout j t) := by
  have hremoved := h.fixed.2
  unfold setTimer
  cases r with
  | true =>
    rw [if_pos hremoved]
    exact ⟨h, fun hlive => by cases hlive⟩
  | false =>
    rw [if_neg (by simp [hremoved])]
    exact ⟨h.set_timer (fun hdead => by cases hdead), fun _ _ => rfl⟩

theorem Rep.reset (h : Rep m r t frames w) (hm : RingSize m) (timeout : BitVec 64) :
    ∃ t', resetTimer timeout t = some t' ∧ Rep m r t' frames w ∧ Armed r t' := by
  have htwo := hm.two_le
  unfold resetTimer
  by_cases hstored : t.stored_mpdu_num ≠ 0
  · obtain ⟨j, hj⟩ := h.find_loop (Nat.le_refl _) (Nat.le_refl _)
      (fun x hle hlt => absurd hle (Nat.not_le.mpr hlt)) (h.stored_iff.mp hstored)
    rw [if_pos hstored]
    simp only
    rw [h.index hm, h.size, hj]
    exact ⟨_, rfl, h.set timeout j⟩
  · rw [if_neg hstored]
    exact ⟨_, rfl, h.set_timer (fun _ => rfl), fun _ hwaits => absurd hwaits hstored⟩

/-- What can go out goes out, and the timer is set for what stays. -/
theorem Rep.release (h : Rep m r t frames w) (hm : RingSize m) (timeout jiffies : BitVec 64) :
    ∃ t' frames', ieee80211_sta_reorder_release timeout jiffies t frames = some (t', frames') ∧
      Rep m r t' frames' (ReorderWindow.release m (late timeout jiffies) w) ∧ Armed r t' := by
  have htwo := hm.two_le
  have hready := h.ready (Nat.le_refl w.next) (by omega)
  unfold ieee80211_sta_reorder_release
  simp only
  rw [h.index hm, hready]
  cases hheld : (w.held w.next).isSome with
  | true =>
    have hspec : ReorderWindow.release m (late timeout jiffies) w = settle m w := by
      rw [ReorderWindow.release, hheld, if_pos rfl]
    obtain ⟨t₁, frames₁, hrun, hrep⟩ := h.ready_loop hm (fun n hn => (h.sound.room n hn).2)
    obtain ⟨t₂, hreset, hrep₂, harmed⟩ := hrep.reset hm timeout
    rw [if_neg (by simp), h.size, hrun, hspec]
    simp only
    rw [hreset]
    exact ⟨t₂, frames₁, rfl, hrep₂, harmed⟩
  | false =>
    by_cases hstored : t.stored_mpdu_num ≠ 0
    · have hspec : ReorderWindow.release m (late timeout jiffies) w =
          expire (late timeout jiffies) (m - 1) (w.next + 1) w := by
        rw [ReorderWindow.release, hheld, if_neg (by simp)]
      have hgap : ∀ x, w.next ≤ x → x < w.next + 1 → w.held x = none := by
        intro x hle hlt
        obtain rfl : x = w.next := by omega
        simpa using hheld
      obtain ⟨t₁, frames₁, j, hrun, hrep⟩ := h.expire_loop (n := w.next + 1) hm timeout jiffies
        (Nat.le_refl _) (by omega) (by omega)
        (show w.next + 1 + (m - 1) = w.next + m by omega) hgap (fun x hx => (h.sound.room x hx).2)
      have hfuel : m - 1 + 1 = m := by omega
      rw [hfuel, Nat.add_sub_cancel_left] at hrun
      rw [if_pos ⟨rfl, hstored⟩, h.size, Nat.mod_add_mod, hrun, hspec]
      cases j with
      | some j => exact ⟨_, frames₁, rfl, hrep.set timeout j⟩
      | none =>
        obtain ⟨t₂, hreset, hrep₂, harmed⟩ := hrep.reset hm timeout
        simp only
        rw [hreset]
        exact ⟨t₂, frames₁, rfl, hrep₂, harmed⟩
    · have hnone : ∀ n, w.held n = none := by
        intro n
        by_contra hn
        exact hstored (h.stored_iff.mpr ⟨n, Option.isSome_iff_ne_none.mpr hn⟩)
      obtain ⟨t₂, hreset, hrep₂, harmed⟩ := h.reset hm timeout
      rw [if_neg (fun hboth => hstored hboth.2), readyLoop, hready, hheld, if_neg (by simp),
        release_empty hnone]
      simp only
      rw [hreset]
      exact ⟨t₂, frames, rfl, hrep₂, harmed⟩

end Releases

section Arrivals

variable {m n : ℕ} {r : Bool} {t t' : TidRx} {frames : List Frame} {w w' : Window Item}
  {timeout jiffies : BitVec 64} {skb : Frame}

/-- A frame is stored in a slot that has been free. -/
theorem Rep.put (h : Rep m r t frames w) (hle : w.next ≤ n) (hlt : n < w.next + m)
    (hnew : w.held n = none) (hplain : skb.amsdu_more = false) (jiffies : BitVec 64) :
    Rep m r { t with
        reorder_buf := Function.update t.reorder_buf (n % m) (t.reorder_buf (n % m) ++ [skb])
        reorder_time := Function.update t.reorder_time (n % m) jiffies
        stored_mpdu_num := t.stored_mpdu_num + 1 }
      frames (put n (skb, jiffies) w) := by
  have hself : (ReorderWindow.put n (skb, jiffies) w).held n = some (skb, jiffies) :=
    Function.update_self ..
  have hkeep : ∀ x, x ≠ n → (ReorderWindow.put n (skb, jiffies) w).held x = w.held x :=
    fun x hx => Function.update_of_ne hx ..
  have hplace : ∀ x, x ≠ n → w.next ≤ x → x < w.next + m → x % m ≠ n % m :=
    fun x hx hxle hxlt hsame => hx (mod_inj w.next hsame hxle hxlt hle hlt)
  refine ⟨h.size, h.head, fun x hxle hxlt => ?_, fun x a ha => ?_, fun x a ha => ?_, ?_, h.frames,
    h.fixed, h.dead, h.sound.put hle hlt hnew (skb, jiffies)⟩
  · by_cases hx : x = n
    · have hslot := h.slot n hle hlt
      rw [hnew] at hslot
      rw [hx, hself]
      simp only
      rw [Function.update_self, hslot]
      rfl
    · rw [hkeep x hx]
      simp only
      rw [Function.update_of_ne (hplace x hx hxle hxlt)]
      exact h.slot x hxle hxlt
  · by_cases hx : x = n
    · rw [hx, hself] at ha
      obtain rfl := Option.some.inj ha
      rw [hx]
      exact Function.update_self ..
    · rw [hkeep x hx] at ha
      obtain ⟨hxle, hxlt⟩ := h.sound.room x (Option.isSome_iff_exists.mpr ⟨a, ha⟩)
      simp only
      rw [Function.update_of_ne (hplace x hx hxle hxlt)]
      exact h.time x a ha
  · by_cases hx : x = n
    · rw [hx, hself] at ha
      obtain rfl := Option.some.inj ha
      exact hplain
    · rw [hkeep x hx] at ha
      exact h.plain x a ha
  · show t.stored_mpdu_num + 1 = ((w.taken ++ [(n, (skb, jiffies))]).length : ℤ) - w.out.length
    rw [h.stored, List.length_append, List.length_singleton]
    omega

/-- A frame that comes in its turn goes straight through when nothing is stored. -/
theorem Rep.direct (h : Rep m r t frames w) (hm : RingSize m) (hempty : ∀ n, w.held n = none)
    (a : Item) :
    Rep m r { t with head_seq_num := ieee80211_sn_inc t.head_seq_num } (frames ++ [a.1])
      (ReorderWindow.pop (ReorderWindow.put w.next a w)) := by
  have htwo := hm.two_le
  have hskip := h.skip hm (d := 1) (fun n _ _ => hempty n)
  have hheld : (ReorderWindow.pop (ReorderWindow.put w.next a w)).held =
      (ReorderWindow.pop w).held := Function.update_idem ..
  have hself : (ReorderWindow.put w.next a w).held w.next = some a := Function.update_self ..
  have hout : (ReorderWindow.pop (ReorderWindow.put w.next a w)).out = w.out ++ [(w.next, a)] := by
    show w.out ++ (((ReorderWindow.put w.next a w).held w.next).map _).toList = _
    rw [hself]
    rfl
  have hsound := (h.sound.put (Nat.le_refl _) (by omega) (hempty w.next) a).pop
  refine ⟨h.size, hskip.head, fun n hle hlt => ?_, fun n b hb => ?_, fun n b hb => ?_, ?_, ?_,
    h.fixed, h.dead, hsound⟩
  · rw [hheld]
    exact hskip.slot n hle hlt
  · rw [hheld] at hb
    exact hskip.time n b hb
  · rw [hheld] at hb
    exact hskip.plain n b hb
  · rw [hout]
    show t.stored_mpdu_num = ((w.taken ++ [(w.next, a)]).length : ℤ) - _
    rw [h.stored, List.length_append, List.length_append, List.length_singleton]
    omega
  · rw [hout, h.frames, List.map_append]
    rfl

theorem mpdu_seq_num_lt (skb : Frame) : skb.mpdu_seq_num < 4096 := by
  unfold Frame.mpdu_seq_num
  rw [BitVec.toNat_ushiftRight, Nat.shiftRight_eq_div_pow]
  have hlt := (skb.seq_ctrl &&& 0xfff0#16).isLt
  omega

/-- What a window does with a frame: a number that is too far ahead belongs to the past. -/
def takeFrame (m : ℕ) (timeout jiffies : BitVec 64) (skb : Frame) (w : Window Item) : Window Item :=
  if w.next + 2048 < number w.next skb.mpdu_seq_num then w
  else receive m (late timeout jiffies) (number w.next skb.mpdu_seq_num) (skb, jiffies) w

/-- The window moves for a frame behind its end. -/
theorem Rep.make_room (h : Rep m r t frames w) (hm : RingSize m) {sn : ℕ} (hsn : sn < 4096)
    (hpast : number w.next sn ≤ w.next + 2048) :
    ∃ t' frames',
      makeRoom sn t frames = some (t', frames') ∧
      Rep m r t' frames' (pops (number w.next sn + 1 - m - w.next) w) ∧
      t'.reorder_timer = t.reorder_timer := by
  have htwo := hm.two_le
  unfold makeRoom
  rw [h.head, h.size, sn_less_end hsn hm hpast]
  by_cases hin : number w.next sn < w.next + m
  · have hzero : number w.next sn + 1 - m - w.next = 0 := by omega
    rw [if_neg (by simp [hin]), hzero]
    exact ⟨t, frames, rfl, h, rfl⟩
  · have htarget : number w.next sn + 1 - m = w.next + (number w.next sn + 1 - m - w.next) := by
      omega
    rw [if_pos (by simp [hin]), sn_inc_sub hm (show w.next + m ≤ number w.next sn by omega),
      htarget, Nat.add_sub_cancel_left]
    exact h.release_loop hm (by omega) (by omega)

/-- Frames have gone out, and none has come. -/
theorem Rep.armed {frames' : List Frame} (h : Rep m r t frames w) (h' : Rep m r t' frames' w')
    (harmed : Armed r t) (hheld : ∀ n a, w'.held n = some a → w.held n = some a)
    (htimer : t'.reorder_timer = t.reorder_timer) : Armed r t' := by
  intro hlive hwaits
  obtain ⟨n, hn⟩ := h'.stored_iff.mp hwaits
  obtain ⟨a, ha⟩ := Option.isSome_iff_exists.mp hn
  rw [htimer]
  exact harmed hlive (h.stored_iff.mpr ⟨n, Option.isSome_iff_exists.mpr ⟨a, hheld n a ha⟩⟩)

/-- A frame in the range of the ring is stored, and what can go out goes out. -/
theorem Rep.place (h : Rep m r t frames w) (hm : RingSize m) (harmed : Armed r t)
    (hplain : skb.amsdu_more = false) (hn : n % 4096 = skb.mpdu_seq_num) (hle : w.next ≤ n)
    (hlt : n < w.next + m) (timeout jiffies : BitVec 64) :
    ∃ t' frames' consumed,
      placeFrame timeout jiffies skb t frames = some (t', frames', consumed) ∧
      Rep m r t' (if consumed then frames' else frames' ++ [skb])
        (if (w.held n).isSome then w
          else ReorderWindow.release m (late timeout jiffies)
            (ReorderWindow.put n (skb, jiffies) w)) ∧
      Armed r t' := by
  have htwo := hm.two_le
  have hsize := hm.le
  have hindex : skb.mpdu_seq_num % t.buf_size = n % m := by
    rw [h.size, ← hn, Nat.mod_mod_of_dvd _ hm.dvd]
  unfold placeFrame
  simp only
  rw [hindex, h.ready hle hlt, hplain]
  cases hheld : (w.held n).isSome with
  | true => exact ⟨t, frames, true, rfl, h, harmed⟩
  | false =>
    have hnew : w.held n = none := by simpa using hheld
    simp only [Bool.false_eq_true, if_false]
    by_cases hdirect : skb.mpdu_seq_num = t.head_seq_num ∧ t.stored_mpdu_num = 0
    · have hfirst : n = w.next := by
        have hhead := hdirect.1
        rw [h.head, ← hn] at hhead
        omega
      have hempty : ∀ x, w.held x = none := by
        intro x
        by_contra hx
        exact h.stored_iff.mpr ⟨x, Option.isSome_iff_ne_none.mpr hx⟩ hdirect.2
      rw [if_pos hdirect, hfirst, release_put hempty (by omega)]
      exact ⟨_, frames, false, rfl, h.direct hm hempty (skb, jiffies),
        fun _ hwaits => absurd hdirect.2 hwaits⟩
    · obtain ⟨t', frames', hrun, hrep, harmed'⟩ :=
        (h.put hle hlt hnew hplain jiffies).release hm timeout jiffies
      rw [if_neg hdirect, hrun]
      exact ⟨t', frames', true, rfl, hrep, harmed'⟩

/-- The ring takes a frame as the window does. -/
theorem Rep.manage (h : Rep m r t frames w) (hm : RingSize m) (harmed : Armed r t)
    (hplain : skb.amsdu_more = false) (timeout jiffies : BitVec 64) :
    ∃ t' frames' consumed,
      ieee80211_sta_manage_reorder_buf timeout jiffies skb t frames =
        some (t', frames', consumed) ∧
      Rep m r t' (if consumed then frames' else frames' ++ [skb])
        (takeFrame m timeout jiffies skb w) ∧ Armed r t' := by
  have htwo := hm.two_le
  have hsn := mpdu_seq_num_lt skb
  have hmod := number_mod w.next hsn
  have hfrom := le_number w.next skb.mpdu_seq_num
  have hless : ieee80211_sn_less skb.mpdu_seq_num t.head_seq_num =
      decide (w.next + 2048 < number w.next skb.mpdu_seq_num) := by
    rw [h.head, sn_less_next w.next hsn]
  unfold ieee80211_sta_manage_reorder_buf takeFrame
  simp only [h.fixed.1, Bool.false_eq_true, if_false]
  rw [hless]
  by_cases hpast : w.next + 2048 < number w.next skb.mpdu_seq_num
  · rw [if_pos (decide_eq_true hpast), if_pos hpast]
    exact ⟨t, frames, true, rfl, h, harmed⟩
  · obtain ⟨t₁, frames₁, hrun, h₁, htimer⟩ := h.make_room hm hsn (Nat.not_lt.mp hpast)
    have harmed₁ := h.armed h₁ harmed (fun n a ha => held_of_pops ha) htimer
    have hnext := pops_next (number w.next skb.mpdu_seq_num + 1 - m - w.next) w
    rw [if_neg (by simp [hpast]), if_neg hpast, hrun, Option.bind_some]
    exact h₁.place hm harmed₁ hplain hmod (by omega) (by omega) timeout jiffies

end Arrivals

section Runs

variable {m n : ℕ} {r : Bool} {rx rx₀ : Session} {w : Window Item} {timeout : BitVec 64}

/-- The ring of a session holds the frames of a window, and its timer is set if there are any. -/
structure Tracks (m : ℕ) (r : Bool) (rx : Session) (w : Window Item) : Prop where
  rep : Rep m r rx.tid_rx rx.frames w
  armed : Armed r rx.tid_rx

/-- The frame is not followed by another one of the same number. -/
def Event.Plain : Event → Prop
  | .frame skb _ => skb.amsdu_more = false
  | .bar _ => True
  | .timer _ => True

/-- What the window does with an event of the session. -/
def takeEvent (m : ℕ) (r : Bool) (timeout : BitVec 64) (w : Window Item) : Event → Window Item
  | .frame skb jiffies => if skb.fragment then w else takeFrame m timeout jiffies skb w
  | .bar start_seq_num =>
      let n := number w.next (start_seq_num >>> 4).toNat
      if n < w.next + 2048 then pops (n - w.next) w else w
  | .timer jiffies => if r then w else ReorderWindow.release m (late timeout jiffies) w

theorem Rep.bar {t : TidRx} {frames : List Frame} (h : Rep m r t frames w) (hm : RingSize m)
    (start_seq_num : BitVec 16) :
    ∃ t' frames',
      ieee80211_release_reorder_frames (start_seq_num >>> 4).toNat t frames =
        some (t', frames') ∧
      Rep m r t' frames' (takeEvent m r timeout w (.bar start_seq_num)) ∧
      t'.reorder_timer = t.reorder_timer := by
  have hlt : (start_seq_num >>> 4).toNat < 4096 := by
    rw [BitVec.toNat_ushiftRight, Nat.shiftRight_eq_div_pow]
    have hlt := start_seq_num.isLt
    omega
  have hmod := number_mod w.next hlt
  have hfrom := le_number w.next (start_seq_num >>> 4).toNat
  unfold takeEvent ieee80211_release_reorder_frames
  simp only
  by_cases hnear : number w.next (start_seq_num >>> 4).toNat < w.next + 2048
  · rw [if_pos hnear]
    obtain ⟨t', frames', hrun, hrep⟩ := h.release_loop hm
      (show number w.next (start_seq_num >>> 4).toNat - w.next < 2048 by omega)
      (show _ < 4096 by omega)
    rw [Nat.add_sub_cancel' hfrom, hmod] at hrun
    exact ⟨t', frames', hrun, hrep⟩
  · rw [if_neg hnear]
    refine ⟨t, frames, ?_, h, rfl⟩
    have hfar : ¬decide (w.next < number w.next (start_seq_num >>> 4).toNat ∧
        number w.next (start_seq_num >>> 4).toNat < w.next + 2048) = true := by
      rw [decide_eq_true_iff]
      exact fun hboth => hnear hboth.2
    rw [releaseLoop, h.head, next_sn_less, if_neg hfar]

theorem held_takeEvent_bar {start_seq_num : BitVec 16} {a : Item}
    (h : (takeEvent m r timeout w (.bar start_seq_num)).held n = some a) : w.held n = some a := by
  unfold takeEvent at h
  simp only at h
  split at h
  · exact held_of_pops h
  · exact h

/-- The ring goes on as the window does. -/
theorem Tracks.handle (h : Tracks m r rx w) (hm : RingSize m) (timeout : BitVec 64) {e : Event}
    (hplain : e.Plain) :
    ∃ rx', rx.handle timeout e = some rx' ∧ Tracks m r rx' (takeEvent m r timeout w e) := by
  cases e with
  | frame skb jiffies =>
    unfold Session.handle ieee80211_rx_reorder_ampdu takeEvent
    simp only
    split
    · exact ⟨_, rfl, h.rep, h.armed⟩
    · obtain ⟨t, frames, consumed, hrun, hrep, harmed⟩ :=
        h.rep.manage hm h.armed hplain timeout jiffies
      rw [hrun]
      cases consumed with
      | true => exact ⟨_, rfl, hrep, harmed⟩
      | false => exact ⟨_, rfl, hrep, harmed⟩
  | bar start_seq_num =>
    obtain ⟨t, frames, hrun, hrep, htimer⟩ := h.rep.bar hm start_seq_num
    unfold Session.handle ieee80211_rx_h_ctrl
    simp only
    rw [hrun]
    exact ⟨_, rfl, hrep, h.rep.armed hrep h.armed (fun n a ha => held_takeEvent_bar ha) htimer⟩
  | timer jiffies =>
    unfold Session.handle ieee80211_release_reorder_timeout takeEvent
    simp only
    cases r with
    | true =>
      rw [h.rep.dead rfl]
      exact ⟨rx, rfl, h⟩
    | false =>
      simp only [Bool.false_eq_true, if_false]
      cases htimer : rx.tid_rx.reorder_timer with
      | none =>
        have hnone : ∀ n, w.held n = none := by
          intro n
          by_contra hn
          have hset := h.armed rfl (h.rep.stored_iff.mpr ⟨n, Option.isSome_iff_ne_none.mpr hn⟩)
          rw [htimer] at hset
          cases hset
        rw [release_empty hnone]
        exact ⟨rx, rfl, h⟩
      | some time =>
        obtain ⟨t, frames, hrun, hrep, harmed⟩ :=
          (h.rep.set_timer (fun _ => rfl)).release hm timeout jiffies
        simp only
        rw [hrun]
        exact ⟨_, rfl, hrep, harmed⟩

theorem Tracks.run (h : Tracks m r rx w) (hm : RingSize m) (timeout : BitVec 64)
    {events : List Event} (hplain : ∀ e ∈ events, e.Plain) :
    ∃ rx', rx.run timeout events = some rx' ∧
      Tracks m r rx' (events.foldl (takeEvent m r timeout) w) := by
  induction events generalizing rx w with
  | nil => exact ⟨rx, rfl, h⟩
  | cons e events ih =>
    obtain ⟨rx₁, hstep, h₁⟩ := h.handle hm timeout (hplain e (List.mem_cons_self ..))
    obtain ⟨rx₂, hrun, h₂⟩ := ih h₁ (fun e he => hplain e (List.mem_cons_of_mem _ he))
    refine ⟨rx₂, ?_, h₂⟩
    rw [Session.run, hstep, Option.bind_some, hrun]

/-- A frame that the window has put in has been received, with the sequence number of its
place. -/
def Received (events : List Event) (x : ℕ × Item) : Prop :=
  x.2.1.mpdu_seq_num = x.1 % 4096 ∧ .frame x.2.1 x.2.2 ∈ events

theorem taken_takeEvent {e : Event} {x : ℕ × Item} (hx : x ∈ (takeEvent m r timeout w e).taken) :
    x ∈ w.taken ∨ Received [e] x := by
  cases e with
  | frame skb jiffies =>
    unfold takeEvent takeFrame at hx
    simp only at hx
    split at hx
    · exact Or.inl hx
    · split at hx
      · exact Or.inl hx
      · rcases mem_taken_receive hx with hx | rfl
        · exact Or.inl hx
        · exact Or.inr ⟨(number_mod _ (mpdu_seq_num_lt skb)).symm, List.mem_singleton_self _⟩
  | bar start_seq_num =>
    unfold takeEvent at hx
    simp only at hx
    split at hx
    · rw [pops_taken] at hx
      exact Or.inl hx
    · exact Or.inl hx
  | timer jiffies =>
    unfold takeEvent at hx
    simp only at hx
    split at hx
    · exact Or.inl hx
    · rw [release_taken] at hx
      exact Or.inl hx

theorem taken_run {events : List Event} {x : ℕ × Item}
    (hx : x ∈ (events.foldl (takeEvent m r timeout) w).taken) :
    x ∈ w.taken ∨ Received events x := by
  induction events generalizing w with
  | nil => exact Or.inl hx
  | cons e events ih =>
    rcases ih hx with hx | ⟨hnumber, hmem⟩
    · refine (taken_takeEvent hx).imp_right (fun hreceived => ?_)
      obtain ⟨hnumber, hmem⟩ := hreceived
      obtain heq := List.mem_singleton.mp hmem
      exact ⟨hnumber, heq ▸ List.mem_cons_self ..⟩
    · exact Or.inr ⟨hnumber, List.mem_cons_of_mem _ hmem⟩

theorem Tracks.start {cap : Capabilities} {removed : Bool} {start_seq_num capab : BitVec 16}
    (hstart : ieee80211_process_addba_request cap removed start_seq_num capab = some rx₀) :
    Tracks rx₀.tid_rx.buf_size removed rx₀ { next := (start_seq_num >>> 4).toNat } := by
  have hlt : (start_seq_num >>> 4).toNat < 4096 := by
    rw [BitVec.toNat_ushiftRight, Nat.shiftRight_eq_div_pow]
    have hlt := start_seq_num.isLt
    omega
  unfold ieee80211_process_addba_request start_rx_ba_session at hstart
  split at hstart
  · cases hstart
  · split at hstart
    · cases hstart
    · obtain rfl := Option.some.inj hstart
      refine ⟨⟨rfl, (Nat.mod_eq_of_lt hlt).symm, fun n _ _ => rfl, fun n a ha => ?_,
        fun n a ha => ?_, rfl, rfl, ⟨rfl, rfl⟩, fun _ => rfl, Sound.start _ _⟩,
        fun _ hwaits => absurd rfl hwaits⟩
      · cases ha
      · cases ha

/-- In a session whose ring has a size that divides the range of the sequence numbers, the loops
come to their ends, and the ring does what the window does: frames are handed on in the order of
their numbers, each number at most once; each stored frame has been handed on or is at its place
in `reorder_buf`. A timer is set for it then, unless the memory of the session says that it has
been removed. -/
theorem frames_leave_in_order (timeout : BitVec 64) (cap : Capabilities) (removed : Bool)
    (start_seq_num capab : BitVec 16)
    (hstart : ieee80211_process_addba_request cap removed start_seq_num capab = some rx₀)
    (hm : RingSize rx₀.tid_rx.buf_size) (events : List Event) (hplain : ∀ e ∈ events, e.Plain) :
    let w := events.foldl (takeEvent rx₀.tid_rx.buf_size removed timeout)
      { next := (start_seq_num >>> 4).toNat }
    Sound rx₀.tid_rx.buf_size w ∧ (∀ x ∈ w.taken, Received events x) ∧
      ∃ rx, rx₀.run timeout events = some rx ∧ Tracks rx₀.tid_rx.buf_size removed rx w ∧
        rx.frames = w.out.map (fun x => x.2.1) ∧
        (removed = false → (∃ n, (w.held n).isSome = true) →
          rx.tid_rx.reorder_timer.isSome = true) ∧
        (removed = true → rx.tid_rx.reorder_timer = none) := by
  obtain ⟨rx, hrun, h⟩ := (Tracks.start hstart).run hm timeout hplain
  refine ⟨h.rep.sound, fun x hx => ?_, rx, hrun, h, h.rep.frames,
    fun hlive hheld => h.armed hlive (h.rep.stored_iff.mpr hheld), h.rep.dead⟩
  exact (taken_run hx).resolve_left (by simp)

def sampleCapabilities : Capabilities := ⟨true, false, false, 64⟩

/-- A session with room for eight frames. -/
def sampleSession : Session where
  tid_rx := { head_seq_num := 0, ssn := 0, buf_size := 8, auto_seq := false, removed := false }

/-- The second frame arrives before the first one. -/
def sampleEvents : List Event := [.frame ⟨16, false, [20]⟩ 100, .frame ⟨0, false, [10]⟩ 101]

theorem frames_leave_in_order_sample :
    ∃ rx, sampleSession.run 25 sampleEvents = some rx ∧
      rx.frames.map Frame.data = [[10], [20]] := by
  obtain ⟨-, -, rx, hrun, -, hframes, -⟩ := frames_leave_in_order 25 sampleCapabilities false 0
    0x0202#16 (show _ = some sampleSession from rfl) ⟨by decide, by decide, by decide⟩ sampleEvents
    (by simp [sampleEvents, Event.Plain])
  refine ⟨rx, hrun, ?_⟩
  rw [hframes]
  decide

end Runs

end Nxwlan.RxReorder
