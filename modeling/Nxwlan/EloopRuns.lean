import Nxwlan.EloopTimeouts
import Nxwlan.StationLists
import Mathlib.Data.List.Perm.Basic

/-!
Runs of the event loop. The list of timeouts stays in the order of the times, whatever is
registered, cancelled or set anew; a timeout that is due runs after as many rounds as there are
timeouts before it. The list is one of those that the stations are handled with, where any
timeout may run next.
-/
namespace Nxwlan.EloopTimeouts

open OrderedQueues

variable {H D U : Type*} {t : Timeout H D U} {list list' pre post : List (Timeout H D U)}
  {op : Op H D U}

section Order

def Timeout.key (t : Timeout H D U) : ℤ ×ₗ ℤ := t.time.order

theorem insertTimeout_eq (t : Timeout H D U) (list : List (Timeout H D U)) :
    insertTimeout t list = enqueue Timeout.key t list := by
  induction list with
  | nil => rfl
  | cons tmp list ih =>
    rw [insertTimeout, enqueue_cons, ih]
    by_cases hbefore : os_reltime_before t.time tmp.time = true
    · have hlt : t.key < tmp.key := before_iff.mp hbefore
      rw [if_pos hbefore, if_pos hlt]
    · have hlt : ¬t.key < tmp.key := fun hlt => hbefore (before_iff.mpr hlt)
      rw [if_neg hbefore, if_neg hlt]

/-- A timeout that is registered is not due before the time of its registration, and full
seconds of its time have been carried. -/
theorem register_cases (granted : Bool) (now : Reltime) (secs usecs : ℕ) (handler : H)
    (eloop_data : D) (user_data : U) (list : List (Timeout H D U)) :
    (eloop_register_timeout granted now secs usecs handler eloop_data user_data list).1 = list ∨
      ∃ t : Timeout H D U, now.order ≤ t.key ∧ t.time.usec < 1000000 ∧
        (t.handler, t.eloop_data, t.user_data) = (handler, eloop_data, user_data) ∧
        (eloop_register_timeout granted now secs usecs handler eloop_data user_data list).1 =
          enqueue Timeout.key t list := by
  unfold eloop_register_timeout
  split
  · exact Or.inl rfl
  · simp only
    split
    · exact Or.inl rfl
    · rename_i hsec
      refine Or.inr ⟨_, ?_, carry_done _ (now.usec + usecs), ?_, insertTimeout_eq _ list⟩
      · refine le_trans (order_le (not_lt.mp hsec) ?_) (order_carry _ _)
        show now.usec ≤ now.usec + (usecs : ℤ)
        omega
      · rfl

/-- Times that go up, each with less than a second of microseconds. -/
structure Sound (list : List (Timeout H D U)) : Prop where
  ordered : Ordered Timeout.key list
  carried : ∀ t ∈ list, t.time.usec < 1000000

theorem Sound.nil : Sound ([] : List (Timeout H D U)) where
  ordered := List.Pairwise.nil
  carried _ ht := absurd ht List.not_mem_nil

theorem Sound.sublist (h : Sound list) (hsub : list'.Sublist list) : Sound list' where
  ordered := h.ordered.sublist hsub
  carried t ht := h.carried t (hsub.subset ht)

theorem Sound.register (h : Sound list) (granted : Bool) (now : Reltime) (secs usecs : ℕ)
    (handler : H) (eloop_data : D) (user_data : U) :
    Sound (eloop_register_timeout granted now secs usecs handler eloop_data user_data list).1 := by
  rcases register_cases granted now secs usecs handler eloop_data user_data list with
    heq | ⟨t, -, husec, -, heq⟩
  · rwa [heq]
  · rw [heq]
    refine ⟨h.ordered.enqueue t, fun t' ht' => ?_⟩
    rcases mem_enqueue.mp ht' with rfl | ht'
    · exact husec
    · exact h.carried t' ht'

/-- What a round of the loop does with the list. -/
theorem run_timeouts_cases (now : Reltime) (list : List (Timeout H D U)) :
    (eloop_run_timeouts now list = (list, none) ∧
        ∀ t ∈ list.head?, os_reltime_before now t.time = true) ∨
      ∃ t rest, list = t :: rest ∧ os_reltime_before now t.time = false ∧
        eloop_run_timeouts now list = (rest, some t) := by
  cases list with
  | nil => exact Or.inl ⟨rfl, fun t ht => by cases ht⟩
  | cons t rest =>
    by_cases hdue : os_reltime_before now t.time = false
    · exact Or.inr ⟨t, rest, rfl, hdue, if_pos hdue⟩
    · refine Or.inl ⟨if_neg hdue, fun t' ht' => ?_⟩
      obtain rfl : t = t' := by simpa using ht'
      simpa using hdue

variable [DecidableEq H] [DecidableEq D] [DecidableEq U]

theorem setAnew_cases (asks : Reltime → Bool) (granted : Bool) (now : ℕ → Reltime)
    (req_secs req_usecs : ℕ) (handler : H) (eloop_data : D) (user_data : U)
    (list : List (Timeout H D U)) :
    (setAnew asks granted now req_secs req_usecs handler eloop_data user_data list).1 = list ∨
      ∃ k, (setAnew asks granted now req_secs req_usecs handler eloop_data user_data list).1 =
        (eloop_register_timeout granted (now k) req_secs req_usecs handler eloop_data user_data
          (eloop_cancel_timeout handler (some eloop_data) (some user_data) list).1).1 := by
  unfold setAnew
  simp only
  split
  · exact Or.inl rfl
  · exact Or.inr ⟨_, rfl⟩

theorem cancel_one_cases (now : Reltime) (handler : H) (eloop_data : D) (user_data : U)
    (list : List (Timeout H D U)) :
    (eloop_cancel_timeout_one now handler eloop_data user_data list).1 =
      list.eraseP (Timeout.isFor handler (some eloop_data) (some user_data)) := by
  unfold eloop_cancel_timeout_one
  simp only
  split
  · rename_i hnone
    rw [List.eraseP_of_forall_not (List.find?_eq_none.mp hnone)]
  · rfl

theorem Sound.setAnew (h : Sound list) (asks : Reltime → Bool) (granted : Bool)
    (now : ℕ → Reltime) (req_secs req_usecs : ℕ) (handler : H) (eloop_data : D) (user_data : U) :
    Sound (setAnew asks granted now req_secs req_usecs handler eloop_data user_data list).1 := by
  rcases setAnew_cases asks granted now req_secs req_usecs handler eloop_data user_data list with
    heq | ⟨k, heq⟩
  · rwa [heq]
  · rw [heq]
    exact (h.sublist List.filter_sublist).register ..

theorem Sound.step (h : Sound list) (op : Op H D U) : Sound (step list op).1 := by
  cases op with
  | register granted now secs usecs handler eloop_data user_data => exact h.register ..
  | cancel handler eloop_data user_data => exact h.sublist List.filter_sublist
  | cancel_one now handler eloop_data user_data =>
    show Sound (eloop_cancel_timeout_one now handler eloop_data user_data list).1
    rw [cancel_one_cases]
    exact h.sublist List.eraseP_sublist
  | deplete granted now req_secs req_usecs handler eloop_data user_data => exact h.setAnew ..
  | replenish granted now req_secs req_usecs handler eloop_data user_data => exact h.setAnew ..
  | round now =>
    show Sound (eloop_run_timeouts now list).1
    rcases run_timeouts_cases now list with ⟨heq, -⟩ | ⟨t, rest, rfl, -, heq⟩
    · rwa [heq]
    · rw [heq]
      exact h.sublist (List.sublist_cons_self t rest)

theorem Sound.run (h : Sound list) (ops : List (Op H D U)) : Sound (run list ops).1 := by
  induction ops generalizing list with
  | nil => exact h
  | cons op ops ih => exact ih (h.step op)

/-- Whatever has been done, the list is in the order of the times, whose full seconds have been
carried, and a round runs the handler of a timeout that is due and that no other one comes
before. -/
theorem timeouts_run_in_order (ops : List (Op H D U)) (now : Reltime) :
    let list := (run [] ops).1
    list.Pairwise (fun a b => os_reltime_before b.time a.time = false) ∧
      (∀ t ∈ list, t.time.usec < 1000000) ∧
      ∀ t, (step list (.round now)).2 = some t → os_reltime_before now t.time = false ∧
        list = t :: (step list (.round now)).1 ∧
        ∀ t' ∈ list, os_reltime_before t'.time t.time = false := by
  have hsound : Sound (run ([] : List (Timeout H D U)) ops).1 := Sound.nil.run ops
  simp only
  generalize (run ([] : List (Timeout H D U)) ops).1 = list at hsound
  obtain ⟨hordered, hcarried⟩ := hsound
  refine ⟨hordered.imp (fun hle => not_before_iff.mpr hle), hcarried, fun t ht => ?_⟩
  simp only [step] at ht ⊢
  rcases run_timeouts_cases now list with ⟨heq, -⟩ | ⟨t', rest, rfl, hdue, heq⟩
  · rw [heq] at ht
    cases ht
  · rw [heq] at ht ⊢
    obtain rfl := Option.some.inj ht
    refine ⟨hdue, rfl, fun x hx => not_before_iff.mpr ?_⟩
    rcases List.mem_cons.mp hx with rfl | hx
    · exact le_rfl
    · exact (List.pairwise_cons.mp hordered).1 x hx

end Order

section Progress

/-- The clock is not behind a time when the operation reads it. -/
def Op.NotBefore (time : Reltime) : Op H D U → Prop
  | .register _ now _ _ _ _ _ => os_reltime_before now time = false
  | .cancel _ _ _ => True
  | .cancel_one _ _ _ _ => True
  | .deplete _ now _ _ _ _ _ => ∀ k, os_reltime_before (now k) time = false
  | .replenish _ now _ _ _ _ _ => ∀ k, os_reltime_before (now k) time = false
  | .round now => os_reltime_before now time = false

def Op.rounds : Op H D U → ℕ
  | .round _ => 1
  | _ => 0

variable [DecidableEq H] [DecidableEq D] [DecidableEq U]

/-- The timeout stands behind at most `k` others, of which at least `c` are equal to it. -/
def Within (t : Timeout H D U) (k c : ℕ) (list : List (Timeout H D U)) : Prop :=
  ∃ pre post, list = pre ++ t :: post ∧ pre.length ≤ k ∧ c ≤ pre.count t

/-- The operation leaves the timeout in the list: others are meant, or another one comes first,
or there is nothing to be set anew. -/
def Op.Spares (t : Timeout H D U) (list : List (Timeout H D U)) : Op H D U → Prop
  | .register _ _ _ _ _ _ _ => True
  | .cancel handler eloop_data user_data => t.isFor handler eloop_data user_data = false
  | .cancel_one _ handler eloop_data user_data =>
      list.find? (Timeout.isFor handler (some eloop_data) (some user_data)) ≠ some t
  | .deplete granted now req_secs req_usecs handler eloop_data user_data =>
      t.isFor handler (some eloop_data) (some user_data) = false ∨
        (eloop_deplete_timeout granted now req_secs req_usecs handler eloop_data user_data list).2
          = 0
  | .replenish granted now req_secs req_usecs handler eloop_data user_data =>
      t.isFor handler (some eloop_data) (some user_data) = false ∨
        (eloop_replenish_timeout granted now req_secs req_usecs handler eloop_data user_data
          list).2 = 0
  | .round _ => True

instance (t : Timeout H D U) (list : List (Timeout H D U)) :
    (op : Op H D U) → Decidable (op.Spares t list)
  | .register _ _ _ _ _ _ _ => inferInstanceAs (Decidable True)
  | .cancel _ _ _ => inferInstanceAs (Decidable (_ = _))
  | .cancel_one _ _ _ _ => inferInstanceAs (Decidable (_ ≠ _))
  | .deplete _ _ _ _ _ _ _ => inferInstanceAs (Decidable (_ ∨ _))
  | .replenish _ _ _ _ _ _ _ => inferInstanceAs (Decidable (_ ∨ _))
  | .round _ => inferInstanceAs (Decidable True)

/-- Each operation leaves the timeout in the list that it finds. -/
def Spared (t : Timeout H D U) : List (Timeout H D U) → List (Op H D U) → Prop
  | _, [] => True
  | list, op :: ops => op.Spares t list ∧ Spared t (step list op).1 ops

variable {k c : ℕ}

theorem within_register (h : Ordered Timeout.key list) (hwithin : Within t k c list)
    (granted : Bool) {now : Reltime} (hnow : os_reltime_before now t.time = false)
    (secs usecs : ℕ) (handler : H) (eloop_data : D) (user_data : U) :
    Within t k c
      (eloop_register_timeout granted now secs usecs handler eloop_data user_data list).1 := by
  rcases register_cases granted now secs usecs handler eloop_data user_data list with
    heq | ⟨new, hlate, -, -, heq⟩
  · rwa [heq]
  · obtain ⟨pre, post, rfl, hk⟩ := hwithin
    rw [heq, enqueue_behind h ((not_before_iff.mp hnow).trans hlate)]
    exact ⟨pre, _, rfl, hk⟩

theorem within_cancel (hwithin : Within t k c list) {handler : H} {eloop_data : Option D}
    {user_data : Option U} (hspared : t.isFor handler eloop_data user_data = false) :
    Within t k c (eloop_cancel_timeout handler eloop_data user_data list).1 := by
  obtain ⟨pre, post, rfl, hk, hc⟩ := hwithin
  unfold eloop_cancel_timeout
  simp only
  obtain ⟨keep, hkeep⟩ : ∃ keep : Timeout H D U → Bool,
      keep = fun t => !t.isFor handler eloop_data user_data := ⟨_, rfl⟩
  have hkept : keep t = true := by simp only [hkeep, hspared, Bool.not_false]
  rw [← hkeep]
  refine ⟨pre.filter keep, post.filter keep, ?_, (List.length_filter_le _ _).trans hk, ?_⟩
  · rw [List.filter_append, List.filter_cons_of_pos hkept]
  · rwa [List.count_filter hkept]

theorem setAnew_eq_of_zero {asks : Reltime → Bool} {granted : Bool} {now : ℕ → Reltime}
    {req_secs req_usecs : ℕ} {handler : H} {eloop_data : D} {user_data : U}
    (h : (setAnew asks granted now req_secs req_usecs handler eloop_data user_data list).2 = 0) :
    (setAnew asks granted now req_secs req_usecs handler eloop_data user_data list).1 = list := by
  unfold setAnew at h ⊢
  simp only at h ⊢
  split at h
  · rfl
  · cases h

theorem within_setAnew (h : Ordered Timeout.key list) (hwithin : Within t k c list)
    {asks : Reltime → Bool} {granted : Bool} {now : ℕ → Reltime}
    (hnow : ∀ k, os_reltime_before (now k) t.time = false) {req_secs req_usecs : ℕ} {handler : H}
    {eloop_data : D} {user_data : U}
    (hspared : t.isFor handler (some eloop_data) (some user_data) = false ∨
      (setAnew asks granted now req_secs req_usecs handler eloop_data user_data list).2 = 0) :
    Within t k c
      (setAnew asks granted now req_secs req_usecs handler eloop_data user_data list).1 := by
  rcases hspared with hspared | hzero
  · rcases setAnew_cases asks granted now req_secs req_usecs handler eloop_data user_data list with
      heq | ⟨j, heq⟩
    · rwa [heq]
    · rw [heq]
      exact within_register (h.sublist List.filter_sublist) (within_cancel hwithin hspared) granted
        (hnow j) ..
  · rwa [setAnew_eq_of_zero hzero]

theorem within_cancel_one (hwithin : Within t k c list) (now : Reltime) {handler : H}
    {eloop_data : D} {user_data : U}
    (hspared : list.find? (Timeout.isFor handler (some eloop_data) (some user_data)) ≠ some t) :
    Within t k c (eloop_cancel_timeout_one now handler eloop_data user_data list).1 := by
  obtain ⟨pre, post, rfl, hk, hc⟩ := hwithin
  rw [cancel_one_cases]
  rw [List.find?_append] at hspared
  generalize Timeout.isFor handler (some eloop_data) (some user_data) = isFor at hspared ⊢
  cases hfirst : pre.find? isFor with
  | none =>
    have hpre : ∀ x ∈ pre, ¬isFor x = true := List.find?_eq_none.mp hfirst
    rw [hfirst, Option.none_or] at hspared
    have ht : ¬isFor t = true := fun ht => hspared (List.find?_cons_of_pos ht)
    rw [List.eraseP_append_right _ hpre, List.eraseP_cons_of_neg ht]
    exact ⟨pre, _, rfl, hk, hc⟩
  | some first =>
    -- one before it is removed, which differs from it
    rw [hfirst, Option.some_or] at hspared
    have hne : first ≠ t := fun heq => hspared (congrArg some heq)
    obtain ⟨hfor, l, r, rfl, hl⟩ := List.find?_eq_some_iff_append.mp hfirst
    have hmem : first ∈ l ++ first :: r := List.mem_append_right _ (List.mem_cons_self ..)
    have hl : ∀ x ∈ l, ¬isFor x = true := fun x hx => by simpa using hl x hx
    rw [List.eraseP_append_left hfor _ hmem, List.eraseP_append_right _ hl,
      List.eraseP_cons_of_pos hfor]
    rw [List.length_append, List.length_cons] at hk
    rw [List.count_append, List.count_cons_of_ne hne] at hc
    refine ⟨l ++ r, post, rfl, ?_, ?_⟩
    · rw [List.length_append]
      omega
    · rwa [List.count_append]

/-- A step runs the timeout, or takes away one of those before it in a round. -/
theorem step_progress (h : Ordered Timeout.key list) (hwithin : Within t k c list)
    (hnow : op.NotBefore t.time) (hspared : op.Spares t list) :
    ((step list op).2 = some t ∧ c = 0) ∨
      ∃ c', op.rounds ≤ k ∧ Within t (k - op.rounds) c' (step list op).1 ∧
        c ≤ (step list op).2.toList.count t + c' := by
  cases op with
  | register granted now secs usecs handler eloop_data user_data =>
    exact Or.inr ⟨c, Nat.zero_le _, within_register h hwithin granted hnow .., Nat.le_add_left ..⟩
  | cancel handler eloop_data user_data =>
    exact Or.inr ⟨c, Nat.zero_le _, within_cancel hwithin hspared, Nat.le_add_left ..⟩
  | cancel_one now handler eloop_data user_data =>
    exact Or.inr ⟨c, Nat.zero_le _, within_cancel_one hwithin now hspared, Nat.le_add_left ..⟩
  | deplete granted now req_secs req_usecs handler eloop_data user_data =>
    exact Or.inr ⟨c, Nat.zero_le _, within_setAnew h hwithin hnow hspared, Nat.le_add_left ..⟩
  | replenish granted now req_secs req_usecs handler eloop_data user_data =>
    exact Or.inr ⟨c, Nat.zero_le _, within_setAnew h hwithin hnow hspared, Nat.le_add_left ..⟩
  | round now =>
    obtain ⟨pre, post, rfl, hk, hc⟩ := hwithin
    have hdue : t.key ≤ now.order := not_before_iff.mp hnow
    cases pre with
    | nil => exact Or.inl ⟨congrArg Prod.snd (if_pos hnow), Nat.le_zero.mp hc⟩
    | cons first pre =>
      -- the first one comes before the timeout, and is due
      have hfirst : first.key ≤ t.key := h.before first (List.mem_cons_self ..)
      have hrun : step (first :: pre ++ t :: post) (.round now) = (pre ++ t :: post, some first) :=
        if_pos (not_before_iff.mpr (hfirst.trans hdue))
      have hlength : pre.length + 1 ≤ k := hk
      refine Or.inr ⟨pre.count t, (Nat.le_add_left 1 _).trans hlength, ?_, ?_⟩
      · rw [hrun]
        exact ⟨pre, post, rfl, Nat.le_sub_of_add_le hlength, le_rfl⟩
      · rw [hrun, Option.toList_some, ← List.count_append]
        exact hc

theorem within_runs (h : Sound list) (hwithin : Within t k c list)
    {ops : List (Op H D U)} (hnow : ∀ op ∈ ops, op.NotBefore t.time) (hspared : Spared t list ops)
    (hrounds : k < (ops.map Op.rounds).sum) : c < (run list ops).2.count t := by
  induction ops generalizing list k c with
  | nil => exact absurd hrounds (Nat.not_lt_zero k)
  | cons op ops ih =>
    have hmem : op ∈ op :: ops := List.mem_cons_self ..
    rw [List.map_cons, List.sum_cons] at hrounds
    show c < ((step list op).2.toList ++ (run (step list op).1 ops).2).count t
    rw [List.count_append]
    rcases step_progress h.ordered hwithin (hnow op hmem) hspared.1 with
      ⟨hran, rfl⟩ | ⟨c', hle, hrest, hcount⟩
    · rw [hran, Option.toList_some, List.count_singleton_self]
      omega
    · have hlater := ih (h.step op) hrest
        (fun op hop => hnow op (List.mem_cons_of_mem _ hop)) hspared.2 (by omega)
      omega

/-- A timeout whose time has come runs in one of the next rounds, as many as there are timeouts
before it and one more, whatever is registered in the meantime, unless it is cancelled or set
anew. Those before it that are equal to it run, too, each in a round of its own. -/
theorem due_timeout_runs (before after : List (Op H D U))
    (hsplit : (run [] before).1 = pre ++ t :: post) (hnow : ∀ op ∈ after, op.NotBefore t.time)
    (hspared : Spared t (run [] before).1 after)
    (hrounds : pre.length < (after.map Op.rounds).sum) :
    pre.count t < (run (run [] before).1 after).2.count t :=
  within_runs (Sound.nil.run before) ⟨pre, post, hsplit, le_rfl, le_rfl⟩ hnow hspared
    hrounds

/-- Two timeouts, and calls for the second one that leave it: it is not prolonged, and of the
timeouts with its handler another one comes first. -/
def sampleBefore : List (Op String ℕ ℕ) :=
  [.register true ⟨5, 0⟩ 2 700000 "second" 0 0, .register true ⟨5, 400000⟩ 1 0 "second" 0 0]

def sampleAfter : List (Op String ℕ ℕ) :=
  [.cancel_one ⟨8, 0⟩ "second" 0 0, .register true ⟨8, 0⟩ 0 0 "third" 0 0,
    .deplete true (fun _ => ⟨8, 0⟩) 3 0 "second" 0 0, .cancel "third" none (some 1),
    .round ⟨8, 0⟩, .round ⟨8, 0⟩]

theorem due_timeout_runs_sample :
    0 < (run (run [] sampleBefore).1 sampleAfter).2.count
      (⟨⟨7, 700000⟩, "second", 0, 0⟩ : Timeout String ℕ ℕ) := by
  have hsplit : (run [] sampleBefore).1 =
      [⟨⟨6, 400000⟩, "second", 0, 0⟩] ++ ⟨⟨7, 700000⟩, "second", 0, 0⟩ :: [] := by decide
  have hspared : Spared ⟨⟨7, 700000⟩, "second", 0, 0⟩ (run [] sampleBefore).1 sampleAfter := by
    rw [hsplit]
    exact ⟨by decide, by decide, by decide, by decide, trivial, trivial, trivial⟩
  refine due_timeout_runs sampleBefore sampleAfter hsplit ?_ hspared (by decide)
  simp [sampleAfter, Op.NotBefore, os_reltime_before]

end Progress

section Stations

open StationLists (Ptr)

variable {n : ℕ} {s : StationLists.State n}
  {list list' : List (Timeout StationLists.Handler (Fin n) Ptr)}
  {t : Timeout StationLists.Handler (Fin n) Ptr}

/-- A timeout about a station, without its time. -/
def Timeout.untimed (t : Timeout StationLists.Handler (Fin n) Ptr) : StationLists.Timeout n :=
  ⟨t.handler, t.eloop_data, t.user_data⟩

/-- The stations are handled with the timeouts of the list, in any order. -/
def Refines (list : List (Timeout StationLists.Handler (Fin n) Ptr)) (s : StationLists.State n) :
    Prop :=
  (list.map Timeout.untimed).Perm s.timeout

theorem isFor_iff {handler : StationLists.Handler} {hapd : Fin n} {sta : Ptr} :
    t.isFor handler (some hapd) (some sta) = true ↔ t.untimed = ⟨handler, hapd, sta⟩ := by
  simp [Timeout.isFor, Timeout.untimed, and_assoc]

/-- A registration that does not get memory, or that is for a time too far away, is one that
does not get memory. -/
theorem Refines.register (h : Refines list s) (granted : Bool) (now : Reltime) (secs usecs : ℕ)
    (handler : StationLists.Handler) (hapd : Fin n) (sta : Ptr) :
    ∃ memory : Bool, ∀ env : StationLists.Env n, env.memory ⟨handler, hapd, sta⟩ = memory →
      Refines (eloop_register_timeout granted now secs usecs handler hapd sta list).1
        (StationLists.eloop_register_timeout env handler hapd sta s) := by
  rcases register_cases granted now secs usecs handler hapd sta list with heq | ⟨t, -, -, hdata, heq⟩
  · refine ⟨false, fun env henv => ?_⟩
    rw [heq, StationLists.eloop_register_timeout, henv, if_neg (by simp)]
    exact h
  · refine ⟨true, fun env henv => ?_⟩
    have huntimed : t.untimed = ⟨handler, hapd, sta⟩ := by
      simp only [Prod.mk.injEq] at hdata
      rw [Timeout.untimed, hdata.1, hdata.2.1, hdata.2.2]
    rw [heq, StationLists.eloop_register_timeout, henv, if_pos rfl]
    have hqueue : (enqueue Timeout.key t list).Perm (t :: list) := perm_enqueue t list
    have hperm := (hqueue.map Timeout.untimed).trans
      ((List.Perm.cons t.untimed h).trans (List.perm_append_singleton t.untimed s.timeout).symm)
    rwa [huntimed] at hperm

theorem Refines.cancel (h : Refines list s) (handler : StationLists.Handler) (hapd : Fin n)
    (sta : Ptr) :
    Refines (eloop_cancel_timeout handler (some hapd) (some sta) list).1
      (StationLists.eloop_cancel_timeout handler hapd sta s) := by
  have hfilter := h.filter (fun t => decide (t ≠ ⟨handler, hapd, sta⟩))
  rw [List.filter_map] at hfilter
  refine (List.Perm.of_eq (congrArg (List.map Timeout.untimed) ?_)).trans hfilter
  refine List.filter_congr (fun t _ => ?_)
  rw [Bool.eq_iff_iff, Bool.not_eq_true', ← Bool.not_eq_true, isFor_iff]
  simp

/-- The round that `eloop_run` makes is one of those in which any timeout may run. -/
theorem Refines.round (h : Refines list s) {now : Reltime}
    (hrun : eloop_run_timeouts now list = (list', some t)) :
    ∃ i, s.timeout[i]? = some t.untimed ∧
      Refines list' { s with timeout := s.timeout.eraseIdx i } := by
  rcases run_timeouts_cases now list with ⟨heq, -⟩ | ⟨t', rest, rfl, -, heq⟩
  · rw [heq] at hrun
    cases hrun
  · rw [heq] at hrun
    obtain ⟨rfl, ht⟩ := Prod.mk.inj hrun
    obtain rfl := Option.some.inj ht
    have hmem : t'.untimed ∈ s.timeout := h.mem_iff.mp (List.mem_cons_self ..)
    obtain ⟨i, hi, hget⟩ := List.mem_iff_getElem.mp hmem
    refine ⟨i, by rw [List.getElem?_eq_getElem hi, hget], ?_⟩
    have hperm := List.getElem_cons_eraseIdx_perm hi
    rw [hget] at hperm
    exact (h.trans hperm.symm).cons_inv

end Stations

end Nxwlan.EloopTimeouts
