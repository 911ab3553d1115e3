import Nxwlan.StationViews

/-!
The timeouts of hostapd are about stations of their BSS. What a function writes to a station
and which timeouts it sets keeps that; a station that is freed takes its timeouts with it, and a
new one comes with the timer that polls it and removes it.
-/
namespace Nxwlan.StationLists

open HeapLists
open ClientBlacklist (Mac)

section Flags

variable {info : StaInfo} {flag flags : BitVec 32}

theorem has_iff :
    info.has flag = true ↔ ∃ i, ∃ h : i < 32, info.flags[i] = true ∧ flag[i] = true := by
  rw [StaInfo.has, decide_eq_true_iff, Ne, BitVec.eq_of_getElem_eq_iff]
  simp only [BitVec.getElem_and]
  grind

theorem has_set (h : info.has flag = true) : (info.set flags).has flag = true := by
  rw [has_iff] at h ⊢
  obtain ⟨i, hi, hflags, hflag⟩ := h
  exact ⟨i, hi, by simp [StaInfo.set, hflags], hflag⟩

theorem has_set_poll : (info.set WLAN_STA_PENDING_POLL).has WLAN_STA_PENDING_POLL = true :=
  has_iff.mpr ⟨6, by decide, by simp [StaInfo.set, WLAN_STA_PENDING_POLL], by decide⟩

theorem has_of_set (hapart : flags &&& flag = 0) (h : (info.set flags).has flag = true) :
    info.has flag = true := by
  rw [has_iff] at h ⊢
  obtain ⟨i, hi, hflags, hflag⟩ := h
  have hnot : flags[i] = false := by
    have hbit := congrArg (fun v => v[i]) hapart
    simpa [hflag] using hbit
  exact ⟨i, hi, by simpa [StaInfo.set, hnot] using hflags, hflag⟩

theorem has_clear (hapart : flags &&& flag = 0) (h : info.has flag = true) :
    (info.clear flags).has flag = true := by
  rw [has_iff] at h ⊢
  obtain ⟨i, hi, hflags, hflag⟩ := h
  have hnot : flags[i] = false := by
    have hbit := congrArg (fun v => v[i]) hapart
    simpa [hflag] using hbit
  exact ⟨i, hi, by simpa [StaInfo.clear, hnot] using hflags, hflag⟩

theorem has_of_clear (h : (info.clear flags).has flag = true) : info.has flag = true := by
  rw [has_iff] at h ⊢
  obtain ⟨i, hi, hflags, hflag⟩ := h
  have hboth : info.flags[i] = true ∧ flags[i] = false := by
    simpa [StaInfo.clear] using hflags
  exact ⟨i, hi, hboth.1, hflag⟩

end Flags

section Silence

variable {n : ℕ} {s s' s'' : State n} {info info' info'' : StaInfo} {flags : BitVec 32}

/-- How many times the timer of a silent station runs until it is freed. -/
def TimeoutNext.rounds : TimeoutNext → ℕ
  | .STA_NULLFUNC => 3
  | .STA_DISASSOC | .STA_DISASSOC_FROM_CLI => 2
  | .STA_DEAUTH | .STA_REMOVE => 1

/-- If the station has been polled, it has not answered. -/
def StaInfo.Unheard (info : StaInfo) : Prop :=
  info.timeout_next = .STA_DISASSOC → info.has WLAN_STA_ASSOC = true →
    info.has WLAN_STA_PENDING_POLL = true

instance (info : StaInfo) : Decidable info.Unheard := inferInstanceAs (Decidable (_ → _ → _))

/-- As before, with one more time where a poll has been answered. -/
def StaInfo.left (info : StaInfo) : ℕ := if info.Unheard then info.timeout_next.rounds else 4

/-- A silent station does not come further away from its end. -/
structure Closer (info info' : StaInfo) : Prop where
  rounds : info'.timeout_next.rounds ≤ info.timeout_next.rounds
  unheard : info.Unheard → info'.Unheard

theorem rounds_le (next : TimeoutNext) : next.rounds ≤ 3 := by
  unfold TimeoutNext.rounds
  split
  all_goals decide

theorem left_le (info : StaInfo) : info.left ≤ 4 := by
  have hrounds := rounds_le info.timeout_next
  unfold StaInfo.left
  split
  · omega
  · omega

theorem left_of_ne (h : info.timeout_next ≠ .STA_DISASSOC) :
    info.left = info.timeout_next.rounds :=
  if_pos (fun hnext => absurd hnext h)

theorem left_pos (info : StaInfo) : 0 < info.left := by
  unfold StaInfo.left TimeoutNext.rounds
  split
  · split
    all_goals decide
  · decide

theorem rounds_le_left (info : StaInfo) : info.timeout_next.rounds ≤ info.left := by
  have hrounds := rounds_le info.timeout_next
  unfold StaInfo.left
  split
  · exact le_refl _
  · omega

theorem Closer.left (h : Closer info info') : info'.left ≤ info.left := by
  by_cases hunheard : info.Unheard
  · rw [StaInfo.left, StaInfo.left, if_pos hunheard, if_pos (h.unheard hunheard)]
    exact h.rounds
  · rw [StaInfo.left, StaInfo.left, if_neg hunheard]
    exact left_le info'

theorem Closer.refl (info : StaInfo) : Closer info info := ⟨le_refl _, id⟩

theorem Closer.trans (h : Closer info info') (h' : Closer info' info'') : Closer info info'' :=
  ⟨h'.rounds.trans h.rounds, fun hunheard => h'.unheard (h.unheard hunheard)⟩

theorem Closer.of_same (hflags : info'.flags = info.flags)
    (hnext : info'.timeout_next = info.timeout_next) : Closer info info' := by
  refine ⟨le_of_eq (congrArg _ hnext), fun h hdisassoc => ?_⟩
  rw [hnext] at hdisassoc
  rw [StaInfo.has, StaInfo.has, hflags]
  exact h hdisassoc

theorem Closer.set (hassoc : flags &&& WLAN_STA_ASSOC = 0) : Closer info (info.set flags) :=
  ⟨le_refl _, fun h hnext hset => has_set (h hnext (has_of_set hassoc hset))⟩

theorem Closer.clear (hpoll : flags &&& WLAN_STA_PENDING_POLL = 0) :
    Closer info (info.clear flags) :=
  ⟨le_refl _, fun h hnext hclear => has_clear hpoll (h hnext (has_of_clear hclear))⟩

/-- The next time the station is freed. -/
theorem Closer.last {next : TimeoutNext} (hnext : next.rounds = 1) :
    Closer info { info with timeout_next := next } := by
  refine ⟨?_, ?_⟩
  · rw [hnext]
    unfold TimeoutNext.rounds
    split
    all_goals decide
  · rintro - (rfl : next = .STA_DISASSOC)
    cases hnext

/-- All stations are still there, and none of them is further away from its end. -/
def Calm (s s' : State n) : Prop :=
  ∀ p info, s.load p = some info → ∃ info', s'.load p = some info' ∧ Closer info info'

theorem Calm.of_load (h : ∀ p, s'.load p = s.load p) : Calm s s' :=
  fun p info hload => ⟨info, (h p).trans hload, Closer.refl info⟩

theorem Calm.trans (h : Calm s s') (h' : Calm s' s'') : Calm s s'' := by
  intro p info hload
  obtain ⟨info', hload', hcloser⟩ := h p info hload
  obtain ⟨info'', hload'', hcloser'⟩ := h' p info' hload'
  exact ⟨info'', hload'', hcloser.trans hcloser'⟩

theorem Calm.store {p : Ptr} {f : StaInfo → StaInfo} (h : s.store p f = some s')
    (hf : ∀ info, Closer info (f info)) : Calm s s' := by
  intro q info hload
  rw [load_store h]
  split
  · rename_i hq
    refine ⟨f info, ?_, hf info⟩
    rw [← hq, hload, Option.map_some]
  · exact ⟨info, hload, Closer.refl info⟩

theorem Calm.relinked (h : Relinked s s') : Calm s s' := by
  intro p info hload
  have hown := h.own p
  rw [hload, Option.map_some] at hown
  obtain ⟨info', hload', hown'⟩ := Option.map_eq_some_iff.mp hown
  exact ⟨info', hload', Closer.of_same (congrArg (fun own => own.2.2.1) hown')
    (congrArg (fun own => own.2.2.2) hown')⟩

/-- Stations may be gone; none of the others is further away from its end. -/
structure Fades (s s' : State n) : Prop where
  closer : ∀ p info, s.load p = some info →
    s'.load p = none ∨ ∃ info', s'.load p = some info' ∧ Closer info info'
  gone : ∀ p, s.load p = none → s'.load p = none

theorem Fades.refl (s : State n) : Fades s s :=
  ⟨fun _ info hload => Or.inr ⟨info, hload, Closer.refl info⟩, fun _ h => h⟩

theorem Fades.trans (h : Fades s s') (h' : Fades s' s'') : Fades s s'' := by
  refine ⟨fun p info hload => ?_, fun p hnone => h'.gone p (h.gone p hnone)⟩
  rcases h.closer p info hload with hnone | ⟨info', hload', hcloser⟩
  · exact Or.inl (h'.gone p hnone)
  · rcases h'.closer p info' hload' with hnone | ⟨info'', hload'', hcloser'⟩
    · exact Or.inl hnone
    · exact Or.inr ⟨info'', hload'', hcloser.trans hcloser'⟩

end Silence

section Timeouts

variable {n : ℕ} {s s' : State n} {lists : Fin n → List Ptr} {full : Bool} {g : List (Timeout n)}
  {b : Fin n} {p : Ptr} {env : Env n} {handler : Handler}

/-- The timeout that polls a station and removes it. -/
def timer (b : Fin n) (p : Ptr) : Timeout n := ⟨.ap_handle_timer, b, p⟩

/-- The state of the access point, with the timeouts `g` that have been taken out and are being
handled. Timeouts are about stations of their BSS; a station has one timer at most, and one
exactly where all timeouts got their memory; its accounting is on while it has a timeout
for it. -/
structure Good (full : Bool) (g : List (Timeout n)) (s : State n) (lists : Fin n → List Ptr) : Prop
    extends View s lists where
  timeouts : ∀ t ∈ s.timeout, t.sta ∈ lists t.hapd
  once : ∀ b p, p ∈ lists b → (g ++ s.timeout).count (timer b p) ≤ 1
  watched : full = true → ∀ b p, p ∈ lists b → timer b p ∈ g ++ s.timeout
  accounting : ∀ t ∈ s.timeout, t.handler = .accounting_interim_update →
    ∃ info, s.load t.sta = some info ∧ info.acct_session_started = true

/-- Memory for all timeouts. -/
def Granted (full : Bool) (env : Env n) : Prop := full = true → ∀ t, env.memory t = true

/-- A write that leaves the station where it is, and its accounting on. -/
structure Mild (f : StaInfo → StaInfo) : Prop where
  place : ∀ info, (f info).place = info.place
  started : ∀ info, info.acct_session_started = true → (f info).acct_session_started = true

theorem Good.store (h : Good full g s lists) (hp : p ∈ lists b) {f : StaInfo → StaInfo}
    (hf : Mild f) : ∃ s', s.store p f = some s' ∧ Good full g s' lists ∧ Kept s s' := by
  obtain ⟨s', hstore⟩ := exists_store h.toView hp f
  have hkept := Kept.store hstore hf.place
  have hsame := (store_frame hstore).2
  refine ⟨s', hstore, ⟨h.toView.kept hkept, ?_, ?_, ?_, ?_⟩, hkept⟩
  · rw [hsame]
    exact h.timeouts
  · rw [hsame]
    exact h.once
  · rw [hsame]
    exact h.watched
  · rw [hsame]
    intro t ht hhandler
    obtain ⟨info, hload, hstarted⟩ := h.accounting t ht hhandler
    rw [load_store hstore]
    split
    · rename_i hsta
      refine ⟨f info, ?_, hf.started info hstarted⟩
      rw [← hsta, hload, Option.map_some]
    · exact ⟨info, hload, hstarted⟩

theorem mem_cancel (t : Timeout n) :
    t ∈ (eloop_cancel_timeout handler b p s).timeout ↔ t ∈ s.timeout ∧ t ≠ ⟨handler, b, p⟩ := by
  simp [eloop_cancel_timeout]

theorem mem_register {t : Timeout n} (h : t ∈ (eloop_register_timeout env handler b p s).timeout) :
    t ∈ s.timeout ∨ t = ⟨handler, b, p⟩ := by
  unfold eloop_register_timeout at h
  split at h
  · rcases List.mem_append.mp h with h | h
    · exact Or.inl h
    · exact Or.inr (List.mem_singleton.mp h)
  · exact Or.inl h

theorem Kept.cancel : Kept s (eloop_cancel_timeout handler b p s) := ⟨rfl, fun _ => rfl⟩

theorem Kept.register : Kept s (eloop_register_timeout env handler b p s) := by
  unfold eloop_register_timeout
  split
  · exact ⟨rfl, fun _ => rfl⟩
  · exact Kept.refl s

theorem load_register (q : Ptr) :
    (eloop_register_timeout env handler b p s).load q = s.load q := by
  unfold eloop_register_timeout
  split
  · rfl
  · rfl

/-- A timeout of another kind goes. -/
theorem Good.cancel (h : Good full g s lists) (handler : Handler) (hother : handler ≠ .ap_handle_timer)
    (b : Fin n) (p : Ptr) : Good full g (eloop_cancel_timeout handler b p s) lists := by
  have hne : ∀ b' p', timer b' p' ≠ (⟨handler, b, p⟩ : Timeout n) := by
    intro b' p' heq
    exact hother (congrArg Timeout.handler heq).symm
  refine ⟨h.toView.kept Kept.cancel, ?_, ?_, ?_, ?_⟩
  · intro t ht
    exact h.timeouts t ((mem_cancel t).mp ht).1
  · intro b' p' hp'
    have honce := h.once b' p' hp'
    rw [List.count_append] at honce ⊢
    rw [eloop_cancel_timeout, List.count_filter (by simpa using hne b' p')]
    exact honce
  · intro hfull b' p' hp'
    rcases List.mem_append.mp (h.watched hfull b' p' hp') with hmem | hmem
    · exact List.mem_append_left _ hmem
    · exact List.mem_append_right _ ((mem_cancel _).mpr ⟨hmem, hne b' p'⟩)
  · intro t ht
    exact h.accounting t ((mem_cancel t).mp ht).1

/-- A timeout that is neither a timer nor for accounting. -/
theorem Good.register (h : Good full g s lists) (hp : p ∈ lists b) (env : Env n) {handler : Handler}
    (hother : handler ≠ .ap_handle_timer)
    (hacct : handler = .accounting_interim_update →
      ∃ info, s.load p = some info ∧ info.acct_session_started = true) :
    Good full g (eloop_register_timeout env handler b p s) lists := by
  have hne : ∀ b' p', (⟨handler, b, p⟩ : Timeout n) ≠ timer b' p' := by
    intro b' p' heq
    exact hother (congrArg Timeout.handler heq)
  refine ⟨h.toView.kept Kept.register, ?_, ?_, ?_, ?_⟩
  · intro t ht
    rcases mem_register ht with ht | rfl
    · exact h.timeouts t ht
    · exact hp
  · intro b' p' hp'
    have honce := h.once b' p' hp'
    unfold eloop_register_timeout
    split
    · rw [← List.append_assoc, List.count_append, List.count_singleton]
      simpa [hne b' p'] using honce
    · exact honce
  · intro hfull b' p' hp'
    have hmem := h.watched hfull b' p' hp'
    unfold eloop_register_timeout
    split
    · rw [← List.append_assoc]
      exact List.mem_append_left _ hmem
    · exact hmem
  · intro t ht hhandler
    rw [load_register]
    rcases mem_register ht with ht | rfl
    · exact h.accounting t ht hhandler
    · exact hacct hhandler

/-- The timer that is being handled is set again. -/
theorem Good.renew (h : Good full [timer b p] s lists) (hp : p ∈ lists b)
    (hgranted : Granted full env) :
    Good full [] (eloop_register_timeout env .ap_handle_timer b p s) lists := by
  refine ⟨h.toView.kept Kept.register, ?_, ?_, ?_, ?_⟩
  · intro t ht
    rcases mem_register ht with ht | rfl
    · exact h.timeouts t ht
    · exact hp
  · intro b' p' hp'
    have honce := h.once b' p' hp'
    unfold eloop_register_timeout
    split
    · rw [List.nil_append, List.count_append, Nat.add_comm, ← List.count_append]
      exact honce
    · refine le_trans ?_ honce
      rw [List.nil_append, List.count_append]
      omega
  · intro hfull b' p' hp'
    rw [eloop_register_timeout, if_pos (hgranted hfull _), List.nil_append]
    rcases List.mem_append.mp (h.watched hfull b' p' hp') with hmem | hmem
    · exact List.mem_append_right _ hmem
    · exact List.mem_append_left _ hmem
  · intro t ht hhandler
    rw [load_register]
    rcases mem_register ht with ht | rfl
    · exact h.accounting t ht hhandler
    · cases hhandler

/-- The timer of a station is set anew. -/
theorem Good.reschedule (h : Good full g s lists) (hp : p ∈ lists b) (hgranted : Granted full env)
    (hg : timer b p ∉ g) : Good full g (reschedule env .ap_handle_timer b p s) lists := by
  have hgone : timer b p ∉ (eloop_cancel_timeout .ap_handle_timer b p s).timeout :=
    fun hmem => ((mem_cancel _).mp hmem).2 rfl
  have hkept : Kept s (StationLists.reschedule env .ap_handle_timer b p s) :=
    Kept.cancel.trans Kept.register
  have hmem : ∀ t ∈ (StationLists.reschedule env .ap_handle_timer b p s).timeout,
      t ∈ s.timeout ∨ t = timer b p := by
    intro t ht
    rcases mem_register ht with ht | rfl
    · exact Or.inl ((mem_cancel t).mp ht).1
    · exact Or.inr rfl
  refine ⟨h.toView.kept hkept, ?_, ?_, ?_, ?_⟩
  · intro t ht
    rcases hmem t ht with ht | rfl
    · exact h.timeouts t ht
    · exact hp
  · intro b' p' hp'
    have hcount : (StationLists.reschedule env .ap_handle_timer b p s).timeout.count (timer b' p') ≤
        if timer b' p' = timer b p then 1 else s.timeout.count (timer b' p') := by
      unfold StationLists.reschedule eloop_register_timeout
      by_cases heq : timer b' p' = timer b p
      · rw [if_pos heq, heq]
        split
        · rw [List.count_append, List.count_eq_zero.mpr hgone]
          exact le_of_eq (by simp [timer])
        · rw [List.count_eq_zero.mpr hgone]
          exact Nat.zero_le 1
      · have hkeep : (eloop_cancel_timeout .ap_handle_timer b p s).timeout.count (timer b' p') =
            s.timeout.count (timer b' p') := by
          rw [eloop_cancel_timeout]
          exact List.count_filter (decide_eq_true heq)
        have hnew : [timer b p].count (timer b' p') = 0 :=
          List.count_eq_zero.mpr (fun hmem => heq (List.mem_singleton.mp hmem))
        rw [if_neg heq]
        split
        · rw [List.count_append, hkeep]
          exact le_of_eq (congrArg (s.timeout.count (timer b' p') + ·) hnew)
        · exact le_of_eq hkeep
    have honce := h.once b' p' hp'
    rw [List.count_append] at honce ⊢
    split at hcount
    · rename_i heq
      rw [heq, List.count_eq_zero.mpr hg, Nat.zero_add, ← heq]
      exact hcount
    · omega
  · intro hfull b' p' hp'
    unfold StationLists.reschedule
    rw [eloop_register_timeout, if_pos (hgranted hfull _)]
    by_cases heq : timer b' p' = timer b p
    · rw [heq]
      exact List.mem_append_right _ (List.mem_append_right _ (List.mem_singleton.mpr rfl))
    · rcases List.mem_append.mp (h.watched hfull b' p' hp') with hin | hin
      · exact List.mem_append_left _ hin
      · exact List.mem_append_right _ (List.mem_append_left _ ((mem_cancel _).mpr ⟨hin, heq⟩))
  · intro t ht hhandler
    rw [show (StationLists.reschedule env .ap_handle_timer b p s).load t.sta = s.load t.sta from
      load_register t.sta]
    rcases hmem t ht with ht | rfl
    · exact h.accounting t ht hhandler
    · cases hhandler

/-- A timeout of another kind is set anew. -/
theorem Good.reschedule_other (h : Good full g s lists) (hp : p ∈ lists b) (env : Env n)
    {handler : Handler} (hother : handler ≠ .ap_handle_timer)
    (hacct : handler ≠ .accounting_interim_update) :
    Good full g (StationLists.reschedule env handler b p s) lists :=
  (h.cancel handler hother b p).register hp env hother (fun heq => absurd heq hacct)

end Timeouts

section Steps

variable {n : ℕ} {s s' : State n} {lists : Fin n → List Ptr} {full : Bool} {g : List (Timeout n)}
  {b : Fin n} {p : Ptr} {env : Env n}

/-- A function that writes to stations and sets timeouts, and leaves the stations where they
are. -/
def Steady (full : Bool) (g : List (Timeout n)) (lists : Fin n → List Ptr) (s : State n)
    (r : Option (State n)) : Prop :=
  ∃ s', r = some s' ∧ Good full g s' lists ∧ Calm s s'

theorem Steady.bind {r : Option (State n)} {k : State n → Option (State n)}
    (h : Steady full g lists s r)
    (hk : ∀ s', Good full g s' lists → Steady full g lists s' (k s')) :
    Steady full g lists s (r >>= k) := by
  obtain ⟨s', rfl, hgood, hcalm⟩ := h
  obtain ⟨s'', hrun, hgood', hcalm'⟩ := hk s' hgood
  exact ⟨s'', hrun, hgood', hcalm.trans hcalm'⟩

theorem Good.steady (h : Good full g s lists) : Steady full g lists s (some s) :=
  ⟨s, rfl, h, Calm.of_load (fun _ => rfl)⟩

theorem Good.steady_store (h : Good full g s lists) (hp : p ∈ lists b) {f : StaInfo → StaInfo}
    (hf : Mild f) (hcloser : ∀ info, Closer info (f info)) :
    Steady full g lists s (s.store p f) := by
  obtain ⟨s', hstore, hgood, -⟩ := h.store hp hf
  exact ⟨s', hstore, hgood, Calm.store hstore hcloser⟩

/-- Flags are set, but not the one for an association. -/
theorem Good.steady_set (h : Good full g s lists) (hp : p ∈ lists b) (flags : BitVec 32)
    (hassoc : flags &&& WLAN_STA_ASSOC = 0) :
    Steady full g lists s (s.store p (fun info => info.set flags)) :=
  h.steady_store hp ⟨fun _ => rfl, fun _ h => h⟩ (fun _ => Closer.set hassoc)

/-- Flags are cleared, but not the one for a poll that has not been answered. -/
theorem Good.steady_clear (h : Good full g s lists) (hp : p ∈ lists b) (flags : BitVec 32)
    (hpoll : flags &&& WLAN_STA_PENDING_POLL = 0) :
    Steady full g lists s (s.store p (fun info => info.clear flags)) :=
  h.steady_store hp ⟨fun _ => rfl, fun _ h => h⟩ (fun _ => Closer.clear hpoll)

theorem Good.steady_last (h : Good full g s lists) (hp : p ∈ lists b) {next : TimeoutNext}
    (hnext : next.rounds = 1) :
    Steady full g lists s (s.store p (fun info => { info with timeout_next := next })) :=
  h.steady_store hp ⟨fun _ => rfl, fun _ h => h⟩ (fun _ => Closer.last hnext)

theorem set_authorized_spec (h : Good full g s lists) (hp : p ∈ lists b) (authorized : Bool) :
    ∃ s', ap_sta_set_authorized s p authorized = some s' ∧ Good full g s' lists ∧ Calm s s' ∧
      s'.timeout = s.timeout := by
  obtain ⟨info, hload⟩ := h.load hp
  unfold ap_sta_set_authorized
  rw [hload]
  simp only [Option.bind_eq_bind, Option.bind_some]
  split
  · exact ⟨s, rfl, h, Calm.of_load (fun _ => rfl), rfl⟩
  · split
    · obtain ⟨s', hstore, hgood, hcalm⟩ := h.steady_set hp WLAN_STA_AUTHORIZED (by decide)
      exact ⟨s', hstore, hgood, hcalm, (store_frame hstore).2⟩
    · obtain ⟨s', hstore, hgood, hcalm⟩ := h.steady_clear hp WLAN_STA_AUTHORIZED (by decide)
      exact ⟨s', hstore, hgood, hcalm, (store_frame hstore).2⟩

theorem Good.set_authorized (h : Good full g s lists) (hp : p ∈ lists b) (authorized : Bool) :
    Steady full g lists s (ap_sta_set_authorized s p authorized) := by
  obtain ⟨s', hrun, hgood, hcalm, -⟩ := set_authorized_spec h hp authorized
  exact ⟨s', hrun, hgood, hcalm⟩

/-- The accounting of a station stops with its timeout. -/
theorem accounting_stop_spec (h : Good full g s lists) (hp : p ∈ lists b) :
    ∃ s', accounting_sta_stop s b p = some s' ∧ Good full g s' lists ∧ Calm s s' ∧
      ∀ t ∈ s'.timeout, t.handler = .accounting_interim_update → t.sta ≠ p := by
  obtain ⟨info, hload⟩ := h.load hp
  unfold accounting_sta_stop
  rw [hload]
  simp only [Option.bind_eq_bind, Option.bind_some]
  split
  · rename_i hstarted
    have hcancel := h.cancel .accounting_interim_update (by simp) b p
    obtain ⟨s', hstore⟩ := exists_store hcancel.toView hp
      (fun info => { info with acct_session_started := false })
    have hsame := (store_frame hstore).2
    have hkept := Kept.store hstore (fun _ => rfl)
    have hgone : ∀ t ∈ s'.timeout, t.handler = .accounting_interim_update → t.sta ≠ p := by
      intro t ht hhandler hsta
      rw [hsame] at ht
      have hin := hcancel.timeouts t ht
      rw [hsta] at hin
      refine ((mem_cancel t).mp ht).2 ?_
      rw [← hhandler, ← hsta, h.apart b t.hapd p hp hin]
    have hcalm : Calm (eloop_cancel_timeout .accounting_interim_update b p s) s' :=
      Calm.store hstore (fun _ => Closer.of_same rfl rfl)
    refine ⟨s', hstore, ⟨hcancel.toView.kept hkept, ?_, ?_, ?_, ?_⟩,
      (Calm.of_load (fun _ => rfl)).trans hcalm, hgone⟩
    · rw [hsame]
      exact hcancel.timeouts
    · rw [hsame]
      exact hcancel.once
    · rw [hsame]
      exact hcancel.watched
    · intro t ht hhandler
      rw [load_store hstore, if_neg (hgone t ht hhandler)]
      rw [hsame] at ht
      exact hcancel.accounting t ht hhandler
  · rename_i hstopped
    refine ⟨s, rfl, h, Calm.of_load (fun _ => rfl), fun t ht hhandler hsta => ?_⟩
    obtain ⟨info', hload', hstarted⟩ := h.accounting t ht hhandler
    rw [hsta, hload] at hload'
    cases hload'
    exact hstopped hstarted

theorem Good.accounting_stop (h : Good full g s lists) (hp : p ∈ lists b) :
    Steady full g lists s (accounting_sta_stop s b p) := by
  obtain ⟨s', hrun, hgood, hcalm, -⟩ := accounting_stop_spec h hp
  exact ⟨s', hrun, hgood, hcalm⟩

theorem store_register {f : StaInfo → StaInfo} {handler : Handler} (b : Fin n) (q : Ptr) :
    (eloop_register_timeout env handler b q s).store p f =
      (s.store p f).map (eloop_register_timeout env handler b q) := by
  unfold State.store
  rw [load_register]
  cases s.load p with
  | none => rfl
  | some info =>
    unfold eloop_register_timeout
    simp only [Option.map_some]
    split
    · rfl
    · rfl

theorem Good.accounting_start (h : Good full g s lists) (hp : p ∈ lists b) (env : Env n) :
    Steady full g lists s (accounting_sta_start env s b p) := by
  obtain ⟨info, hload⟩ := h.load hp
  unfold accounting_sta_start
  rw [hload]
  simp only [Option.bind_eq_bind, Option.bind_some]
  split
  · exact h.steady
  · have hmild : Mild (fun info => { info with acct_session_started := true }) :=
      ⟨fun _ => rfl, fun _ _ => rfl⟩
    obtain ⟨s', hstore, hgood, -⟩ := h.store hp hmild
    have hcalm : Calm s s' := Calm.store hstore (fun _ => Closer.of_same rfl rfl)
    rw [store_register, hstore]
    refine ⟨_, rfl, hgood.register hp env (by simp) (fun _ => ?_),
      hcalm.trans (Calm.of_load load_register)⟩
    refine ⟨{ info with acct_session_started := true }, ?_, rfl⟩
    rw [load_store hstore, if_pos rfl, hload, Option.map_some]

theorem Calm.reschedule (env : Env n) (handler : Handler) (b : Fin n) (p : Ptr) :
    Calm s (StationLists.reschedule env handler b p s) :=
  Calm.of_load (fun q => load_register q)

theorem Steady.after {r : Option (State n)} (hcalm : Calm s s') (h : Steady full g lists s' r) :
    Steady full g lists s r := by
  obtain ⟨s'', hrun, hgood, hcalm'⟩ := h
  exact ⟨s'', hrun, hgood, hcalm.trans hcalm'⟩

theorem Good.disconnect (h : Good full g s lists) (hp : p ∈ lists b) (hgranted : Granted full env)
    (hg : timer b p ∉ g) : Steady full g lists s (ap_sta_disconnect env s b p) := by
  refine (h.set_authorized hp false).bind (fun s₁ h₁ => ?_)
  refine (h₁.steady_clear hp _ (by decide)).bind (fun s₂ h₂ => ?_)
  refine Steady.after (Calm.reschedule env .ap_handle_timer b p) ?_
  have hremove : Mild (fun info : StaInfo =>
      { info with timeout_next := .STA_REMOVE }.set WLAN_STA_PENDING_DEAUTH_CB) :=
    ⟨fun _ => rfl, fun _ h => h⟩
  refine ((h₂.reschedule hp hgranted hg).steady_store hp hremove ?_).bind (fun s₃ h₃ => ?_)
  · exact fun info => (Closer.last rfl).trans (Closer.set (by decide))
  · exact Steady.after (Calm.reschedule env .ap_sta_deauth_cb_timeout b p)
      (h₃.reschedule_other hp env (by simp) (by simp)).steady

theorem Good.disassociate (h : Good full g s lists) (hp : p ∈ lists b) (hgranted : Granted full env)
    (hg : timer b p ∉ g) : Steady full g lists s (ap_sta_disassociate env s b p) := by
  refine (h.steady_clear hp _ (by decide)).bind (fun s₁ h₁ => ?_)
  refine (h₁.set_authorized hp false).bind (fun s₂ h₂ => ?_)
  refine (h₂.steady_last hp rfl).bind (fun s₃ h₃ => ?_)
  refine Steady.after (Calm.reschedule env .ap_handle_timer b p) ?_
  refine ((h₃.reschedule hp hgranted hg).accounting_stop hp).bind (fun s₄ h₄ => ?_)
  refine (h₄.steady_set hp _ (by decide)).bind (fun s₅ h₅ => ?_)
  exact Steady.after (Calm.reschedule env .ap_sta_disassoc_cb_timeout b p)
      (h₅.reschedule_other hp env (by simp) (by simp)).steady

theorem Good.deauthenticate (h : Good full g s lists) (hp : p ∈ lists b)
    (hgranted : Granted full env) (hg : timer b p ∉ g) :
    Steady full g lists s (ap_sta_deauthenticate env s b p) := by
  refine (h.steady_clear hp _ (by decide)).bind (fun s₁ h₁ => ?_)
  refine (h₁.set_authorized hp false).bind (fun s₂ h₂ => ?_)
  refine (h₂.steady_last hp rfl).bind (fun s₃ h₃ => ?_)
  refine Steady.after (Calm.reschedule env .ap_handle_timer b p) ?_
  refine ((h₃.reschedule hp hgranted hg).accounting_stop hp).bind (fun s₄ h₄ => ?_)
  refine (h₄.steady_set hp _ (by decide)).bind (fun s₅ h₅ => ?_)
  exact Steady.after (Calm.reschedule env .ap_sta_deauth_cb_timeout b p)
      (h₅.reschedule_other hp env (by simp) (by simp)).steady

theorem Good.disassoc_frame (h : Good full g s lists) (hp : p ∈ lists b)
    (hgranted : Granted full env) (hg : timer b p ∉ g) :
    Steady full g lists s (handle_disassoc env s b p) := by
  refine (h.set_authorized hp false).bind (fun s₁ h₁ => ?_)
  refine (h₁.steady_clear hp _ (by decide)).bind (fun s₂ h₂ => ?_)
  refine (h₂.accounting_stop hp).bind (fun s₃ h₃ => ?_)
  obtain ⟨info, hload⟩ := h₃.load hp
  rw [hload]
  simp only [Option.bind_eq_bind, Option.bind_some]
  split
  · refine (h₃.steady_last hp rfl).bind (fun s₄ h₄ => ?_)
    exact Steady.after (Calm.reschedule env .ap_handle_timer b p) (h₄.reschedule hp hgranted hg).steady
  · exact h₃.steady

theorem Good.cb_timeout (h : Good full g s lists) (hp : p ∈ lists b) :
    Steady full g lists s (cbTimeout s p) := by
  obtain ⟨info, hload⟩ := h.load hp
  unfold cbTimeout
  rw [hload]
  exact h.steady

theorem Good.tx_callback (h : Good full g s lists) (hp : p ∈ lists b) (flag : BitVec 32)
    (hpoll : flag &&& WLAN_STA_PENDING_POLL = 0) {handler : Handler}
    (hother : handler ≠ .ap_handle_timer) :
    Steady full g lists s (txCallback flag handler cbTimeout s b p) := by
  obtain ⟨info, hload⟩ := h.load hp
  unfold txCallback
  rw [hload]
  simp only [Option.bind_eq_bind, Option.bind_some]
  split
  · refine (h.steady_clear hp flag hpoll).bind (fun s₁ h₁ => ?_)
    exact Steady.after (Calm.of_load (fun _ => rfl)) ((h₁.cancel handler hother b p).cb_timeout hp)
  · exact h.steady

/-- What is done in the other BSSs is done to stations that are there. -/
theorem Good.in_other_bss (h : Good full g s lists)
    {act : State n → Fin n → Ptr → Option (State n)} (addr : Mac)
    (hact : ∀ s b p, Good full g s lists → p ∈ lists b → Steady full g lists s (act s b p))
    (rest : List (Fin n)) : Steady full g lists s (inOtherBss b addr act rest s) := by
  induction rest generalizing s with
  | nil => exact h.steady
  | cons i rest ih =>
    unfold inOtherBss
    split
    · exact ih h
    · obtain ⟨r, hfound, hspec⟩ := get_sta_spec h.toView i addr
      rw [hfound]
      cases r with
      | none => exact ih h
      | some p =>
        exact (hact s i p h ((hspec p).mp rfl).1).bind (fun s' h' => ih h')

theorem Good.new_assoc (h : Good full [] s lists) (hp : p ∈ lists b)
    (hgranted : Granted full env) (countermeasures accounting : Bool) :
    Steady full [] lists s (hostapd_new_assoc_sta env countermeasures accounting s b p) := by
  obtain ⟨info, hload⟩ := h.load hp
  unfold hostapd_new_assoc_sta
  split
  · exact h.steady
  · rw [hload]
    simp only [Option.bind_eq_bind, Option.bind_some]
    have hprune : Steady full [] lists s (hostapd_prune_associations env s b info.addr) :=
      h.in_other_bss info.addr
        (fun s b p h hp => h.disassociate hp hgranted List.not_mem_nil) (List.finRange n)
    refine hprune.bind (fun s₁ h₁ => ?_)
    have htimer : ∀ s, Good full [] s lists →
        Steady full [] lists s (some (StationLists.reschedule env .ap_handle_timer b p s)) :=
      fun s h => Steady.after (Calm.reschedule env .ap_handle_timer b p)
        (h.reschedule hp hgranted List.not_mem_nil).steady
    split
    · exact (h₁.accounting_start hp env).bind (fun s₂ h₂ => htimer s₂ h₂)
    · exact htimer s₁ h₁

end Steps

section Changes

variable {n : ℕ} {s s' : State n} {lists : Fin n → List Ptr} {full : Bool} {g : List (Timeout n)}
  {b : Fin n} {p : Ptr} {env : Env n}

theorem cancelTimeouts_sublist :
    (cancelTimeouts b p s).timeout.Sublist s.timeout := by
  have hone : ∀ (handler : Handler) (s : State n),
      (eloop_cancel_timeout handler b p s).timeout.Sublist s.timeout :=
    fun _ _ => List.filter_sublist
  exact (hone _ _).trans ((hone _ _).trans ((hone _ _).trans ((hone _ _).trans (hone _ _))))

theorem mem_cancelTimeouts {t : Timeout n} :
    t ∈ (cancelTimeouts b p s).timeout ↔ t ∈ s.timeout ∧
      (t.hapd = b → t.sta = p → t.handler = .accounting_interim_update) := by
  unfold cancelTimeouts
  rw [mem_cancel, mem_cancel, mem_cancel, mem_cancel, mem_cancel]
  obtain ⟨handler, b', p'⟩ := t
  constructor
  · rintro ⟨⟨⟨⟨⟨hmem, h₁⟩, h₂⟩, h₃⟩, h₄⟩, h₅⟩
    refine ⟨hmem, fun hb hp => ?_⟩
    obtain rfl : b' = b := hb
    obtain rfl : p' = p := hp
    cases handler with
    | accounting_interim_update => rfl
    | ap_handle_timer => exact absurd rfl h₁
    | ap_handle_session_timer => exact absurd rfl h₂
    | ap_sta_deauth_cb_timeout => exact absurd rfl h₃
    | ap_sta_disassoc_cb_timeout => exact absurd rfl h₄
    | rsn_preauth_finished_cb => exact absurd rfl h₅
  · rintro ⟨hmem, hkind⟩
    have hne : ∀ handler', handler' ≠ .accounting_interim_update →
        (⟨handler, b', p'⟩ : Timeout n) ≠ ⟨handler', b, p⟩ := by
      intro handler' hother heq
      cases heq
      exact hother (hkind rfl rfl)
    exact ⟨⟨⟨⟨⟨hmem, hne _ (by simp)⟩, hne _ (by simp)⟩, hne _ (by simp)⟩, hne _ (by simp)⟩,
      hne _ (by simp)⟩

/-- A station is freed; no timeout is left that is about it. -/
theorem Good.free (h : Good full g s lists) (hp : p ∈ lists b) :
    ∃ s', ap_free_sta s b p = some s' ∧ Good full g s' (without lists p) ∧ s'.load p = none ∧
      Fades s s' := by
  obtain ⟨s₁, hrun₁, h₁, hcalm₁, hgone₁⟩ := accounting_stop_spec h hp
  obtain ⟨s₂, hrun₂, h₂, hcalm₂, hsame₂⟩ := set_authorized_spec h₁ hp false
  obtain ⟨s₃, hrun₃, hrel₃, hlist₃, hnext₃, hchain₃⟩ := hash_del_spec h₂.toView hp
  have hlinked : ∀ b, Linked (field s₃.load StaInfo.next) (s₃.bss b).sta_list (lists b) := by
    intro b'
    rw [hlist₃]
    exact (h₂.list b').congr (fun r _ => hnext₃ r)
  have hlive : ∀ b p, p ∈ lists b → (s₃.load p).isSome = true := by
    intro b' q hq
    rw [hrel₃.isSome]
    exact (h₂.live q).mpr ⟨b', hq⟩
  obtain ⟨s₄, hrun₄, hrel₄, hhash₄, hhnext₄, hlist₄⟩ := list_del_spec hlinked hlive h₂.apart hp
  have hrel := hrel₃.trans hrel₄
  let s₅ := cancelTimeouts b p
    (s₄.setBss b { s₄.bss b with num_sta := (s₄.bss b).num_sta - 1 })
  have hload : ∀ q, State.load { s₅ with heap := s₅.heap.erase p } q =
      if q = p then none else s₄.load q := by
    intro q
    split
    · rename_i hq
      rw [hq]
      exact AList.lookup_erase _ _
    · rename_i hq
      exact AList.lookup_erase_ne hq
  -- a timeout that is left is about another station
  have htimeout : ∀ t ∈ s₅.timeout, t ∈ s₂.timeout ∧ t.sta ≠ p := by
    intro t ht
    obtain ⟨hin, hkind⟩ := mem_cancelTimeouts.mp ht
    have hin₂ : t ∈ s₂.timeout := by
      rw [← hrel.timeout]
      exact hin
    refine ⟨hin₂, fun hsta => ?_⟩
    have hhapd : t.hapd = b := by
      have hin' := h₂.timeouts t hin₂
      rw [hsta] at hin'
      exact h₂.apart t.hapd b p hin' hp
    rw [hsame₂] at hin₂
    exact hgone₁ t hin₂ (hkind hhapd hsta) hsta
  have hgood : Good full g { s₅ with heap := s₅.heap.erase p } (without lists p) := by
    refine ⟨?_, ?_, ?_, ?_, ?_⟩
    · refine h₂.toView.freed hp hrel hlist₄ (fun b' k => ?_) hload rfl
      rw [hhash₄]
      exact (hchain₃ b' k).congr (fun r _ => hhnext₄ r)
    · intro t ht
      obtain ⟨hin, hne⟩ := htimeout t ht
      exact mem_without.mpr ⟨h₂.timeouts t hin, hne⟩
    · intro b' p' hp'
      have honce := h₂.once b' p' (mem_without.mp hp').1
      have hle : s₅.timeout.count (timer b' p') ≤ s₂.timeout.count (timer b' p') := by
        rw [← hrel.timeout]
        exact cancelTimeouts_sublist.count_le _
      rw [List.count_append] at honce ⊢
      exact le_trans (Nat.add_le_add_left hle _) honce
    · intro hfull b' p' hp'
      obtain ⟨hin, hne⟩ := mem_without.mp hp'
      rcases List.mem_append.mp (h₂.watched hfull b' p' hin) with hmem | hmem
      · exact List.mem_append_left _ hmem
      · refine List.mem_append_right _ (mem_cancelTimeouts.mpr ⟨?_, fun _ hsta => absurd hsta hne⟩)
        rw [← hrel.timeout] at hmem
        exact hmem
    · intro t ht hhandler
      obtain ⟨hin, hne⟩ := htimeout t ht
      obtain ⟨info, hload', hstarted⟩ := h₂.accounting t hin hhandler
      have hown := hrel.own t.sta
      rw [hload', Option.map_some] at hown
      obtain ⟨info', hload'', hown'⟩ := Option.map_eq_some_iff.mp hown
      refine ⟨info', ?_, ?_⟩
      · rw [hload, if_neg hne]
        exact hload''
      · rw [← hstarted]
        exact congrArg (fun own => own.2.1) hown'
  refine ⟨_, ?_, hgood, AList.lookup_erase _ _, fun q info hq => ?_, fun q hq => ?_⟩
  · unfold ap_free_sta
    simp only [Option.bind_eq_bind, hrun₁, hrun₂, hrun₃, hrun₄, Option.bind_some]
    rfl
  · rw [hload]
    split
    · exact Or.inl rfl
    · exact Or.inr ((hcalm₁.trans (hcalm₂.trans (Calm.relinked hrel))) q info hq)
  · refine Option.not_isSome_iff_eq_none.mp (fun hsome => ?_)
    obtain ⟨b', hin⟩ := (hgood.live q).mp hsome
    exact h.toView.fresh hq b' (mem_without.mp hin).1

theorem Good.added (h : Good full [] s lists) (hgranted : Granted full env)
    (hfresh : s.load p = none) (v : View s' (Function.update lists b (p :: lists b)))
    (hkeep : ∀ q, q ≠ p → s'.load q = s.load q)
    (htimeout : s'.timeout = (eloop_register_timeout env .ap_handle_timer b p s).timeout) :
    Good full [] s' (Function.update lists b (p :: lists b)) := by
  have hnone : ∀ b', timer b' p ∉ s.timeout :=
    fun b' hmem => h.toView.fresh hfresh b' (h.timeouts _ hmem)
  refine ⟨v, ?_, ?_, ?_, ?_⟩
  · intro t ht
    rw [htimeout] at ht
    rcases mem_register ht with ht | rfl
    · exact mem_added.mpr (Or.inl (h.timeouts t ht))
    · exact mem_added.mpr (Or.inr ⟨rfl, rfl⟩)
  · intro b' q hq
    have hone : [timer b p].count (timer b' q) ≤ 1 := List.count_le_length
    have hcount : s'.timeout.count (timer b' q) ≤
        s.timeout.count (timer b' q) + [timer b p].count (timer b' q) := by
      rw [htimeout, eloop_register_timeout]
      split
      · exact le_of_eq List.count_append
      · exact Nat.le_add_right _ _
    rw [List.nil_append]
    rcases mem_added.mp hq with hold | ⟨rfl, rfl⟩
    · have hother : [timer b p].count (timer b' q) = 0 := by
        refine List.count_eq_zero.mpr (fun hmem => h.toView.fresh hfresh b' ?_)
        have hsta : q = p := congrArg Timeout.sta (List.mem_singleton.mp hmem)
        rwa [hsta] at hold
      have honce := h.once b' q hold
      rw [List.nil_append] at honce
      omega
    · have hzero := List.count_eq_zero.mpr (hnone b')
      omega
  · intro hfull b' q hq
    rw [htimeout, eloop_register_timeout, if_pos (hgranted hfull _), List.nil_append]
    rcases mem_added.mp hq with hold | ⟨rfl, rfl⟩
    · exact List.mem_append_left _ (h.watched hfull b' q hold)
    · exact List.mem_append_right _ (List.mem_singleton.mpr rfl)
  · intro t ht hhandler
    rw [htimeout] at ht
    rcases mem_register ht with ht | rfl
    · rw [hkeep]
      · exact h.accounting t ht hhandler
      · intro hsta
        have hin := h.timeouts t ht
        rw [hsta] at hin
        exact h.toView.fresh hfresh t.hapd hin
    · cases hhandler

/-- A station is added, or the memory or the table does not have the room. -/
theorem Good.add (h : Good full [] s lists) (hgranted : Granted full env) {memory : Option Ptr}
    (hfresh : ∀ p, memory = some p → s.load p = none) (b : Fin n) (addr : Mac) :
    ∃ s' r lists', ap_sta_add env memory s b addr = some (s', r) ∧ Good full [] s' lists' ∧
      Calm s s' := by
  obtain ⟨r, hfound, hspec⟩ := get_sta_spec h.toView b addr
  unfold ap_sta_add
  rw [hfound]
  simp only [Option.bind_eq_bind, Option.bind_some]
  cases r with
  | some p => exact ⟨s, some p, lists, rfl, h, Calm.of_load (fun _ => rfl)⟩
  | none =>
    simp only
    split
    · exact ⟨s, none, lists, rfl, h, Calm.of_load (fun _ => rfl)⟩
    · rename_i hroom
      cases memory with
      | none => exact ⟨s, none, lists, rfl, h, Calm.of_load (fun _ => rfl)⟩
      | some p =>
        have hnew := hfresh p rfl
        let s₁ := eloop_register_timeout env .ap_handle_timer b p s
        let info : StaInfo := { next := (s₁.bss b).sta_list, hnext := none, addr }
        let s₂ := State.setBss { s₁ with heap := s₁.heap.insert p info } b { s₁.bss b with
          sta_list := some p
          num_sta := (s₁.bss b).num_sta + 1 }
        have hbss₁ : s₁.bss = s.bss := Kept.register.bss
        have hload₂ : ∀ q, s₂.load q = if q = p then some info else s.load q := by
          intro q
          rw [← load_register (s := s) (b := b) (p := p) q]
          split
          · rename_i hq
            rw [hq]
            exact AList.lookup_insert _
          · rename_i hq
            exact AList.lookup_insert_ne hq
        obtain ⟨s₃, hrun₃, htimeout₃, hload₃, hbss₃⟩ :=
          hash_add_spec (s := s₂) ((hload₂ p).trans (if_pos rfl)) b
        have hdata₂ : s₂.bss b = { s.bss b with
            sta_list := some p
            num_sta := (s.bss b).num_sta + 1 } := by
          rw [setBss_self, hbss₁]
        rw [hdata₂] at hload₃ hbss₃
        have v₃ : View s₃ (Function.update lists b (p :: lists b)) := by
          refine h.toView.added { info with hnext := (s.bss b).sta_hash (STA_HASH addr) } hnew
            (fun q hq haddr => ?_) (not_le.mp hroom) ?_ rfl (fun q => ?_) ?_
          · cases (hspec q).mpr ⟨hq, haddr⟩
          · exact congrArg (fun bss => (bss b).sta_list) hbss₁
          · rw [hload₃, hload₂]
            split
            · rfl
            · rfl
          · rw [hbss₃]
            simp only [State.setBss, s₂, hbss₁, Function.update_idem]
        have h₃ := h.added hgranted hnew v₃
          (fun q hq => by rw [hload₃, if_neg hq, hload₂, if_neg hq]) htimeout₃
        have hload₃' := (hload₃ p).trans (if_pos rfl)
        have hother : Steady full [] (Function.update lists b (p :: lists b)) s₃
            (ap_sta_remove_in_other_bss env s₃ b p) := by
          unfold ap_sta_remove_in_other_bss
          rw [hload₃']
          exact h₃.in_other_bss addr
            (fun s b p h hp => h.disconnect hp hgranted List.not_mem_nil) (List.finRange n)
        have hcalm₃ : Calm s s₃ := by
          intro q info hq
          refine ⟨info, ?_, Closer.refl info⟩
          rw [hload₃, hload₂, if_neg, if_neg, hq]
          all_goals
            rintro rfl
            rw [hnew] at hq
            cases hq
        obtain ⟨s₄, hrun₄, h₄, hcalm₄⟩ := hother
        refine ⟨s₄, some p, _, ?_, h₄, hcalm₃.trans hcalm₄⟩
        change ((ap_sta_hash_add s₂ b p).bind fun s =>
          (ap_sta_remove_in_other_bss env s b p).bind fun s => some (s, some p)) = _
        rw [hrun₃, Option.bind_some, hrun₄, Option.bind_some]

end Changes

end Nxwlan.StationLists
