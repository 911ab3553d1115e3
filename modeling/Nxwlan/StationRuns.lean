import Nxwlan.StationTimeouts

/-!
Runs of the event loop over the stations of hostapd. Whatever frames arrive and whichever
timeouts run, the lists and the chains hold exactly the stations in memory, each BSS has an
address at most once, and no timeout is about a station that has been freed. A station that is
not heard from any more is freed after a few rounds of its timer.
-/
namespace Nxwlan.StationLists

open HeapLists
open ClientBlacklist (Mac)

section Events

variable {n : ℕ} {s s' s'' : State n} {lists : Fin n → List Ptr} {full : Bool} {g : List (Timeout n)}
  {b : Fin n} {p : Ptr} {env : Env n} {P Q : State n → Prop} {r : Option (State n)}

/-- The timeout that was taken out has been handled. -/
theorem Good.drop (h : Good full g s lists) (hg : ∀ b p, p ∈ lists b → timer b p ∉ g) :
    Good full [] s lists := by
  refine ⟨h.toView, h.timeouts, fun b p hp => ?_, fun hfull b p hp => ?_, h.accounting⟩
  · have honce := h.once b p hp
    rwa [List.count_append, List.count_eq_zero.mpr (hg b p hp), Nat.zero_add] at honce
  · exact (List.mem_append.mp (h.watched hfull b p hp)).resolve_left (hg b p hp)

theorem Good.taken (h : Good full [] s lists) {i : ℕ} {t : Timeout n}
    (ht : s.timeout[i]? = some t) :
    Good full [t] { s with timeout := s.timeout.eraseIdx i } lists := by
  obtain ⟨hi, rfl⟩ := List.getElem?_eq_some_iff.mp ht
  have hperm : (s.timeout[i] :: s.timeout.eraseIdx i).Perm s.timeout :=
    List.getElem_cons_eraseIdx_perm hi
  refine ⟨h.toView.kept ⟨rfl, fun _ => rfl⟩, fun t ht => ?_, fun b p hp => ?_,
    fun hfull b p hp => ?_, fun t ht => ?_⟩
  · exact h.timeouts t (List.mem_of_mem_eraseIdx ht)
  · rw [List.singleton_append, hperm.count_eq]
    exact h.once b p hp
  · rw [List.singleton_append]
    exact hperm.mem_iff.mpr (h.watched hfull b p hp)
  · exact h.accounting t (List.mem_of_mem_eraseIdx ht)

/-- The result of a function that may free stations or add one, and what else holds there. -/
def Holds (full : Bool) (P : State n → Prop) (r : Option (State n)) : Prop :=
  ∃ s lists, r = some s ∧ Good full [] s lists ∧ P s

theorem Holds.mono (h : Holds full P r) (hPQ : ∀ s, P s → Q s) : Holds full Q r := by
  obtain ⟨s, lists, hrun, hgood, hP⟩ := h
  exact ⟨s, lists, hrun, hgood, hPQ s hP⟩

theorem Good.holds (h : Good full [] s lists) (hP : P s) : Holds full P (some s) :=
  ⟨s, lists, rfl, h, hP⟩

theorem Good.fades (h : Good full g s lists) (h' : Good full [] s' lists) (hcalm : Calm s s') :
    Fades s s' := by
  refine ⟨fun p info hload => Or.inr (hcalm p info hload), fun p hnone => ?_⟩
  refine Option.not_isSome_iff_eq_none.mp (fun hsome => ?_)
  obtain ⟨b, hp⟩ := (h'.live p).mp hsome
  exact h.toView.fresh hnone b hp

theorem Good.holds_fades (h : Good full [] s lists) (hsteady : Steady full [] lists s r) :
    Holds full (Fades s) r := by
  obtain ⟨s', rfl, h', hcalm⟩ := hsteady
  exact h'.holds (h.fades h' hcalm)

theorem Steady.then_holds {k : State n → Option (State n)} (h : Steady full g lists s r)
    (hk : ∀ s', Good full g s' lists → Calm s s' → Holds full P (k s')) :
    Holds full P (r >>= k) := by
  obtain ⟨s', rfl, hgood, hcalm⟩ := h
  exact hk s' hgood hcalm

theorem Good.free_holds (h : Good full g s lists) (hp : p ∈ lists b)
    (hg : ∀ t ∈ g, t = timer b p) :
    Holds full (fun s' => Fades s s' ∧ s'.load p = none) (ap_free_sta s b p) := by
  obtain ⟨s', hrun, hgood, hnone, hfades⟩ := h.free hp
  refine ⟨s', _, hrun, hgood.drop (fun b' p' hp' hmem => (mem_without.mp hp').2 ?_), hfades, hnone⟩
  exact congrArg Timeout.sta (hg _ hmem)

/-- A station is gone, or its timer runs `k` times less until it is. -/
def Near (p : Ptr) (k : ℕ) (s s' : State n) : Prop :=
  ∀ info, s.load p = some info →
    s'.load p = none ∨ ∃ info', s'.load p = some info' ∧ info'.left + k ≤ info.left

theorem Fades.near (h : Fades s s') (p : Ptr) : Near p 0 s s' := by
  intro info hload
  rcases h.closer p info hload with hnone | ⟨info', hload', hcloser⟩
  · exact Or.inl hnone
  · exact Or.inr ⟨info', hload', hcloser.left⟩

theorem Calm.near (h : Calm s s') (p : Ptr) : Near p 0 s s' := by
  intro info hload
  obtain ⟨info', hload', hcloser⟩ := h p info hload
  exact Or.inr ⟨info', hload', hcloser.left⟩

theorem Near.of_load (h : s'.load p = s.load p) : Near p 0 s s' :=
  fun info hload => Or.inr ⟨info, h.trans hload, le_refl _⟩

theorem Near.of_store {f : StaInfo → StaInfo} {q : Ptr} (h : s.store p f = some s') (hq : q ≠ p)
    (h' : Near q 0 s' s'') : Near q 0 s s'' := by
  intro info hload
  refine h' info ?_
  rw [load_store h, if_neg hq]
  exact hload

theorem Near.of_calm (h : Calm s s') (h' : Near p 0 s' s'') : Near p 0 s s'' := by
  intro info hload
  obtain ⟨info', hload', hcloser⟩ := h p info hload
  rcases h' info' hload' with hnone | ⟨info'', hload'', hleft⟩
  · exact Or.inl hnone
  · exact Or.inr ⟨info'', hload'', hleft.trans hcloser.left⟩

/-- What a timer has done to a station that has `k` rounds left, and to the others. -/
def Done (p : Ptr) (k : ℕ) (s s' : State n) : Prop :=
  (∀ q, q ≠ p → Near q 0 s s') ∧
    (s'.load p = none ∨ ∃ info', s'.load p = some info' ∧ info'.left < k)

/-- The timer of a station has changed it, and is set again. -/
theorem Good.next_round (h : Good full [timer b p] s lists) (hp : p ∈ lists b)
    (hgranted : Granted full env) {info : StaInfo} (hload : s.load p = some info)
    (next : TimeoutNext) {k : ℕ} (hleft : StaInfo.left { info with timeout_next := next } < k) :
    Holds full (Done p k s)
      ((s.store p (fun info => { info with timeout_next := next })).bind
        (fun s => some (eloop_register_timeout env .ap_handle_timer b p s))) := by
  obtain ⟨s', hstore, h', -⟩ := h.store hp
    (f := fun info => { info with timeout_next := next }) ⟨fun _ => rfl, fun _ h => h⟩
  rw [hstore]
  refine (h'.renew hp hgranted).holds ⟨fun q hq => ?_, Or.inr ⟨_, ?_, hleft⟩⟩
  · exact Near.of_store hstore hq (Near.of_load (load_register q))
  · rw [load_register, load_store hstore, if_pos rfl, hload, Option.map_some]

/-- After another round of its timer a station is gone, or has fewer rounds left. -/
theorem Good.timeout_switch (h : Good full [timer b p] s lists) (hp : p ∈ lists b)
    (hgranted : Granted full env) {info : StaInfo} (hload : s.load p = some info)
    (next : TimeoutNext) (hpolled : next = .STA_NULLFUNC → info.has WLAN_STA_ASSOC = true →
      info.has WLAN_STA_PENDING_POLL = true) :
    Holds full (Done p next.rounds s) (timeoutSwitch env next s b p) := by
  have hfree : Holds full (Done p next.rounds s) (ap_free_sta s b p) :=
    (h.free_holds hp (fun t ht => List.mem_singleton.mp ht)).mono
      (fun s' hfreed => ⟨fun q _ => hfreed.1.near q, Or.inl hfreed.2⟩)
  have hdeauth : Holds full (Done p 2 s) (timeoutSwitch env .STA_DISASSOC s b p) := by
    refine (h.set_authorized hp false).then_holds (fun s₁ h₁ hcalm₁ => ?_)
    refine (h₁.steady_clear hp _ (by decide)).then_holds (fun s₂ h₂ hcalm₂ => ?_)
    refine (h₂.accounting_stop hp).then_holds (fun s₃ h₃ hcalm₃ => ?_)
    obtain ⟨info₃, hload₃, -⟩ := (hcalm₁.trans (hcalm₂.trans hcalm₃)) p info hload
    have hleft : StaInfo.left { info₃ with timeout_next := .STA_DEAUTH } < 2 := by
      rw [left_of_ne (by simp)]
      exact Nat.lt_succ_self 1
    refine (h₃.next_round hp hgranted hload₃ _ hleft).mono
      (fun s' hdone => ⟨fun q hq => ?_, hdone.2⟩)
    exact Near.of_calm (hcalm₁.trans (hcalm₂.trans hcalm₃)) (hdone.1 q hq)
  cases next with
  | STA_NULLFUNC =>
    refine h.next_round hp hgranted hload .STA_DISASSOC ?_
    have hunheard : StaInfo.Unheard { info with timeout_next := .STA_DISASSOC } :=
      fun _ => hpolled rfl
    rw [StaInfo.left, if_pos hunheard]
    exact Nat.lt_succ_self 2
  | STA_DISASSOC => exact hdeauth
  | STA_DISASSOC_FROM_CLI => exact hdeauth
  | STA_DEAUTH => exact hfree
  | STA_REMOVE => exact hfree

theorem activity_silent (env : Env n) (conf : Conf) (info : StaInfo)
    (hsilent : (conf.ap_max_inactivity : ℤ) ≤ env.inactive_sec) :
    ∃ next, checkActivity env conf info = ({ info with timeout_next := next }, 0) ∧
      (next = info.timeout_next ∨ (conf.skip_inactivity_poll = true ∧ next.rounds ≤ info.left)) := by
  unfold checkActivity
  split
  · rename_i hassoc
    simp only
    rw [if_neg (by omega), if_neg (by omega)]
    split
    · rename_i hskip
      refine ⟨.STA_DISASSOC, rfl, Or.inr ⟨hskip, le_trans ?_ (rounds_le_left info)⟩⟩
      rcases hassoc.2 with hnext | hnext
      · rw [hnext]
        decide
      · rw [hnext]
    · exact ⟨info.timeout_next, rfl, Or.inl rfl⟩
  · exact ⟨info.timeout_next, rfl, Or.inl rfl⟩

/-- What its timer asks the driver gives a station no more rounds, if the driver has not heard
from it. -/
theorem check_silent (env : Env n) (conf : Conf) (info : StaInfo)
    (hsilent : (conf.ap_max_inactivity : ℤ) ≤ env.inactive_sec) :
    ∃ next time, checkPoll conf (checkActivity env conf info).1 (checkActivity env conf info).2 =
        ({ info with timeout_next := next }, time) ∧ next.rounds ≤ info.left ∧
      (time ≠ 0 → StaInfo.left { info with timeout_next := next } < info.left) := by
  obtain ⟨next, hactivity, hnext⟩ := activity_silent env conf info hsilent
  have hrounds : next.rounds ≤ info.left := by
    rcases hnext with rfl | ⟨-, hle⟩
    · exact rounds_le_left info
    · exact hle
  rw [hactivity]
  unfold checkPoll
  split
  · rename_i hpoll
    obtain ⟨hassoc, hdisassoc, hanswered, hskip⟩ := hpoll
    have hleft : info.left = 4 := by
      rcases hnext with rfl | ⟨hskip', -⟩
      · refine if_neg (fun hunheard => ?_)
        have hpending : info.has WLAN_STA_PENDING_POLL = true := hunheard hdisassoc hassoc
        exact absurd hpending (by simpa using hanswered)
      · rw [hskip] at hskip'
        cases hskip'
    refine ⟨.STA_NULLFUNC, conf.ap_max_inactivity, rfl, ?_, fun _ => ?_⟩
    · rw [hleft]
      decide
    · rw [hleft, left_of_ne (by simp)]
      exact Nat.lt_succ_self 3
  · exact ⟨next, 0, rfl, hrounds, fun htime => absurd rfl htime⟩

theorem checkActivity_fst (env : Env n) (conf : Conf) (info : StaInfo) :
    ∃ next, (checkActivity env conf info).1 = { info with timeout_next := next } := by
  unfold checkActivity
  split
  · simp only
    split
    · exact ⟨info.timeout_next, rfl⟩
    · split
      · exact ⟨.STA_NULLFUNC, rfl⟩
      · split
        · exact ⟨.STA_DISASSOC, rfl⟩
        · exact ⟨info.timeout_next, rfl⟩
  · exact ⟨info.timeout_next, rfl⟩

theorem checkPoll_fst (conf : Conf) (info : StaInfo) (time : ℕ) :
    ∃ next, (checkPoll conf info time).1 = { info with timeout_next := next } := by
  unfold checkPoll
  split
  · exact ⟨.STA_NULLFUNC, rfl⟩
  · exact ⟨info.timeout_next, rfl⟩

/-- The timer leaves the other stations alone; if its station is silent, it is gone then or has
fewer rounds left. -/
theorem Good.handle_timer (h : Good full [timer b p] s lists) (hp : p ∈ lists b)
    (hgranted : Granted full env) :
    Holds full (fun s' => (∀ q, q ≠ p → Near q 0 s s') ∧
        (((s.bss b).conf.ap_max_inactivity : ℤ) ≤ env.inactive_sec → Near p 1 s s'))
      (ap_handle_timer env s b p) := by
  obtain ⟨info, hload⟩ := h.load hp
  unfold ap_handle_timer
  rw [hload]
  simp only [Option.bind_eq_bind, Option.bind_some]
  split
  · refine (h.free_holds hp (fun t ht => List.mem_singleton.mp ht)).mono (fun s' hfreed => ?_)
    exact ⟨fun q _ => hfreed.1.near q, fun _ _ _ => Or.inl hfreed.2⟩
  · have hchecked : (((s.bss b).conf.ap_max_inactivity : ℤ) ≤ env.inactive_sec) → _ :=
      check_silent env (s.bss b).conf info
    generalize hact : checkActivity env (s.bss b).conf info = r₁ at hchecked
    obtain ⟨info₁, time₁⟩ := r₁
    simp only at hchecked ⊢
    generalize hpoll : checkPoll (s.bss b).conf info₁ time₁ = r₂ at hchecked
    obtain ⟨info₂, time₂⟩ := r₂
    have hnext : ∃ next, info₂ = { info with timeout_next := next } := by
      obtain ⟨next₁, hfst₁⟩ := checkActivity_fst env (s.bss b).conf info
      obtain ⟨next₂, hfst₂⟩ := checkPoll_fst (s.bss b).conf info₁ time₁
      rw [hact] at hfst₁
      rw [hpoll] at hfst₂
      simp only at hfst₁ hfst₂
      exact ⟨next₂, by rw [hfst₂, hfst₁]⟩
    obtain ⟨next, rfl⟩ := hnext
    have hround : ((s.bss b).conf.ap_max_inactivity : ℤ) ≤ env.inactive_sec →
        next.rounds ≤ info.left ∧
          (time₂ ≠ 0 → StaInfo.left { info with timeout_next := next } < info.left) := by
      intro hsilent
      obtain ⟨next', time', heq, hrounds, hleft⟩ := hchecked hsilent
      obtain ⟨hinfo, rfl⟩ := Prod.mk.inj heq
      obtain rfl : next = next' := congrArg StaInfo.timeout_next hinfo
      exact ⟨hrounds, hleft⟩
    obtain ⟨s₁, hstore₁, h₁, -⟩ := h.store hp
      (f := fun info => { info with timeout_next := next }) ⟨fun _ => rfl, fun _ h => h⟩
    have hload₁ : s₁.load p = some { info with timeout_next := next } := by
      rw [load_store hstore₁, if_pos rfl, hload, Option.map_some]
    have hsame₁ : ∀ q, q ≠ p → s₁.load q = s.load q := by
      intro q hq
      rw [load_store hstore₁, if_neg hq]
    have hwritten : s.store p (fun _ => { info with timeout_next := next }) = some s₁ := by
      rw [State.store, hload, Option.map_some] at hstore₁ ⊢
      exact hstore₁
    have hswitch : ∀ s₂ s', (∀ q, q ≠ p → s₂.load q = s.load q) → Done p next.rounds s₂ s' →
        (∀ q, q ≠ p → Near q 0 s s') ∧
          (((s.bss b).conf.ap_max_inactivity : ℤ) ≤ env.inactive_sec → Near p 1 s s') := by
      rintro s₂ s' hsame ⟨hothers, hown⟩
      refine ⟨fun q hq info hload => hothers q hq info ((hsame q hq).trans hload),
        fun hsilent info' hload' => ?_⟩
      obtain rfl : info = info' := Option.some.inj (hload.symm.trans hload')
      rcases hown with hgone | ⟨info', hload', hleft⟩
      · exact Or.inl hgone
      · exact Or.inr ⟨info', hload', (Nat.succ_le_of_lt hleft).trans (hround hsilent).1⟩
    simp only [hwritten, Option.bind_some]
    split
    · rename_i htime
      refine (h₁.renew hp hgranted).holds ⟨fun q hq => ?_, fun hsilent info' hload' => ?_⟩
      · exact Near.of_load ((load_register q).trans (hsame₁ q hq))
      · obtain rfl : info = info' := Option.some.inj (hload.symm.trans hload')
        exact Or.inr ⟨_, (load_register p).trans hload₁, (hround hsilent).2 htime⟩
    · split
      · obtain ⟨s₂, hstore₂, h₂, -⟩ := h₁.steady_set hp WLAN_STA_PENDING_POLL (by decide)
        have hload₂ := load_store hstore₂ p
        rw [if_pos rfl, hload₁, Option.map_some] at hload₂
        rw [hstore₂, Option.bind_some]
        refine (h₂.timeout_switch hp hgranted hload₂ next (fun _ _ => has_set_poll)).mono
          (fun s' => hswitch s₂ s' (fun q hq => ?_))
        rw [load_store hstore₂, if_neg hq, hsame₁ q hq]
      · rename_i hunpolled
        refine (h₁.timeout_switch hp hgranted hload₁ next (fun hnext hassoc => ?_)).mono
          (fun s' => hswitch s₁ s' hsame₁)
        exact absurd ⟨hnext, hassoc⟩ hunpolled

theorem Good.session_timer (h : Good full [] s lists) (hp : p ∈ lists b) :
    Holds full (Fades s) (ap_handle_session_timer s b p) := by
  obtain ⟨info, hload⟩ := h.load hp
  have hfree : Holds full (Fades s) (ap_free_sta s b p) :=
    (h.free_holds hp (by simp)).mono (fun _ hfreed => hfreed.1)
  unfold ap_handle_session_timer
  rw [hload]
  simp only [Option.bind_eq_bind, Option.bind_some]
  split
  · split
    · exact hfree
    · exact h.holds (Fades.refl s)
  · exact hfree

/-- The timer of the station is the timeout. -/
def Timeout.polls (t : Timeout n) (p : Ptr) : Prop := t.handler = .ap_handle_timer ∧ t.sta = p

instance (t : Timeout n) (p : Ptr) : Decidable (t.polls p) := inferInstanceAs (Decidable (_ ∧ _))

theorem Good.run_handler {t : Timeout n} (h : Good full [t] s lists) (ht : t.sta ∈ lists t.hapd)
    (hacct : t.handler = .accounting_interim_update →
      ∃ info, s.load t.sta = some info ∧ info.acct_session_started = true)
    (hgranted : Granted full env) :
    Holds full (fun s' => ∀ p, (t.polls p →
        ((s.bss t.hapd).conf.ap_max_inactivity : ℤ) ≤ env.inactive_sec) →
          Near p (if t.polls p then 1 else 0) s s') (runHandler env s t) := by
  obtain ⟨handler, b, p⟩ := t
  have hdrop : handler ≠ .ap_handle_timer → Good full [] s lists := by
    intro hother
    refine h.drop (fun b' p' _ hmem => hother ?_)
    exact (congrArg Timeout.handler (List.mem_singleton.mp hmem)).symm
  have hfades : handler ≠ .ap_handle_timer → ∀ s', Fades s s' → ∀ q,
      (Timeout.polls ⟨handler, b, p⟩ q →
        ((s.bss b).conf.ap_max_inactivity : ℤ) ≤ env.inactive_sec) →
          Near q (if Timeout.polls ⟨handler, b, p⟩ q then 1 else 0) s s' := by
    intro hother s' hfade q _
    rw [if_neg (fun hpolls => hother hpolls.1)]
    exact hfade.near q
  cases handler with
  | ap_handle_timer =>
    refine (Good.handle_timer h ht hgranted).mono (fun s' hdone q hsilent => ?_)
    split
    · rename_i hpolls
      obtain rfl : p = q := hpolls.2
      exact hdone.2 (hsilent hpolls)
    · rename_i hpolls
      exact hdone.1 q (fun hq => hpolls ⟨rfl, hq.symm⟩)
  | ap_handle_session_timer =>
    exact ((hdrop (by simp)).session_timer ht).mono (hfades (by simp))
  | ap_sta_deauth_cb_timeout =>
    have h' := hdrop (by simp)
    exact (h'.holds_fades (h'.cb_timeout ht)).mono (hfades (by simp))
  | ap_sta_disassoc_cb_timeout =>
    have h' := hdrop (by simp)
    exact (h'.holds_fades (h'.cb_timeout ht)).mono (hfades (by simp))
  | accounting_interim_update =>
    obtain ⟨info, hload, hstarted⟩ := hacct rfl
    have hload : s.load p = some info := hload
    have hother : Handler.accounting_interim_update ≠ .ap_handle_timer := by simp
    have h' := (hdrop hother).register ht env hother (fun _ => ⟨info, hload, hstarted⟩)
    unfold runHandler accounting_interim_update
    simp only [hload, Option.bind_eq_bind, Option.bind_some]
    exact (h'.holds ((hdrop (by simp)).fades h' (Calm.of_load load_register))).mono
      (hfades (by simp))
  | rsn_preauth_finished_cb =>
    exact ((hdrop (by simp)).free_holds ht (by simp)).mono
      (fun s' hfreed => hfades (by simp) s' hfreed.1)

/-- The loop frees the stations of the list one after another. -/
theorem Good.free_loop (h : Good full [] s lists) (b : Fin n) {k : ℕ}
    (hk : (lists b).length ≤ k) :
    Holds full (Fades s) (freeLoop b k (lists b).head? s) := by
  induction k generalizing s lists with
  | zero =>
    rw [List.eq_nil_of_length_eq_zero (Nat.le_zero.mp hk)]
    exact h.holds (Fades.refl s)
  | succ k ih =>
    cases hlist : lists b with
    | nil => exact h.holds (Fades.refl s)
    | cons p rest =>
      have hp : p ∈ lists b := by
        rw [hlist]
        exact List.mem_cons_self
      obtain ⟨info, hload⟩ := h.load hp
      obtain ⟨s', hrun, h', -, hfades⟩ := h.free hp
      have hlinked := h.list b
      rw [hlist] at hlinked
      have hnext : info.next = rest.head? := by
        rw [hlinked.head_eq] at hlinked
        exact (field_eq hload).symm.trans hlinked.pop.eq_head?
      have hrest : without lists p b = rest := by
        rw [without, hlist, List.filter_cons_of_neg (by simp), List.filter_eq_self.mpr]
        intro r hr
        refine decide_eq_true ?_
        rintro rfl
        exact (List.nodup_cons.mp hlinked.nodup).1 hr
      rw [List.head?_cons, freeLoop]
      simp only [hload, hrun, hnext, Option.bind_eq_bind, Option.bind_some]
      rw [hlist, List.length_cons] at hk
      rw [← hrest] at hk ⊢
      exact (ih h' (Nat.le_of_succ_le_succ hk)).mono (fun s'' hfades' => hfades.trans hfades')

theorem Good.free_stas (h : Good full [] s lists) (b : Fin n) :
    Holds full (Fades s) (hostapd_free_stas s b) := by
  rw [hostapd_free_stas, (h.list b).eq_head?]
  refine h.free_loop b ((List.Nodup.subperm (h.nodup b) ?_).length_le)
  intro p hp
  obtain ⟨info, hload⟩ := h.load hp
  exact AList.lookup_isSome.mp (Option.isSome_iff_exists.mpr ⟨info, hload⟩)

theorem Good.remove_sta (h : Good full [] s lists) (hp : p ∈ lists b) {flags : BitVec 32}
    (hpoll : flags &&& WLAN_STA_PENDING_POLL = 0) :
    Holds full (Fades s) (removeSta flags s b p) := by
  refine (h.set_authorized hp false).then_holds (fun s₁ h₁ hcalm₁ => ?_)
  refine (h₁.steady_clear hp _ hpoll).then_holds (fun s₂ h₂ hcalm₂ => ?_)
  exact (h₂.free_holds hp (by simp)).mono
    (fun s' hfreed => ((h.fades h₂ (hcalm₁.trans hcalm₂)).trans hfreed.1))

/-- What is called for a station moves none of the others away from its end, nor the station
itself if it is not heard. -/
theorem Good.perform (h : Good full [] s lists) (hp : p ∈ lists b) (hgranted : Granted full env)
    (c : Call) :
    Holds full (fun s' => ∀ q, (q = p → ∀ flags reset, c ≠ .write flags reset) → Near q 0 s s')
      (c.perform env s b p) := by
  have hfades : ∀ {r}, Holds full (Fades s) r → Holds full (fun s' => ∀ q,
      (q = p → ∀ flags reset, c ≠ .write flags reset) → Near q 0 s s') r :=
    fun hr => hr.mono (fun s' hfade q _ => hfade.near q)
  have hsteady : ∀ {r}, Steady full [] lists s r → Holds full (fun s' => ∀ q,
      (q = p → ∀ flags reset, c ≠ .write flags reset) → Near q 0 s s') r :=
    fun hr => hfades (h.holds_fades hr)
  cases c with
  | disconnect => exact hsteady (h.disconnect hp hgranted List.not_mem_nil)
  | disassociate => exact hsteady (h.disassociate hp hgranted List.not_mem_nil)
  | deauthenticate => exact hsteady (h.deauthenticate hp hgranted List.not_mem_nil)
  | disassoc_frame => exact hsteady (h.disassoc_frame hp hgranted List.not_mem_nil)
  | deauth_frame => exact hfades (h.remove_sta hp (by decide))
  | notif_disassoc => exact hfades (h.remove_sta hp (by decide))
  | free => exact hfades ((h.free_holds hp (by simp)).mono (fun _ hfreed => hfreed.1))
  | deauth_cb => exact hsteady (h.tx_callback hp _ (by decide) (by simp))
  | disassoc_cb => exact hsteady (h.tx_callback hp _ (by decide) (by simp))
  | session_timeout =>
    exact hsteady ⟨_, rfl, h.reschedule_other hp env (by simp) (by simp),
      Calm.reschedule env .ap_handle_session_timer b p⟩
  | no_session_timeout =>
    exact hsteady ⟨_, rfl, h.cancel _ (by simp) b p, Calm.of_load (fun _ => rfl)⟩
  | preauth_finished =>
    exact hsteady ⟨_, rfl, h.register hp env (by simp) (by simp), Calm.of_load load_register⟩
  | accounting_start => exact hsteady (h.accounting_start hp env)
  | accounting_stop => exact hsteady (h.accounting_stop hp)
  | new_assoc countermeasures accounting =>
    exact hsteady (h.new_assoc hp hgranted countermeasures accounting)
  | write flags reset =>
    have hmild : Mild (fun info : StaInfo => { info with
        flags := flags info.flags
        timeout_next := if reset then .STA_NULLFUNC else info.timeout_next }) :=
      ⟨fun _ => rfl, fun _ h => h⟩
    obtain ⟨s', hstore, h', -⟩ := h.store hp hmild
    refine ⟨s', lists, hstore, h', fun q hq => Near.of_load ?_⟩
    rw [load_store hstore, if_neg]
    exact fun heq => hq heq flags reset rfl

/-- What `os_zalloc` returns is not in use. -/
def Allowed (s : State n) : Event n → Prop
  | .add _ _ (some p) => s.load p = none
  | _ => True

/-- Every event of a run is allowed where it happens. -/
def AllAllowed (s : State n) : List (Env n × Event n) → Prop
  | [] => True
  | (env, e) :: events =>
      Allowed s e ∧
        match s.handle env e with
        | none => True
        | some s' => AllAllowed s' events

/-- The timer of the station is handled. -/
def State.polls (s : State n) (p : Ptr) : Event n → ℕ
  | .fire i =>
      match s.timeout[i]? with
      | none => 0
      | some t => if t.polls p then 1 else 0
  | _ => 0

/-- Nothing is received from the station: its frames and its answers to polls write nothing,
and the driver, when it is asked, has not heard from it either. -/
def Unheard (env : Env n) (s : State n) (p : Ptr) : Event n → Prop
  | .call b addr (.write _ _) => ap_get_sta s b addr ≠ some (some p)
  | .fire i =>
      match s.timeout[i]? with
      | none => True
      | some t => t.polls p → ((s.bss t.hapd).conf.ap_max_inactivity : ℤ) ≤ env.inactive_sec
  | _ => True

/-- Any of the timeouts runs. -/
theorem Good.fire (h : Good full [] s lists) (hgranted : Granted full env) (i : ℕ) :
    Holds full (fun s' => ∀ p, Unheard env s p (.fire i) → Near p (s.polls p (.fire i)) s s')
      (s.fire env i) := by
  unfold State.fire
  cases ht : s.timeout[i]? with
  | none =>
    refine h.holds (fun p _ => ?_)
    rw [State.polls, ht]
    exact Near.of_load rfl
  | some t =>
    have hmem := List.mem_of_getElem? ht
    refine ((h.taken ht).run_handler (h.timeouts t hmem) (h.accounting t hmem) hgranted).mono
      (fun s' hnear p hunheard => ?_)
    rw [Unheard, ht] at hunheard
    rw [State.polls, ht]
    exact hnear p hunheard

/-- One event: what a silent station loses with it. -/
theorem Good.handle (h : Good full [] s lists) (hgranted : Granted full env) {e : Event n}
    (hallowed : Allowed s e) :
    Holds full (fun s' => ∀ p, Unheard env s p e → Near p (s.polls p e) s s')
      (s.handle env e) := by
  cases e with
  | add b addr memory =>
    have hfresh : ∀ p, memory = some p → s.load p = none := by
      rintro p rfl
      exact hallowed
    obtain ⟨s', r, lists', hrun, h', hcalm⟩ := h.add hgranted hfresh b addr
    rw [State.handle, hrun]
    exact h'.holds (fun p _ => hcalm.near p)
  | call b addr c =>
    obtain ⟨r, hfound, hspec⟩ := get_sta_spec h.toView b addr
    rw [State.handle, hfound]
    cases r with
    | none => exact h.holds (fun p _ => Near.of_load rfl)
    | some p =>
      refine (h.perform ((hspec p).mp rfl).1 hgranted c).mono (fun s' hnear q hunheard => ?_)
      refine hnear q (fun hq flags reset hwrite => ?_)
      rw [hwrite, hq] at hunheard
      exact hunheard hfound
  | free_stas b => exact (h.free_stas b).mono (fun s' hfades p _ => hfades.near p)
  | fire i => exact h.fire hgranted i

theorem Good.run (h : Good full [] s lists) {events : List (Env n × Event n)}
    (hgranted : ∀ e ∈ events, Granted full e.1) (hallowed : AllAllowed s events) :
    Holds full (fun _ => True) (s.run events) := by
  induction events generalizing s lists with
  | nil => exact h.holds trivial
  | cons e events ih =>
    obtain ⟨env, e⟩ := e
    obtain ⟨hfirst, hrest⟩ := hallowed
    obtain ⟨s', lists', hrun, h', -⟩ := h.handle (hgranted _ List.mem_cons_self) hfirst
    rw [hrun] at hrest
    rw [State.run, hrun, Option.bind_some]
    exact ih h' (fun e he => hgranted e (List.mem_cons_of_mem _ he)) hrest

/-- Nothing is received from the station in a run. -/
def AllUnheard (p : Ptr) (s : State n) : List (Env n × Event n) → Prop
  | [] => True
  | (env, e) :: events =>
      Unheard env s p e ∧
        match s.handle env e with
        | none => True
        | some s' => AllUnheard p s' events

/-- How many times the timer of the station is handled in a run. -/
def State.allPolls (p : Ptr) (s : State n) : List (Env n × Event n) → ℕ
  | [] => 0
  | (env, e) :: events =>
      s.polls p e +
        match s.handle env e with
        | none => 0
        | some s' => s'.allPolls p events

theorem Good.silent_run (h : Good full [] s lists) {events : List (Env n × Event n)}
    (hgranted : ∀ e ∈ events, Granted full e.1) (hallowed : AllAllowed s events) {info : StaInfo}
    (hload : s.load p = some info) (hunheard : AllUnheard p s events)
    (hpolls : info.left ≤ s.allPolls p events) :
    ∃ k s', s.run (events.take k) = some s' ∧ s'.load p = none := by
  induction events generalizing s lists info with
  | nil =>
    have hpos := left_pos info
    rw [State.allPolls] at hpolls
    omega
  | cons e events ih =>
    obtain ⟨env, e⟩ := e
    obtain ⟨hfirst, hrest⟩ := hallowed
    obtain ⟨hsilent, hothers⟩ := hunheard
    obtain ⟨s', lists', hrun, h', hnear⟩ := h.handle (hgranted _ List.mem_cons_self) hfirst
    rw [hrun] at hrest hothers
    rw [State.allPolls, hrun] at hpolls
    simp only at hrest hothers hpolls
    rcases hnear p hsilent info hload with hnone | ⟨info', hload', hleft⟩
    · refine ⟨1, s', ?_, hnone⟩
      rw [List.take_succ_cons, List.take_zero, State.run, hrun]
      rfl
    · obtain ⟨k, s'', hrun', hgone⟩ := ih h'
        (fun e he => hgranted e (List.mem_cons_of_mem _ he)) hrest hload' hothers (by omega)
      refine ⟨k + 1, s'', ?_, hgone⟩
      rw [List.take_succ_cons, State.run, hrun, Option.bind_some]
      exact hrun'

/-- hostapd before its first event. -/
def State.init (conf : Fin n → Conf) : State n := { bss := fun b => { conf := conf b } }

theorem Good.init (full : Bool) (conf : Fin n → Conf) :
    Good full [] (State.init conf) (fun _ => []) := by
  have hload : ∀ p, (State.init conf).load p = none := fun _ => rfl
  refine ⟨⟨fun _ => .null, fun _ _ => .null, fun p => ?_, ?_, ?_, fun _ => rfl,
    fun _ => Nat.zero_le _⟩, ?_, ?_, ?_, ?_⟩
  · rw [hload]
    simp
  all_goals simp [State.init]

/-- Frames, reports of the driver and timeouts come in any order, and memory runs out at any
time: no function reads a station that has been freed. In the state reached, the list of each
BSS and its chains hold the same stations, which are the ones in memory; a lookup finds the
station with the address, a BSS has an address once and no more stations than it may. Each
timeout is about a station of its BSS, and a station has one timer at most. It has one as long
as every timeout got its memory. -/
theorem stations_stay_sound (conf : Fin n → Conf) (events : List (Env n × Event n))
    (hallowed : AllAllowed (State.init conf) events) :
    ∃ s lists, (State.init conf).run events = some s ∧ View s lists ∧
      (∀ b addr, ∃ r, ap_get_sta s b addr = some r ∧
        ∀ p, r = some p ↔ p ∈ lists b ∧ s.addrOf p = some addr) ∧
      (∀ t ∈ s.timeout, t.sta ∈ lists t.hapd) ∧
      (∀ b p, p ∈ lists b → s.timeout.count (timer b p) ≤ 1) ∧
      ((∀ e ∈ events, ∀ t, e.1.memory t = true) →
        ∀ b p, p ∈ lists b → s.timeout.count (timer b p) = 1) := by
  by_cases hmemory : ∀ e ∈ events, ∀ t, e.1.memory t = true
  · obtain ⟨s, lists, hrun, h, -⟩ :=
      (Good.init true conf).run (fun e he _ => hmemory e he) hallowed
    refine ⟨s, lists, hrun, h.toView, get_sta_spec h.toView, h.timeouts, h.once, fun _ b p hp => ?_⟩
    exact le_antisymm (h.once b p hp) (List.count_pos_iff.mpr (h.watched rfl b p hp))
  · obtain ⟨s, lists, hrun, h, -⟩ :=
      (Good.init false conf).run (fun _ _ hfull => by cases hfull) hallowed
    exact ⟨s, lists, hrun, h.toView, get_sta_spec h.toView, h.timeouts, h.once,
      fun hall => absurd hall hmemory⟩

def sampleConf : Conf := ⟨2, 300, false, true⟩

def client : Mac := #v[2, 0, 0, 0, 0, 7]

def firstBss : Fin 2 := ⟨0, Nat.two_pos⟩

def secondBss : Fin 2 := ⟨1, Nat.one_lt_two⟩

/-- A client associates with the first BSS and then with the second one; its timer frees it in
the first one, and it comes back to the same memory. -/
def sampleEvents : List (Env 2 × Event 2) :=
  [({}, .add firstBss client (some 100)),
    ({}, .call firstBss client (.write (· ||| (WLAN_STA_AUTH ||| WLAN_STA_ASSOC)) true)),
    ({}, .call firstBss client (.new_assoc false true)),
    ({}, .add secondBss client (some 200)),
    ({}, .fire 2),
    ({}, .add firstBss client (some 100))]

theorem stations_stay_sound_sample :
    AllAllowed (State.init (fun _ => sampleConf)) sampleEvents ∧
      ∃ s lists, (State.init (fun _ => sampleConf)).run sampleEvents = some s ∧ View s lists ∧
        s.timeout.length = 3 := by
  have hallowed : AllAllowed (State.init (fun _ => sampleConf)) sampleEvents :=
    ⟨rfl, trivial, trivial, rfl, trivial, rfl, trivial⟩
  have hlength : ((State.init (fun _ => sampleConf)).run sampleEvents).map
      (fun s => s.timeout.length) = some 3 := by decide
  obtain ⟨s, lists, hrun, v, -, -⟩ := stations_stay_sound (fun _ => sampleConf) sampleEvents hallowed
  rw [hrun] at hlength
  exact ⟨hallowed, s, lists, hrun, v, Option.some.inj hlength⟩

/-- A station that is not heard from any more is freed when its timer has run four times, or
three times if it has not just answered a poll. Other stations may come and go, frames may be
sent to it or reported lost, and other timeouts run in between. -/
theorem silent_station_leaves (conf : Fin n → Conf) (before after : List (Env n × Event n))
    (hbefore : AllAllowed (State.init conf) before) (hrun : (State.init conf).run before = some s)
    (hafter : AllAllowed s after) {info : StaInfo} (hload : s.load p = some info)
    (hunheard : AllUnheard p s after) (hpolls : info.left ≤ s.allPolls p after) :
    ∃ k s', s.run (after.take k) = some s' ∧ s'.load p = none := by
  obtain ⟨s₁, lists, hrun₁, h, -⟩ :=
    (Good.init false conf).run (fun _ _ hfull => by cases hfull) hbefore
  obtain rfl : s = s₁ := Option.some.inj (hrun.symm.trans hrun₁)
  exact h.silent_run (fun _ _ hfull => by cases hfull) hafter hload hunheard hpolls

/-- A client associates, and its accounting starts. -/
def associated : List (Env 1 × Event 1) :=
  [({}, .add 0 client (some 100)),
    ({}, .call 0 client (.write (· ||| (WLAN_STA_AUTH ||| WLAN_STA_ASSOC)) true)),
    ({}, .call 0 client (.new_assoc false true))]

/-- It is polled, disassociated and freed. -/
def silence : List (Env 1 × Event 1) :=
  [({ inactive_sec := 400 }, .fire 1), ({ inactive_sec := 400 }, .fire 1),
    ({ inactive_sec := 400 }, .fire 0)]

theorem silent_station_leaves_sample :
    ∃ s, (State.init (fun _ => sampleConf)).run associated = some s ∧
      ∃ k s', s.run (silence.take k) = some s' ∧ s'.load 100 = none := by
  have hallowed : AllAllowed (State.init (fun _ => sampleConf)) associated :=
    ⟨rfl, trivial, trivial, trivial⟩
  refine ⟨_, rfl, silent_station_leaves _ associated silence hallowed rfl ?_ rfl ?_ ?_⟩
  · exact ⟨trivial, trivial, trivial, trivial⟩
  · refine ⟨fun _ => ?_, fun _ => ?_, fun _ => ?_, trivial⟩
    · decide
    · decide
    · decide
  · decide

end Events

end Nxwlan.StationLists
