import Mathlib.Data.Multiset.MapFold
import Nxwlan.BlockAckWindow

/-!
Completions of aggregates, starts and stops of sessions, and whole runs. The marks and the
start of the window belong to the frames that are under way, whatever the transmissions
report, and no frame is lost or completed twice.
-/
namespace Nxwlan.BlockAck

open RingWindow

section Completions

variable {s : State} {tid : Tid} {U X : List Frame} {a t : ℕ} {f f' : Frame} {ts : Status}
  {isaggr : Bool}

theorem SameQueues.trans {tid' tid'' : Tid} (h : SameQueues tid tid') (h' : SameQueues tid' tid'') :
    SameQueues tid tid'' :=
  ⟨h'.seq_next.trans h.seq_next, h'.baw_size.trans h.baw_size, h'.active.trans h.active,
    h'.buf_q.trans h.buf_q, h'.retry_q.trans h.retry_q⟩

/-- A frame with another count of retries. -/
theorem Window.replace (h : Window tid (f :: U) a t) (hseqno : f'.seqno = f.seqno)
    (htracked : f'.baw_tracked = f.baw_tracked) : Window tid (f' :: U) a t := by
  have houtstanding : ∀ n, Outstanding (f :: U) a t n ↔ Outstanding (f' :: U) a t n := by
    intro n
    simp only [Outstanding, List.exists_mem_cons_iff, hseqno]
  refine ⟨⟨h.start, h.ring.congr houtstanding, h.tail, h.size, h.span, ?_, ?_, ?_, h.bar⟩, ?_⟩
  · intro g hg
    rcases List.mem_cons.mp hg with rfl | hg
    · rw [hseqno]
      exact h.numbered f List.mem_cons_self
    · exact h.numbered g (List.mem_cons_of_mem f hg)
  · rw [List.map_cons, hseqno]
    exact h.nodup
  · intro g hg
    rcases List.mem_cons.mp hg with rfl | hg
    · rw [htracked]
      exact h.tracked f List.mem_cons_self
    · exact h.tracked g (List.mem_cons_of_mem f hg)
  · intro hlt
    obtain ⟨g, hg, hgs⟩ := h.first hlt
    rcases List.mem_cons.mp hg with rfl | hg
    · exact ⟨f', List.mem_cons_self, hseqno.trans hgs⟩
    · exact ⟨g, List.mem_cons_of_mem f' hg, hgs⟩

/-- Only a frame of a running session is sent again. -/
theorem fateOf_retry (h : fateOf ts isaggr tid f = .retry f') : tid.active = true ∧
    f'.id = f.id ∧ f'.seqno = f.seqno ∧ f'.baw_tracked = f.baw_tracked ∧ f'.ampdu = f.ampdu := by
  unfold fateOf at h
  dsimp only at h
  split at h
  · cases h
  · rename_i hwithin
    rw [not_or, Bool.not_eq_false, Bool.not_eq_false] at hwithin
    refine ⟨hwithin.2, ?_⟩
    split at h
    · cases h
    · split at h
      · cases h
      · split at h
        · obtain rfl := Fate.retry.inj h
          exact ⟨rfl, rfl, rfl, rfl⟩
        · split at h
          · split at h
            · rw [← Fate.retry.inj h]
              exact ⟨rfl, rfl, rfl, rfl⟩
            · rw [← Fate.retry.inj h]
              exact ⟨rfl, rfl, rfl, rfl⟩
          · cases h

/-- The loop over a transmission that began with the window at `a₀`; the frames `R` are left. -/
structure Looping (s₀ : State) (l : Loop) (X R : List Frame) (a₀ a t : ℕ) : Prop where
  window : Window l.s.tid (R ++ (X ++ l.bf_pending)) a t
  same : SameQueues s₀.tid l.s.tid
  hw : l.s.hw = s₀.hw
  le : a₀ ≤ a
  span : t - a₀ ≤ 64
  low : -1 ≤ l.bar_index
  bar : l.bar_index < (t - a₀ : ℕ)
  flags : s₀.tid.active = true → ∀ f ∈ R, f.ampdu = true
  pending : ∀ f ∈ l.bf_pending, s₀.tid.active = true ∧ f.ampdu = true

variable {s₀ : State} {l : Loop} {R : List Frame} {a₀ : ℕ}

theorem Looping.finish (h : Looping s₀ l X (f :: R) a₀ a t) (hseqno : f'.seqno = f.seqno)
    (ok : Bool) : ∃ a', Looping s₀ (l.finish f' ok) X R a₀ a' t := by
  obtain ⟨a', hle, hupdated⟩ := h.window.update
  rw [← hseqno] at hupdated
  exact ⟨a', hupdated, h.same.trans (update_same l.s.tid (f'.seqno.getD 0)), h.hw, h.le.trans hle,
    h.span, h.low, h.bar, fun hact g hg => h.flags hact g (List.mem_cons_of_mem f hg), h.pending⟩

/-- The BAR is about a number of the window in which the transmission began. -/
theorem Looping.raise (h : Looping s₀ l X R a₀ a t) {n : ℕ} (hn : a₀ ≤ n ∧ n < t) :
    Looping s₀ (l.bar (a₀ % 4096) (n % 4096)) X R a₀ a t := by
  have hspan := h.span
  have hlow := h.low
  have hbar := h.bar
  have hindex : ATH_BA_INDEX (a₀ % 4096) (n % 4096) = n - a₀ := index_eq hn.1 (by omega)
  refine ⟨h.window, h.same, h.hw, h.le, h.span, ?_, ?_, h.flags, h.pending⟩
  · simp only [Loop.bar]
    omega
  · simp only [Loop.bar, hindex]
    omega

theorem Looping.frame (h : Looping s₀ l X (f :: R) a₀ a t) (ts : Status) (isaggr last : Bool) :
    ∃ a', Looping s₀ (completeFrame ts isaggr (a₀ % 4096) last l f) X R a₀ a' t := by
  obtain ⟨n, hle, hlt, hseqno, -, -⟩ := h.window.within (List.mem_append_left _ List.mem_cons_self)
  have hn : a₀ ≤ n ∧ n < t := ⟨h.le.trans hle, hlt⟩
  have hseqno' : f.seqno.getD 0 = n % 4096 := by rw [hseqno]; rfl
  rw [completeFrame]
  cases hfate : fateOf ts isaggr l.s.tid f with
  | done => exact h.finish rfl true
  | failed => exact h.finish rfl false
  | givenUp =>
    dsimp only
    rw [hseqno']
    exact (h.raise hn).finish rfl false
  | retry f' =>
    obtain ⟨hactive, -, hsame, htracked, hampdu⟩ := fateOf_retry hfate
    rw [h.same.active] at hactive
    dsimp only
    split
    · obtain ⟨a', hfinished⟩ := h.finish hsame false
      rw [hseqno']
      exact ⟨a', hfinished.raise hn⟩
    · refine ⟨a, ?_, h.same, h.hw, h.le, h.span, h.low, h.bar,
        fun hact g hg => h.flags hact g (List.mem_cons_of_mem f hg), ?_⟩
      · refine (Window.replace h.window hsame htracked).perm ?_
        dsimp only
        rw [← List.append_assoc X, ← List.append_assoc R]
        exact (List.perm_append_singleton f' _).symm
      · intro g hg
        rcases List.mem_append.mp hg with hg | hg
        · exact h.pending g hg
        · rw [List.mem_singleton.mp hg, hampdu]
          exact ⟨hactive, h.flags hactive f List.mem_cons_self⟩

theorem Looping.frames (h : Looping s₀ l X R a₀ a t) (ts : Status) (isaggr : Bool) :
    ∃ a', Looping s₀ (completeFrames ts isaggr (a₀ % 4096) R l) X [] a₀ a' t := by
  induction R generalizing l a with
  | nil => exact ⟨a, h⟩
  | cons f rest ih =>
    obtain ⟨a', hframe⟩ := h.frame ts isaggr rest.isEmpty
    exact ih hframe

/-- Of the numbers of an earlier window, those that are within the present one are in it. -/
theorem index_lt {n : ℕ} (hle : a₀ ≤ a ∧ a ≤ t) (hn : a₀ ≤ n ∧ n < t) (hspan : t - a₀ ≤ 64)
    {size : ℕ} (hsize : size ≤ 64) (hwithin : BAW_WITHIN (a % 4096) size (n % 4096) = true) :
    ATH_BA_INDEX (a % 4096) (n % 4096) < t - a := by
  have hindex : ATH_BA_INDEX (a % 4096) (n % 4096) < size := of_decide_eq_true hwithin
  by_cases han : a ≤ n
  · rw [index_eq han (by omega)]
    omega
  · unfold ATH_BA_INDEX at hindex ⊢
    omega

/-- The end of a transmission: a new `bar_index` is about a frame that was sent. -/
theorem Looping.close (h : Looping s₀ l (X ++ s₀.tid.retry_q) [] a₀ a t) :
    Window (l.close (a₀ % 4096)).tid (X ++ (l.close (a₀ % 4096)).tid.retry_q) a t ∧
      (l.close (a₀ % 4096)).tid.retry_q = s₀.tid.retry_q ++ l.bf_pending ∧
      (l.close (a₀ % 4096)).tid.active = s₀.tid.active ∧
      (l.close (a₀ % 4096)).tid.seq_next = s₀.tid.seq_next ∧
      (l.close (a₀ % 4096)).tid.buf_q = s₀.tid.buf_q ∧ (l.close (a₀ % 4096)).hw = s₀.hw := by
  have hsame := h.same
  have hwindow : Window (l.s.setRetry (l.s.tid.retry_q ++ l.bf_pending)).tid
      (X ++ (s₀.tid.retry_q ++ l.bf_pending)) a t := by
    rw [← List.append_assoc]
    exact h.window.requeue _ _ _ _
  rw [Loop.close]
  dsimp only
  rw [← hsame.retry_q] at hwindow ⊢
  split
  · split
    · rename_i hbar hwithin
      refine ⟨?_, rfl, hsame.active, hsame.seq_next, hsame.buf_q, h.hw⟩
      have hlt := h.bar
      have hseq : ATH_BA_INDEX2SEQ (a₀ % 4096) l.bar_index.toNat =
          (a₀ + l.bar_index.toNat) % 4096 := by
        unfold ATH_BA_INDEX2SEQ IEEE80211_SEQ_MAX
        omega
      rw [hseq] at hwithin ⊢
      have hindex : ATH_BA_INDEX (l.s.setRetry (l.s.tid.retry_q ++ l.bf_pending)).tid.seq_start
          ((a₀ + l.bar_index.toNat) % 4096) < t - a := by
        rw [hwindow.start] at hwithin ⊢
        exact index_lt ⟨h.le, hwindow.ring.le⟩ (by omega) h.span hwindow.size hwithin
      exact ⟨⟨hwindow.start, hwindow.ring, hwindow.tail, hwindow.size, hwindow.span,
        hwindow.numbered, hwindow.nodup, hwindow.tracked, Int.ofNat_lt.mpr hindex⟩, hwindow.first⟩
    · exact ⟨hwindow, rfl, hsame.active, hsame.seq_next, hsame.buf_q, h.hw⟩
  · exact ⟨hwindow, rfl, hsame.active, hsame.seq_next, hsame.buf_q, h.hw⟩

/-- What is left of a transmission. -/
structure Completed (s s' : State) (X : List Frame) (a t : ℕ) : Prop where
  window : Window s'.tid (X ++ s'.tid.retry_q) a t
  retry_q : ∃ pending, s'.tid.retry_q = s.tid.retry_q ++ pending ∧
    ∀ f ∈ pending, s.tid.active = true ∧ f.ampdu = true
  active : s'.tid.active = s.tid.active
  seq_next : s'.tid.seq_next = s.tid.seq_next
  buf_q : s'.tid.buf_q = s.tid.buf_q
  hw : s'.hw = s.hw

theorem complete_aggr {aggr : List Frame} (ts : Status)
    (h : Window s.tid (aggr ++ (X ++ s.tid.retry_q)) a t)
    (hflags : s.tid.active = true → ∀ f ∈ aggr, f.ampdu = true) :
    ∃ a', Completed s (ath_tx_complete_aggr true ts aggr s) X a' t := by
  have hspan := h.span
  have hsize := h.size
  have hle := h.ring.le
  have hstart : Looping s { s := s } (X ++ s.tid.retry_q) aggr a a t := by
    refine ⟨by rwa [List.append_nil], ⟨rfl, rfl, rfl, rfl, rfl⟩, rfl, le_rfl, by omega, le_rfl, ?_,
      hflags, fun _ hf => by cases hf⟩
    change (-1 : ℤ) < _
    omega
  obtain ⟨a', hlooped⟩ := hstart.frames ts (decide (2 ≤ aggr.length))
  obtain ⟨hwindow, hretry, hactive, hnext, hbuf, hhw⟩ := hlooped.close
  rw [ath_tx_complete_aggr, if_pos rfl, h.start]
  exact ⟨a', hwindow, ⟨_, hretry, hlooped.pending⟩, hactive, hnext, hbuf, hhw⟩

end Completions

section Sessions

variable {s : State} {X : List Frame} {a t i : ℕ} {f : Frame} {aggr : List Frame}

/-- A transmission is taken out of the hardware. -/
theorem flatten_eraseIdx {hw : List (List Frame)} (h : hw[i]? = some aggr) :
    hw.flatten.Perm (aggr ++ (hw.eraseIdx i).flatten) := by
  obtain ⟨hlt, rfl⟩ := List.getElem?_eq_some_iff.mp h
  exact (List.getElem_cons_eraseIdx_perm hlt).flatten.symm

theorem Session.complete (h : Session s s.hw.flatten a t) (ts : Status)
    (hi : s.hw[i]? = some aggr) :
    ∃ a' s', s' = ath_tx_complete_aggr true ts aggr { s with hw := s.hw.eraseIdx i } ∧
      Session s' s'.hw.flatten a' t := by
  have hperm : (s.hw.flatten ++ s.tid.retry_q).Perm
      (aggr ++ ((s.hw.eraseIdx i).flatten ++ s.tid.retry_q)) := by
    rw [← List.append_assoc]
    exact (flatten_eraseIdx hi).append_right _
  have hflags : ∀ f ∈ aggr ++ ((s.hw.eraseIdx i).flatten ++ s.tid.retry_q), f.ampdu = true :=
    fun f hf => h.flags f (hperm.mem_iff.mpr hf)
  obtain ⟨a', hdone⟩ := @complete_aggr { s with hw := s.hw.eraseIdx i } _ _ _ aggr ts
    (h.window.perm hperm) (fun _ f hf => hflags f (List.mem_append_left _ hf))
  obtain ⟨pending, hretry, hpending⟩ := hdone.retry_q
  refine ⟨a', _, rfl, ?_, hdone.active.trans h.active, ?_, ?_⟩
  · rw [hdone.hw]
    exact hdone.window
  · intro f hf
    rw [hdone.hw, hretry, ← List.append_assoc] at hf
    rcases List.mem_append.mp hf with hf | hf
    · exact hflags f (List.mem_append_right _ hf)
    · exact (hpending f hf).2
  · rw [hdone.seq_next, hdone.buf_q]
    exact h.queue

theorem Idle.complete (h : Idle s s.hw.flatten a t) (ts : Status) (hi : s.hw[i]? = some aggr) :
    ∃ a' s', s' = ath_tx_complete_aggr true ts aggr { s with hw := s.hw.eraseIdx i } ∧
      Idle s' s'.hw.flatten a' t := by
  have hwindow : Window s.tid (aggr ++ ((s.hw.eraseIdx i).flatten ++ s.tid.retry_q)) a t := by
    rw [h.retry_q, List.append_nil]
    exact h.window.perm (flatten_eraseIdx hi)
  have hinactive := h.inactive
  obtain ⟨a', hdone⟩ := @complete_aggr { s with hw := s.hw.eraseIdx i } _ _ _ aggr ts hwindow
    (fun hactive => by rw [hinactive] at hactive; cases hactive)
  obtain ⟨pending, hretry, hpending⟩ := hdone.retry_q
  have hnone : pending = [] := by
    refine List.eq_nil_iff_forall_not_mem.mpr (fun f hf => ?_)
    have hactive := (hpending f hf).1
    rw [hinactive] at hactive
    cases hactive
  have hempty :
      (ath_tx_complete_aggr true ts aggr { s with hw := s.hw.eraseIdx i }).tid.retry_q = [] := by
    rw [hretry, hnone, List.append_nil]
    exact h.retry_q
  refine ⟨a', _, rfl, ?_, hdone.active.trans hinactive, hempty, ?_⟩
  · have hleft := hdone.window
    rw [hempty, List.append_nil] at hleft
    rw [hdone.hw]
    exact hleft
  · rw [hdone.seq_next]
    exact h.next

theorem Queue.next_lt {next : ℕ} {q : List Frame} (h : Queue t next q) : next < 4096 := by
  cases h with
  | waiting => exact Nat.mod_lt _ (by decide)
  | numbered => exact Nat.mod_lt _ (by decide)

/-- A new frame of the session. -/
theorem Queue.append_fresh {next : ℕ} {q : List Frame} (h : Queue t next q) (hf : Fresh f) :
    Queue t next (q ++ [f]) := by
  have happend : ∀ new : List Frame, (∀ g ∈ new, Fresh g) → ∀ g ∈ new ++ [f], Fresh g := by
    intro new hnew g hg
    rcases List.mem_append.mp hg with hg | hg
    · exact hnew g hg
    · rw [List.mem_singleton.mp hg]
      exact hf
  cases h with
  | waiting old new hold hnew =>
    rw [List.append_assoc]
    exact .waiting old (new ++ [f]) hold (happend new hnew)
  | numbered g new hg hnew => exact .numbered g (new ++ [f]) hg (happend new hnew)

/-- A session ends, or a failed attempt to start one. -/
theorem stop_idle (buffer : Frame → Setup) (h : Window s.tid (X ++ s.tid.retry_q) a t)
    (hnext : s.tid.seq_next < 4096) :
    ∃ a', Idle (ath_tx_aggr_stop buffer s) X a' t ∧ (ath_tx_aggr_stop buffer s).hw = s.hw := by
  obtain ⟨a', hflushed, hinactive, hretry, hsame, hhw⟩ :=
    @flush_tid { s with tid := { s.tid with active := false } } X s.tid.retry_q a t rfl
      (h.requeue _ _ _ _)
  rw [ath_tx_aggr_stop, ath_tx_tid_change_state]
  generalize ath_tx_flush_tid s.tid.retry_q { s with tid := { s.tid with active := false } } = s'
    at hflushed hinactive hretry hsame hhw ⊢
  obtain ⟨next, htid, hhw', hlt, -⟩ := changeState_frames buffer s'.tid.buf_q s'
  have hidle : Idle s' X a' t := ⟨hflushed, hinactive, hretry, by rw [hsame]; exact hnext⟩
  have hchanged : ((changeState buffer s'.tid.buf_q s').1.setBuf
      (changeState buffer s'.tid.buf_q s').2).tid = { s'.tid with
        seq_next := next, buf_q := (changeState buffer s'.tid.buf_q s').2 } := by
    rw [State.setBuf, htid]
  exact ⟨a', hidle.requeue hchanged (hlt hidle.next), hhw'.trans hhw⟩

/-- A session starts with an empty window. -/
theorem Idle.start (h : Idle s [] a t) (buffer : Frame → Setup) :
    ∃ t', Session (ath_tx_aggr_start buffer s) [] t' t' ∧
      (ath_tx_aggr_start buffer s).hw = s.hw := by
  obtain ⟨next, htid, hhw, hlt, hframes⟩ := changeState_frames buffer s.tid.buf_q s
  have hnext : next % 4096 = next := Nat.mod_eq_of_lt (hlt h.next)
  have htid' : (ath_tx_aggr_start buffer s).tid = { s.tid with
      seq_next := next, seq_start := next, active := true, bar_index := -1, tx_buf := 0,
      baw_head := 0, baw_tail := 0, buf_q := (changeState buffer s.tid.buf_q s).2 } := by
    simp only [ath_tx_aggr_start, ath_tx_tid_change_state, State.setBuf, htid]
  refine ⟨next, ⟨?_, by rw [htid'], ?_, ?_⟩, hhw⟩
  · rw [List.nil_append, htid', h.retry_q]
    have hring : Holds 128 (0 : BitVec 128).getLsbD 0 next next (Outstanding [] next next) := by
      refine (Holds.empty (by decide) (fun k _ => BitVec.getLsbD_zero)).congr (fun n => ?_)
      simp [Outstanding]
    refine ⟨⟨hnext.symm, hring, (slot_start (by decide : 0 < 128)).symm, h.window.size, ?_,
      (fun _ hf => by cases hf), List.nodup_nil, (fun _ hf => by cases hf), ?_⟩,
      fun hlt => absurd hlt (lt_irrefl next)⟩
    · rw [Nat.sub_self]
      exact Nat.zero_le _
    · change (-1 : ℤ) < _
      omega
  · intro f hf
    rw [List.nil_append, htid', h.retry_q] at hf
    cases hf
  · have hqueue := Queue.waiting (t := next) _ [] hframes (fun _ hg => by cases hg)
    rw [hnext, List.append_nil] at hqueue
    rw [htid']
    exact hqueue

/-- The size of the window is set while no frame is under way. -/
theorem Window.resize {tid : Tid} (h : Window tid [] a t) (ampdu_factor : Fin 4) :
    Window { tid with baw_size := 8 <<< ampdu_factor.val } [] a t := by
  have hempty : ¬ a < t := by
    intro hlt
    obtain ⟨f, hf, -⟩ := h.first hlt
    cases hf
  have hsize : 8 <<< ampdu_factor.val ≤ 64 := by
    revert ampdu_factor
    decide
  refine ⟨⟨h.start, h.ring, h.tail, hsize, ?_, (fun _ hf => by cases hf), List.nodup_nil,
    (fun _ hf => by cases hf), h.bar⟩, fun hlt => absurd hlt hempty⟩
  change t - a ≤ 8 <<< ampdu_factor.val
  rw [Nat.sub_eq_zero_of_le (not_lt.mp hempty)]
  exact Nat.zero_le _

end Sessions

section Safety

variable {s : State}

/-- The state of a driver between two events. -/
def Inv (s : State) : Prop :=
  ∃ a t, Session s s.hw.flatten a t ∨ Idle s s.hw.flatten a t

theorem inv_initial : Inv {} := by
  have hring : Holds 128 (0 : BitVec 128).getLsbD 0 0 0 (Outstanding [] 0 0) := by
    refine (Holds.empty (by decide) (fun k _ => BitVec.getLsbD_zero)).congr (fun n => ?_)
    simp [Outstanding]
  refine ⟨0, 0, Or.inr ⟨⟨⟨rfl, hring, rfl, le_rfl, Nat.zero_le _, (fun _ hf => by cases hf),
    List.nodup_nil, (fun _ hf => by cases hf), ?_⟩, fun hlt => absurd hlt (lt_irrefl 0)⟩,
    rfl, rfl, by decide⟩⟩
  change (-1 : ℤ) < _
  omega

/-- A step keeps the session. -/
theorem Inv.handle (h : Inv s) {e : Event} (hallowed : Allowed s e) : Inv (s.handle e) := by
  obtain ⟨a, t, hsession | hidle⟩ := h
  · cases e with
    | queue id ampdu =>
      have hfresh : Fresh { id, ampdu } := ⟨hallowed hsession.active, rfl, rfl⟩
      exact ⟨a, t, Or.inl ⟨hsession.window.requeue _ _ _ _, hsession.active, hsession.flags,
        hsession.queue.append_fresh hfresh⟩⟩
    | sched buffer fits busy =>
      obtain ⟨a', t', hsent⟩ := hsession.sched_aggr (hallowed hsession.active) fits busy
      exact ⟨a', t', Or.inl hsent⟩
    | complete i sta ts =>
      obtain rfl : sta = true := hallowed
      rw [State.handle]
      cases hi : s.hw[i]? with
      | none => exact ⟨a, t, Or.inl hsession⟩
      | some aggr =>
        obtain ⟨a', s', rfl, hdone⟩ := hsession.complete ts hi
        exact ⟨a', t, Or.inl hdone⟩
    | start buffer =>
      have hactive := hsession.active
      rw [hallowed.1] at hactive
      cases hactive
    | stop buffer =>
      obtain ⟨a', hstopped, hhw⟩ := stop_idle buffer hsession.window hsession.queue.next_lt
      rw [← hhw] at hstopped
      exact ⟨a', t, Or.inr hstopped⟩
    | resume ampdu_factor =>
      have hnone : s.hw.flatten ++ s.tid.retry_q = [] := hallowed
      have hwindow := hsession.window
      rw [hnone] at hwindow
      refine ⟨a, t, Or.inl ⟨?_, hsession.active, hsession.flags, hsession.queue⟩⟩
      change Window _ (s.hw.flatten ++ s.tid.retry_q) a t
      rw [hnone]
      exact hwindow.resize ampdu_factor
  · cases e with
    | queue id ampdu => exact ⟨a, t, Or.inr (hidle.requeue rfl hidle.next)⟩
    | sched buffer fits busy =>
      obtain ⟨hsent, hhw⟩ := hidle.sched_aggr buffer fits busy
      rw [← hhw] at hsent
      exact ⟨a, t, Or.inr hsent⟩
    | complete i sta ts =>
      obtain rfl : sta = true := hallowed
      rw [State.handle]
      cases hi : s.hw[i]? with
      | none => exact ⟨a, t, Or.inr hidle⟩
      | some aggr =>
        obtain ⟨a', s', rfl, hdone⟩ := hidle.complete ts hi
        exact ⟨a', t, Or.inr hdone⟩
    | start buffer =>
      have hhw : s.hw.flatten = [] := by rw [hallowed.2, List.flatten_nil]
      rw [hhw] at hidle
      obtain ⟨t', hstarted, hsame⟩ := hidle.start buffer
      rw [← hhw, ← hsame] at hstarted
      exact ⟨t', t', Or.inl hstarted⟩
    | stop buffer =>
      have hwindow : Window s.tid (s.hw.flatten ++ s.tid.retry_q) a t := by
        rw [hidle.retry_q, List.append_nil]
        exact hidle.window
      obtain ⟨a', hstopped, hhw⟩ := stop_idle buffer hwindow hidle.next
      rw [← hhw] at hstopped
      exact ⟨a', t, Or.inr hstopped⟩
    | resume ampdu_factor =>
      have hnone : s.hw.flatten = [] := (List.append_eq_nil_iff.mp hallowed).1
      have hwindow := hidle.window
      rw [hnone] at hwindow
      refine ⟨a, t, Or.inr ⟨?_, hidle.inactive, hidle.retry_q, hidle.next⟩⟩
      change Window _ s.hw.flatten a t
      rw [hnone]
      exact hwindow.resize ampdu_factor

theorem Inv.run (h : Inv s) (events : List Event) (hallowed : AllAllowed s events) :
    Inv (s.run events) := by
  induction events generalizing s with
  | nil => exact h
  | cons e events ih => exact ih (h.handle hallowed.1) hallowed.2

theorem Inv.window (h : Inv s) : ∃ a t, Window s.tid s.under a t := by
  obtain ⟨a, t, hsession | hidle⟩ := h
  · exact ⟨a, t, hsession.window⟩
  · refine ⟨a, t, ?_⟩
    rw [State.under, hidle.retry_q, List.append_nil]
    exact hidle.window

/-- The place of a number in the map of the session. -/
def Tid.place (tid : Tid) (seqno : ℕ) : ℕ :=
  (tid.baw_head + ATH_BA_INDEX tid.seq_start seqno) % ATH_TID_MAX_BUFS

/-- The map and the start of the window belong to the frames under way. -/
structure Exact (s : State) : Prop where
  distinct : (s.under.map Frame.seqno).Nodup
  within : ∀ f ∈ s.under, ∃ n, f.seqno = some n ∧ BAW_WITHIN s.tid.seq_start s.tid.baw_size n = true
  marks : ∀ k, s.tid.tx_buf.getLsbD k = true ↔
    ∃ f ∈ s.under, ∃ n, f.seqno = some n ∧ k = s.tid.place n
  oldest : s.under ≠ [] → ∃ f ∈ s.under, f.seqno = some s.tid.seq_start
  closed : s.under = [] ↔ s.tid.baw_head = s.tid.baw_tail

theorem Window.exact {a t : ℕ} (h : Window s.tid s.under a t) : Exact s := by
  have hopen : ∀ f ∈ s.under, a < t := by
    intro f hf
    obtain ⟨n, hle, hlt, -⟩ := h.numbered f hf
    omega
  have hplace : ∀ n, a ≤ n → n < t → s.tid.place (n % 4096) = slot 128 s.tid.baw_head a n := by
    intro n hle hlt
    have hsize := h.size
    have hspan := h.span
    rw [Tid.place, h.start, index_eq hle (by omega)]
    rfl
  refine ⟨h.nodup, ?_, ?_, ?_, ?_⟩
  · intro f hf
    obtain ⟨n, -, -, hseqno, -, hwithin⟩ := h.within hf
    exact ⟨n % 4096, hseqno, hwithin⟩
  · intro k
    by_cases hk : k < 128
    · rw [h.ring.marks k hk]
      constructor
      · rintro ⟨n, ⟨hle, hlt, f, hf, hseqno⟩, rfl⟩
        exact ⟨f, hf, n % 4096, hseqno, (hplace n hle hlt).symm⟩
      · rintro ⟨f, hf, m, hm, rfl⟩
        obtain ⟨n, hle, hlt, hseqno⟩ := h.numbered f hf
        obtain rfl : n % 4096 = m := Option.some.inj (hseqno.symm.trans hm)
        exact ⟨n, ⟨hle, hlt, f, hf, hseqno⟩, (hplace n hle hlt).symm⟩
    · rw [BitVec.getLsbD_of_ge _ _ (by omega)]
      constructor
      · intro hfalse
        cases hfalse
      · rintro ⟨f, hf, m, hm, rfl⟩
        exact absurd (Nat.mod_lt _ (by decide)) hk
  · intro hne
    obtain ⟨f, hf⟩ := List.exists_mem_of_ne_nil _ hne
    rw [h.start]
    exact h.first (hopen f hf)
  · rw [h.tail, eq_comm (a := s.tid.baw_head), h.ring.slot_end_iff]
    constructor
    · intro hnone
      have hle := h.ring.le
      by_contra hne
      obtain ⟨f, hf, -⟩ := h.first (by omega)
      rw [hnone] at hf
      cases hf
    · rintro rfl
      refine List.eq_nil_iff_forall_not_mem.mpr (fun f hf => ?_)
      exact lt_irrefl a (hopen f hf)

/-- Whatever the transmissions report, and in whatever order, the frames under way have
different numbers within the window, the map has exactly their marks, and the window starts
with one of them. -/
theorem marks_follow_frames (events : List Event) (hallowed : AllAllowed {} events) :
    Exact (State.run {} events) := by
  obtain ⟨a, t, hwindow⟩ := (inv_initial.run events hallowed).window
  exact hwindow.exact

/-- Of three frames, the middle one is acknowledged. -/
def sampleEvents : List Event :=
  [.start fun _ => .mapped, .resume 3, .queue 1 true, .queue 2 true, .queue 3 true,
    .sched (fun _ => .mapped) (fun _ _ => true) false,
    .complete 0 true {
      txok := true, isba := true, sameTid := true, ts_seqnum := 0, ba := 2, flush := false,
      sleeping := false, retries := 1, noClone := false }]

theorem sampleEvents_allowed : AllAllowed {} sampleEvents :=
  ⟨⟨rfl, rfl⟩, rfl, fun _ => rfl, fun _ => rfl, fun _ => rfl, fun _ f => by simp, rfl, trivial⟩

theorem marks_follow_frames_sample :
    Exact (State.run {} sampleEvents) ∧
      (State.run {} sampleEvents).under.map Frame.seqno = [some 0, some 2] :=
  ⟨marks_follow_frames sampleEvents sampleEvents_allowed, by decide⟩

/-- A frame that cannot be mapped leaves its number behind: the window starts with it, and no
frame has it. -/
def unmappedEvents : List Event :=
  [.start fun _ => .mapped, .resume 3, .queue 1 true, .queue 2 true,
    .sched (fun f => if f.id = 1 then .unmapped else .mapped) (fun _ _ => true) false]

example : (State.run {} unmappedEvents).tid.seq_start = 0 ∧
    (State.run {} unmappedEvents).under.map Frame.seqno = [some 1] := by decide

end Safety

end Nxwlan.BlockAck
