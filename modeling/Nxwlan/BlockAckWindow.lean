import Nxwlan.BlockAck

/-!
Runs of a block-ack session: frames are queued, sent in aggregates, and completed with any
status, sessions are started and stopped. What is queued and sent keeps the window: it
begins with a frame under way, and the frames under way have places of their own in it.
-/
namespace Nxwlan.BlockAck

open RingWindow

section Runs

/-- What happens to a session; `queue` is a frame from the stack above, and the rest stands for
the function of its name. -/
inductive Event where
  | queue (id : ℕ) (ampdu : Bool)
  | sched (buffer : Frame → Setup) (fits : List Frame → Frame → Bool) (busy : Bool)
  | complete (i : ℕ) (sta : Bool) (ts : Status)
  | start (buffer : Frame → Setup)
  | stop (buffer : Frame → Setup)
  | resume (ampdu_factor : Fin 4)

def State.handle (s : State) : Event → State
  | .queue id ampdu => s.setBuf (s.tid.buf_q ++ [{ id, ampdu }])
  | .sched buffer fits busy => ath_tx_sched_aggr buffer fits busy s
  | .complete i sta ts =>
      match s.hw[i]? with
      | none => s
      | some aggr => ath_tx_complete_aggr sta ts aggr { s with hw := s.hw.eraseIdx i }
  | .start buffer => ath_tx_aggr_start buffer s
  | .stop buffer => ath_tx_aggr_stop buffer s
  | .resume ampdu_factor => ath_tx_aggr_resume ampdu_factor s

def State.run (s : State) (events : List Event) : State := events.foldl State.handle s

/-- The frames that were sent in a session and are not through. -/
def State.under (s : State) : List Frame := s.hw.flatten ++ s.tid.retry_q

/-- During a session, the stack above marks all frames for it, their buffers are mapped, and
the station is there. A session starts when the frames of an earlier one have left the
hardware, and its window is set before the first frame of it. -/
def Allowed (s : State) : Event → Prop
  | .queue _ ampdu => s.tid.active = true → ampdu = true
  | .sched buffer _ _ => s.tid.active = true → ∀ f, buffer f ≠ .unmapped
  | .complete _ sta _ => sta = true
  | .start _ => s.tid.active = false ∧ s.hw = []
  | .stop _ => True
  | .resume _ => s.under = []

def AllAllowed : State → List Event → Prop
  | _, [] => True
  | s, e :: events => Allowed s e ∧ AllAllowed (s.handle e) events

end Runs

section Subframes

variable {tid : Tid} {s : State} {U X q : List Frame} {a t : ℕ} {f f' : Frame}

/-- The new frames: those of the time before the session, then those of the session, of which
only the first may have its number. -/
inductive Queue (t : ℕ) : ℕ → List Frame → Prop
  | waiting (old new : List Frame) (hold : ∀ f ∈ old, f.ampdu = false ∧ f.seqno.isSome = true)
      (hnew : ∀ f ∈ new, f.ampdu = true ∧ f.seqno = none ∧ f.baw_tracked = false) :
      Queue t (t % 4096) (old ++ new)
  | numbered (f : Frame) (new : List Frame)
      (hf : f.ampdu = true ∧ f.seqno = some (t % 4096) ∧ f.baw_tracked = false)
      (hnew : ∀ f ∈ new, f.ampdu = true ∧ f.seqno = none ∧ f.baw_tracked = false) :
      Queue t ((t + 1) % 4096) (f :: new)

/-- A frame of the session that has no number yet. -/
def Fresh (f : Frame) : Prop := f.ampdu = true ∧ f.seqno = none ∧ f.baw_tracked = false

/-- The three kinds of a frame at the head of the queue. -/
theorem Queue.cons_cases {next : ℕ} {rest : List Frame} (h : Queue t next (f :: rest)) :
    (f.ampdu = false ∧ f.seqno.isSome = true ∧ Queue t next rest) ∨
      (f.ampdu = true ∧ f.seqno = some (t % 4096) ∧ f.baw_tracked = false ∧
        next = (t + 1) % 4096 ∧ ∀ g ∈ rest, Fresh g) ∨
      (next = t % 4096 ∧ Fresh f ∧ ∀ g ∈ rest, Fresh g) := by
  generalize hlist : f :: rest = list at h
  cases h with
  | numbered g new hg hnew =>
    obtain ⟨rfl, rfl⟩ := List.cons.inj hlist
    exact Or.inr (Or.inl ⟨hg.1, hg.2.1, hg.2.2, rfl, hnew⟩)
  | waiting old new hold hnew =>
    cases old with
    | nil =>
      obtain rfl : f :: rest = new := hlist
      exact Or.inr (Or.inr ⟨rfl, hnew f List.mem_cons_self,
        fun g hg => hnew g (List.mem_cons_of_mem f hg)⟩)
    | cons g old =>
      obtain ⟨rfl, hrest⟩ := List.cons.inj hlist
      obtain ⟨hampdu, hseqno⟩ := hold f List.mem_cons_self
      refine Or.inl ⟨hampdu, hseqno, ?_⟩
      rw [hrest]
      exact .waiting old new (fun g hg => hold g (List.mem_cons_of_mem f hg)) hnew

/-- The window is not about the queues. -/
theorem Window.requeue (h : Window tid U a t) (next : ℕ) (active : Bool)
    (buf_q retry_q : List Frame) : Window { tid with
      seq_next := next, active := active, buf_q := buf_q, retry_q := retry_q } U a t :=
  ⟨⟨h.start, h.ring, h.tail, h.size, h.span, h.numbered, h.nodup, h.tracked, h.bar⟩, h.first⟩

/-- A running session, with the frames `X` under way besides those of the retry queue. -/
structure Session (s : State) (X : List Frame) (a t : ℕ) : Prop where
  window : Window s.tid (X ++ s.tid.retry_q) a t
  active : s.tid.active = true
  flags : ∀ f ∈ X ++ s.tid.retry_q, f.ampdu = true
  queue : Queue t s.tid.seq_next s.tid.buf_q

/-- No session; frames of an earlier one may be under way. -/
structure Idle (s : State) (X : List Frame) (a t : ℕ) : Prop where
  window : Window s.tid X a t
  inactive : s.tid.active = false
  retry_q : s.tid.retry_q = []
  next : s.tid.seq_next < 4096

/-- What the search in the retry queue leaves during a session. -/
structure Retried (s s' : State) (fo : Option (Option Frame)) (X q : List Frame) (a t : ℕ) :
    Prop where
  window : Window s'.tid (X ++ s'.tid.retry_q) a t
  left : s'.tid.retry_q <:+ q
  active : s'.tid.active = true
  seq_next : s'.tid.seq_next = s.tid.seq_next
  buf_q : s'.tid.buf_q = s.tid.buf_q
  hw : s'.hw = s.hw
  through : fo = none → s'.tid.retry_q = []
  head : ∀ f, fo = some (some f) → ∃ rest, s'.tid.retry_q = f :: rest

/-- The search stops with its queue as it is. -/
theorem Retried.stop (hactive : s.tid.active = true) (h : Window s.tid (X ++ q) a t)
    {fo : Option (Option Frame)} (hthrough : fo = none → q = [])
    (hhead : ∀ f, fo = some (some f) → ∃ rest, q = f :: rest) :
    Retried s (s.setRetry q) fo X q a t :=
  ⟨h.requeue _ _ _ _, List.suffix_rfl, hactive, rfl, rfl, rfl, hthrough, hhead⟩

theorem retrySubframe_session (hactive : s.tid.active = true) (h : Window s.tid (X ++ q) a t) :
    ∃ a', Retried s (retrySubframe q s).1 (retrySubframe q s).2 X q a' t := by
  induction q generalizing s a with
  | nil => exact ⟨a, .stop hactive h (fun _ => rfl) (fun _ hf => by cases hf)⟩
  | cons f rest ih =>
    have hflagged : s.tid.flagged f = f := if_pos hactive
    have hfound : Retried s (s.setRetry (f :: rest)) (some (some f)) X (f :: rest) a t :=
      .stop hactive h (fun hnone => by cases hnone) (fun _ hf => by cases hf; exact ⟨rest, rfl⟩)
    rw [retrySubframe, hflagged]
    cases judge s.tid f with
    | normal => exact ⟨a, hfound⟩
    | send => exact ⟨a, hfound⟩
    | outside =>
      exact ⟨a, .stop hactive h (fun hnone => by cases hnone) (fun _ hf => by cases hf)⟩
    | lost =>
      have hsame := update_same s.tid (f.seqno.getD 0)
      obtain ⟨a', -, hupdated⟩ := (h.perm List.perm_middle).update
      obtain ⟨a'', hrest⟩ := @ih ((s.updateBaw (f.seqno.getD 0)).complete f false) a'
        (hsame.active.trans hactive) hupdated
      exact ⟨a'', hrest.window, hrest.left.trans (List.suffix_cons f rest), hrest.active,
        hrest.seq_next.trans hsame.seq_next, hrest.buf_q.trans hsame.buf_q, hrest.hw,
        hrest.through, hrest.head⟩

/-- The frame with the number behind the window is not given up: a BAR is about frames that
were sent. -/
theorem judge_next (h : Window tid U a t) (hf : f.ampdu = true) (hseqno : f.seqno = some (t % 4096)) :
    (judge tid f = .send ∧ t - a < tid.baw_size) ∨ judge tid f = .outside := by
  have hsize := h.size
  have hspan := h.span
  have hbar := h.bar
  have hindex : ATH_BA_INDEX tid.seq_start (t % 4096) = t - a := by
    rw [h.start]
    exact index_eq h.ring.le (by omega)
  simp only [judge, hf, hseqno, Option.getD_some, hindex, BAW_WITHIN, Bool.true_eq_false, if_false]
  by_cases hroom : t - a < tid.baw_size
  · left
    simp only [hroom, decide_true, Bool.true_eq_false, if_false, and_true]
    rw [if_neg (by omega)]
  · right
    simp [hroom]

/-- A frame that is not given up stays at the head of the queue of new frames. -/
theorem bufSubframe_stays {buffer : Frame → Setup} (rest : List Frame) {s' : State} {g : Frame}
    (hsetup : setupBuffer buffer s f = (s', some g))
    (hlost : judge s'.tid (s'.tid.flagged g) ≠ .lost) :
    (bufSubframe buffer (f :: rest) s).1 = s'.setBuf (s'.tid.flagged g :: rest) ∧
      ∀ f', (bufSubframe buffer (f :: rest) s).2 = some f' →
        f' = s'.tid.flagged g ∧ judge s'.tid (s'.tid.flagged g) ≠ .outside := by
  rw [bufSubframe, hsetup]
  dsimp only
  cases hjudge : judge s'.tid (s'.tid.flagged g) with
  | normal => exact ⟨rfl, fun f' hf' => ⟨(Option.some.inj hf').symm, by simp⟩⟩
  | outside => exact ⟨rfl, fun f' hf' => by cases hf'⟩
  | lost => exact absurd hjudge hlost
  | send => exact ⟨rfl, fun f' hf' => ⟨(Option.some.inj hf').symm, by simp⟩⟩

/-- What the search in the queue of new frames leaves during a session. -/
structure Searched (s s' : State) (fo : Option Frame) (a t : ℕ) : Prop where
  tid : ∃ next q', s'.tid = { s.tid with seq_next := next, buf_q := q' } ∧ Queue t next q'
  hw : s'.hw = s.hw
  head : ∀ f, fo = some f → ∃ rest, s'.tid.buf_q = f :: rest ∧
    (f.ampdu = true → f.seqno = some (t % 4096) ∧ t - a < s.tid.baw_size)

/-- A frame of the session that has its number, at the head of the queue. -/
theorem bufSubframe_numbered {buffer : Frame → Setup} {s' : State} {g : Frame} {rest : List Frame}
    (hactive : s.tid.active = true) (h : Window s.tid U a t)
    (hsetup : setupBuffer buffer s f = (s', some g))
    (htid : s'.tid = { s.tid with seq_next := (t + 1) % 4096 }) (hhw : s'.hw = s.hw)
    (hampdu : g.ampdu = true) (hseqno : g.seqno = some (t % 4096)) (htracked : g.baw_tracked = false)
    (hrest : ∀ g ∈ rest, Fresh g) :
    Searched s (bufSubframe buffer (f :: rest) s).1 (bufSubframe buffer (f :: rest) s).2 a t := by
  have hwindow : Window s'.tid U a t := by
    rw [htid]
    exact h.requeue _ _ _ _
  have hflagged : s'.tid.flagged g = g := by
    rw [htid]
    exact if_pos hactive
  have hjudge := judge_next hwindow hampdu hseqno
  obtain ⟨hstate, hhead⟩ := bufSubframe_stays rest hsetup (by
    rw [hflagged]
    rcases hjudge with hsend | hout
    · rw [hsend.1]
      simp
    · rw [hout]
      simp)
  rw [hflagged] at hstate hhead
  refine ⟨⟨(t + 1) % 4096, g :: rest, ?_, .numbered g rest ⟨hampdu, hseqno, htracked⟩ hrest⟩, ?_, ?_⟩
  · rw [hstate, State.setBuf, htid]
  · rw [hstate, ← hhw]
    rfl
  · intro f' hf'
    obtain ⟨rfl, hinside⟩ := hhead f' hf'
    refine ⟨rest, by rw [hstate]; rfl, fun _ => ⟨hseqno, ?_⟩⟩
    rcases hjudge with hsend | hout
    · have hroom := hsend.2
      rw [htid] at hroom
      exact hroom
    · exact absurd hout hinside

theorem bufSubframe_session {buffer : Frame → Setup} (hmapped : ∀ f, buffer f ≠ .unmapped)
    (hactive : s.tid.active = true) (h : Window s.tid U a t) (hq : Queue t s.tid.seq_next q) :
    Searched s (bufSubframe buffer q s).1 (bufSubframe buffer q s).2 a t := by
  induction q generalizing s with
  | nil => exact ⟨⟨_, [], rfl, hq⟩, rfl, fun _ hf => by cases hf⟩
  | cons f rest ih =>
    rcases hq.cons_cases with ⟨hampdu, hseqno, -⟩ | ⟨hampdu, hseqno, htracked, hnext, hrest⟩ |
      ⟨hnext, hfresh, hrest⟩
    · have hflagged : s.tid.flagged f = f := if_pos hactive
      have hjudge : judge s.tid f = .normal := by simp [judge, hampdu]
      obtain ⟨hstate, hhead⟩ := @bufSubframe_stays s f buffer rest s f (if_pos hseqno) (by
        rw [hflagged, hjudge]
        simp)
      rw [hflagged] at hstate hhead
      refine ⟨⟨s.tid.seq_next, f :: rest, by rw [hstate]; rfl, hq⟩, by rw [hstate]; rfl, ?_⟩
      intro f' hf'
      obtain ⟨rfl, -⟩ := hhead f' hf'
      refine ⟨rest, by rw [hstate]; rfl, fun hf => ?_⟩
      rw [hampdu] at hf
      cases hf
    · refine bufSubframe_numbered hactive h (if_pos (by rw [hseqno]; rfl)) ?_ rfl hampdu hseqno
        htracked hrest
      rw [← hnext]
    · cases hbuffer : buffer f with
      | full =>
        have hsetup : setupBuffer buffer s f = (s, none) := by
          simp [setupBuffer, hfresh.2.1, hbuffer]
        have hwaiting : Queue t s.tid.seq_next rest := by
          rw [hnext]
          exact .waiting [] rest (fun _ hg => by cases hg) hrest
        have hfound := @ih { s with dropped := s.dropped ++ [f] } hactive h hwaiting
        rw [bufSubframe, hsetup]
        exact ⟨hfound.tid, hfound.hw, hfound.head⟩
      | unmapped => exact absurd hbuffer (hmapped f)
      | mapped =>
        have hsetup : setupBuffer buffer s f =
            ((setupSeqno s f).1, some (setupSeqno s f).2) := by
          simp [setupBuffer, hfresh.2.1, hbuffer]
        refine bufSubframe_numbered hactive h hsetup ?_ rfl hfresh.1 ?_ hfresh.2.2 hrest
        · simp only [setupSeqno, hnext, INCR, IEEE80211_SEQ_MAX]
          congr 1
          omega
        · simp only [setupSeqno, hnext]

/-- The head of a queue: a frame of the session that is new has the number behind the window,
and there is room for it. -/
def Head (s : State) (a t : ℕ) (f : Frame) : Prop :=
  (∃ rest, s.tid.retry_q = f :: rest) ∨
    (s.tid.retry_q = [] ∧ ∃ rest, s.tid.buf_q = f :: rest ∧
      (f.ampdu = true → f.seqno = some (t % 4096) ∧ t - a < s.tid.baw_size))

theorem Session.get_tid_subframe (h : Session s X a t) {buffer : Frame → Setup}
    (hmapped : ∀ f, buffer f ≠ .unmapped) :
    ∃ a', Session (ath_tx_get_tid_subframe buffer s).1 X a' t ∧
      (ath_tx_get_tid_subframe buffer s).1.hw = s.hw ∧
      ∀ f, (ath_tx_get_tid_subframe buffer s).2 = some f →
        Head (ath_tx_get_tid_subframe buffer s).1 a' t f := by
  obtain ⟨a', hretry⟩ := retrySubframe_session h.active h.window
  have hflags : ∀ f ∈ X ++ (retrySubframe s.tid.retry_q s).1.tid.retry_q, f.ampdu = true := by
    intro f hf
    refine h.flags f ?_
    rcases List.mem_append.mp hf with hf | hf
    · exact List.mem_append_left _ hf
    · exact List.mem_append_right _ (hretry.left.subset hf)
  have hqueue : Queue t (retrySubframe s.tid.retry_q s).1.tid.seq_next
      (retrySubframe s.tid.retry_q s).1.tid.buf_q := by
    rw [hretry.seq_next, hretry.buf_q]
    exact h.queue
  refine ⟨a', ?_⟩
  rw [ath_tx_get_tid_subframe]
  rcases hfound : retrySubframe s.tid.retry_q s with ⟨s', fo⟩
  rw [hfound] at hretry hflags hqueue
  cases fo with
  | some f =>
    refine ⟨⟨hretry.window, hretry.active, hflags, hqueue⟩, hretry.hw, ?_⟩
    rintro g rfl
    exact Or.inl (hretry.head g rfl)
  | none =>
    have hsearched := bufSubframe_session hmapped hretry.active hretry.window hqueue
    obtain ⟨next, q', htid, hq'⟩ := hsearched.tid
    have hempty := hretry.through rfl
    refine ⟨⟨?_, ?_, ?_, ?_⟩, hsearched.hw.trans hretry.hw, ?_⟩
    · rw [htid]
      exact hretry.window.requeue _ _ _ _
    · rw [htid]
      exact hretry.active
    · rw [htid]
      exact hflags
    · rw [htid]
      exact hq'
    · intro f hf
      obtain ⟨rest, hbuf, hroom⟩ := hsearched.head f hf
      refine Or.inr ⟨by rw [htid]; exact hempty, rest, hbuf, ?_⟩
      rw [htid]
      exact hroom

/-- A frame of the session is taken from its queue into an aggregate. -/
theorem Session.take (h : Session s X a t) (hhead : Head s a t f) (hampdu : f.ampdu = true) :
    ∃ t', Session (s.track f).unlink (X ++ [{ f with baw_tracked := true }]) a t' ∧
      (s.track f).unlink.hw = s.hw := by
  rcases hhead with ⟨rest, hretry⟩ | ⟨hretry, rest, hbuf, hnew⟩
  · have hwindow := h.window
    have hflags := h.flags
    rw [hretry] at hwindow hflags
    have htracked : f.baw_tracked = true := hwindow.tracked f (by simp)
    have hsame : ({ f with baw_tracked := true } : Frame) = f := by rw [← htracked]
    have hunlink : (s.track f).unlink = s.setRetry rest := by
      simp [State.track, htracked, State.unlink, hretry]
    rw [hunlink, hsame]
    refine ⟨t, ⟨?_, h.active, ?_, h.queue⟩, rfl⟩
    · refine (hwindow.requeue _ _ _ _).perm ?_
      simp [State.setRetry]
    · intro g hg
      exact hflags g (by simpa [State.setRetry] using hg)
  · obtain ⟨hseqno, hroom⟩ := hnew hampdu
    have hqueue := h.queue
    rw [hbuf] at hqueue
    obtain ⟨htracked, hnext, hrest⟩ : f.baw_tracked = false ∧
        s.tid.seq_next = (t + 1) % 4096 ∧ ∀ g ∈ rest, Fresh g := by
      rcases hqueue.cons_cases with ⟨hfalse, -⟩ | ⟨-, -, htracked, hnext, hrest⟩ | ⟨-, hfresh, -⟩
      · rw [hampdu] at hfalse
        cases hfalse
      · exact ⟨htracked, hnext, hrest⟩
      · rw [hfresh.2.1] at hseqno
        cases hseqno
    have hsame := addto_same s.tid (t % 4096)
    have htrack : s.track f = { s with tid := ath_tx_addto_baw s.tid (t % 4096) } := by
      simp [State.track, htracked, hseqno]
    have hunlink : (s.track f).unlink =
        { s with tid := { ath_tx_addto_baw s.tid (t % 4096) with buf_q := rest } } := by
      rw [htrack, State.unlink, if_pos (hsame.retry_q.trans hretry), State.setBuf]
      dsimp only
      rw [hsame.buf_q, hbuf]
      rfl
    have hwindow := h.window
    have hflags := h.flags
    rw [hretry, List.append_nil] at hwindow hflags
    rw [hunlink]
    refine ⟨t + 1, ⟨?_, hsame.active.trans h.active, ?_, ?_⟩, rfl⟩
    · have hadded := @Window.addto s.tid X a t { f with baw_tracked := true } hwindow hroom hseqno rfl
      refine (hadded.requeue _ _ _ _).perm ?_
      dsimp only
      rw [hsame.retry_q, hretry, List.append_nil]
      exact (List.perm_append_singleton _ _).symm
    · intro g hg
      dsimp only at hg
      rw [hsame.retry_q, hretry, List.append_nil] at hg
      rcases List.mem_append.mp hg with hg | hg
      · exact hflags g hg
      · rw [List.mem_singleton.mp hg]
        exact hampdu
    · dsimp only
      rw [hsame.seq_next, hnext]
      exact .waiting [] rest (fun _ hg => by cases hg) hrest

end Subframes

section Sends

variable {s : State} {X U : List Frame} {a t : ℕ} {f : Frame}

theorem Session.form_aggr {buffer : Frame → Setup} (hmapped : ∀ f, buffer f ≠ .unmapped)
    (fits : List Frame → Frame → Bool) (k : ℕ) {aggr : List Frame} (h : Session s (X ++ aggr) a t) (hhead : Head s a t f)
    (hampdu : aggr = [] → f.ampdu = true) :
    ∃ a' t', Session (ath_tx_form_aggr buffer fits k s f aggr).1
        (X ++ (ath_tx_form_aggr buffer fits k s f aggr).2) a' t' ∧
      (ath_tx_form_aggr buffer fits k s f aggr).1.hw = s.hw := by
  induction k generalizing s f aggr a t with
  | zero => exact ⟨a, t, h, rfl⟩
  | succ k ih =>
    rw [ath_tx_form_aggr]
    split
    · exact ⟨a, t, h, rfl⟩
    · rename_i hcond
      have hflag : f.ampdu = true := by
        by_cases haggr : aggr = []
        · exact hampdu haggr
        · rw [← Bool.not_eq_false]
          exact fun hfalse => hcond ⟨haggr, Or.inr (Or.inr hfalse)⟩
      obtain ⟨t', htaken, hhw⟩ := h.take hhead hflag
      rw [List.append_assoc] at htaken
      obtain ⟨a', hfound, hhw', hhead'⟩ := htaken.get_tid_subframe hmapped
      dsimp only
      rcases hget : ath_tx_get_tid_subframe buffer (s.track f).unlink with ⟨s', fo⟩
      rw [hget] at hfound hhw' hhead'
      cases fo with
      | none => exact ⟨a', t', hfound, hhw'.trans hhw⟩
      | some g =>
        obtain ⟨a'', t'', hformed, hhw''⟩ := ih hfound (hhead' g rfl) (by simp)
        exact ⟨a'', t'', hformed, hhw''.trans (hhw'.trans hhw)⟩

/-- A frame outside of the session is taken from the queue of new frames. -/
theorem Session.pass (h : Session s X a t) (hhead : Head s a t f) (hampdu : f.ampdu = false)
    (normal : List Frame) :
    Session { s.unlink with normal := normal } X a t ∧ s.unlink.hw = s.hw := by
  rcases hhead with ⟨rest, hretry⟩ | ⟨hretry, rest, hbuf, -⟩
  · have hflag := h.flags f (by simp [hretry])
    rw [hampdu] at hflag
    cases hflag
  · have hqueue := h.queue
    rw [hbuf] at hqueue
    have hunlink : s.unlink = s.setBuf rest := by
      rw [State.unlink, if_pos hretry, hbuf]
      rfl
    rw [hunlink]
    refine ⟨⟨h.window.requeue _ _ _ _, h.active, h.flags, ?_⟩, rfl⟩
    rcases hqueue.cons_cases with ⟨-, -, hrest⟩ | ⟨hflag, -⟩ | ⟨-, hfresh, -⟩
    · exact hrest
    · rw [hampdu] at hflag
      cases hflag
    · have hflag := hfresh.1
      rw [hampdu] at hflag
      cases hflag

theorem Session.form_burst (h : Session s X a t) {buffer : Frame → Setup}
    (hmapped : ∀ f, buffer f ≠ .unmapped) (hhead : Head s a t f) (hampdu : f.ampdu = false) :
    ∃ a', Session (ath_tx_form_burst buffer s f) X a' t ∧
      (ath_tx_form_burst buffer s f).hw = s.hw := by
  obtain ⟨hpassed, hhw⟩ := h.pass hhead hampdu (s.normal ++ [f])
  obtain ⟨a', hfound, hhw', hhead'⟩ := hpassed.get_tid_subframe hmapped
  refine ⟨a', ?_⟩
  rw [ath_tx_form_burst]
  rcases hget : ath_tx_get_tid_subframe buffer { s.unlink with normal := s.normal ++ [f] } with
    ⟨s', fo⟩
  rw [hget] at hfound hhw' hhead'
  cases fo with
  | none => exact ⟨hfound, hhw'.trans hhw⟩
  | some g =>
    dsimp only
    split
    · exact ⟨hfound, hhw'.trans hhw⟩
    · rename_i hflag
      obtain ⟨hlast, hhw''⟩ := hfound.pass (hhead' g rfl) (by simpa using hflag) (s'.normal ++ [g])
      exact ⟨hlast, hhw''.trans (hhw'.trans hhw)⟩

theorem Session.sched_aggr (h : Session s s.hw.flatten a t) {buffer : Frame → Setup}
    (hmapped : ∀ f, buffer f ≠ .unmapped) (fits : List Frame → Frame → Bool) (busy : Bool) :
    ∃ a' t', Session (ath_tx_sched_aggr buffer fits busy s)
      (ath_tx_sched_aggr buffer fits busy s).hw.flatten a' t' := by
  obtain ⟨a', hfound, hhw, hhead⟩ := h.get_tid_subframe hmapped
  rw [ath_tx_sched_aggr]
  rcases hget : ath_tx_get_tid_subframe buffer s with ⟨s', fo⟩
  rw [hget] at hfound hhw hhead
  dsimp only at hfound hhw hhead
  rw [← hhw] at hfound
  cases fo with
  | none => exact ⟨a', t, hfound⟩
  | some f =>
    dsimp only
    split
    · exact ⟨a', t, hfound⟩
    · split
      · rename_i hflag
        have hbegin : Session s' (s'.hw.flatten ++ []) a' t := by rwa [List.append_nil]
        obtain ⟨a'', t', hformed, hhw'⟩ := hbegin.form_aggr hmapped fits s'.tid.buffered
          (hhead f rfl) (fun _ => hflag)
        refine ⟨a'', t', ?_⟩
        dsimp only
        rw [hhw', List.flatten_append, List.flatten_singleton]
        exact ⟨hformed.window, hformed.active, hformed.flags, hformed.queue⟩
      · rename_i hflag
        obtain ⟨a'', hburst, hhw'⟩ := hfound.form_burst hmapped (hhead f rfl) (by simpa using hflag)
        refine ⟨a'', t, ?_⟩
        rw [hhw']
        exact hburst

end Sends

section Idleness

variable {s : State} {X q : List Frame} {a t : ℕ} {f : Frame}

theorem INCR_lt (n : ℕ) : INCR n IEEE80211_SEQ_MAX < 4096 := Nat.mod_lt _ (by decide)

/-- The new frames and their numbers are not part of an old session. -/
theorem Idle.requeue (h : Idle s X a t) {s' : State} {next : ℕ} {buf_q : List Frame}
    (htid : s'.tid = { s.tid with seq_next := next, buf_q := buf_q }) (hnext : next < 4096) :
    Idle s' X a t := by
  refine ⟨?_, ?_, ?_, ?_⟩
  · rw [htid]
    exact h.window.requeue _ _ _ _
  · rw [htid]
    exact h.inactive
  · rw [htid]
    exact h.retry_q
  · rw [htid]
    exact hnext

theorem setupBuffer_tid (buffer : Frame → Setup) (s : State) (f : Frame) :
    ∃ next, (setupBuffer buffer s f).1.tid = { s.tid with seq_next := next } ∧
      (setupBuffer buffer s f).1.hw = s.hw ∧ (s.tid.seq_next < 4096 → next < 4096) ∧
      ∀ g, (setupBuffer buffer s f).2 = some g → g.seqno.isSome = true ∧ g.ampdu = f.ampdu := by
  unfold setupBuffer
  split
  · rename_i hsome
    refine ⟨s.tid.seq_next, rfl, rfl, id, ?_⟩
    rintro g hg
    obtain rfl := Option.some.inj hg
    exact ⟨hsome, rfl⟩
  · cases buffer f with
    | full => exact ⟨s.tid.seq_next, rfl, rfl, id, fun _ hg => by cases hg⟩
    | unmapped => exact ⟨_, rfl, rfl, fun _ => INCR_lt _, fun _ hg => by cases hg⟩
    | mapped =>
      refine ⟨_, rfl, rfl, fun _ => INCR_lt _, ?_⟩
      rintro g hg
      obtain rfl := Option.some.inj hg
      exact ⟨rfl, rfl⟩

theorem bufSubframe_idle (buffer : Frame → Setup) (h : Idle s X a t) :
    Idle (bufSubframe buffer q s).1 X a t ∧ (bufSubframe buffer q s).1.hw = s.hw ∧
      ∀ f, (bufSubframe buffer q s).2 = some f → f.ampdu = false := by
  induction q generalizing s with
  | nil => exact ⟨h.requeue rfl h.next, rfl, fun _ hf => by cases hf⟩
  | cons f rest ih =>
    obtain ⟨next, htid, hhw, hnext, hframe⟩ := setupBuffer_tid buffer s f
    rcases hsetup : setupBuffer buffer s f with ⟨s', fo⟩
    rw [hsetup] at htid hhw hframe
    dsimp only at htid hhw hframe
    cases fo with
    | none =>
      have hidle : Idle { s' with dropped := s'.dropped ++ [f] } X a t :=
        h.requeue (by rw [htid]) (hnext h.next)
      obtain ⟨hfound, hhw', hhead⟩ := ih hidle
      rw [bufSubframe, hsetup]
      exact ⟨hfound, hhw'.trans hhw, hhead⟩
    | some g =>
      have hflagged : (s'.tid.flagged g).ampdu = false := by
        rw [Tid.flagged, htid, h.inactive]
        rfl
      have hjudge : judge s'.tid (s'.tid.flagged g) = .normal := if_pos hflagged
      obtain ⟨hstate, hhead⟩ := bufSubframe_stays rest hsetup (by rw [hjudge]; simp)
      have hqueued : (s'.setBuf (s'.tid.flagged g :: rest)).tid = { s.tid with
          seq_next := next, buf_q := s'.tid.flagged g :: rest } := by
        rw [State.setBuf, htid]
      rw [hstate]
      refine ⟨h.requeue hqueued (hnext h.next), hhw, ?_⟩
      intro f' hf'
      obtain ⟨rfl, -⟩ := hhead f' hf'
      exact hflagged

theorem Idle.get_tid_subframe (h : Idle s X a t) (buffer : Frame → Setup) :
    Idle (ath_tx_get_tid_subframe buffer s).1 X a t ∧
      (ath_tx_get_tid_subframe buffer s).1.hw = s.hw ∧
      ∀ f, (ath_tx_get_tid_subframe buffer s).2 = some f → f.ampdu = false := by
  have hempty : retrySubframe s.tid.retry_q s = (s.setRetry [], none) := by
    rw [h.retry_q]
    rfl
  rw [ath_tx_get_tid_subframe, hempty]
  exact bufSubframe_idle buffer ⟨h.window.requeue _ _ _ _, h.inactive, rfl, h.next⟩

theorem Idle.pass (h : Idle s X a t) (normal : List Frame) :
    Idle { s.unlink with normal := normal } X a t ∧ s.unlink.hw = s.hw := by
  have hunlink : s.unlink = s.setBuf s.tid.buf_q.tail := if_pos h.retry_q
  rw [hunlink]
  exact ⟨h.requeue rfl h.next, rfl⟩

theorem Idle.sched_aggr (h : Idle s X a t) (buffer : Frame → Setup)
    (fits : List Frame → Frame → Bool) (busy : Bool) :
    Idle (ath_tx_sched_aggr buffer fits busy s) X a t ∧
      (ath_tx_sched_aggr buffer fits busy s).hw = s.hw := by
  obtain ⟨hfound, hhw, hflag⟩ := h.get_tid_subframe buffer
  rw [ath_tx_sched_aggr]
  rcases hget : ath_tx_get_tid_subframe buffer s with ⟨s', fo⟩
  rw [hget] at hfound hhw hflag
  cases fo with
  | none => exact ⟨hfound, hhw⟩
  | some f =>
    dsimp only
    split
    · exact ⟨hfound, hhw⟩
    · have hf : f.ampdu = false := hflag f rfl
      rw [if_neg (by rw [hf]; simp), ath_tx_form_burst]
      obtain ⟨hpassed, hhw'⟩ := hfound.pass (s'.normal ++ [f])
      obtain ⟨hfound', hhw'', -⟩ := hpassed.get_tid_subframe buffer
      rcases hget' : ath_tx_get_tid_subframe buffer { s'.unlink with normal := s'.normal ++ [f] }
        with ⟨s'', fo'⟩
      rw [hget'] at hfound' hhw''
      have hsame : s''.hw = s.hw := hhw''.trans (hhw'.trans hhw)
      cases fo' with
      | none => exact ⟨hfound', hsame⟩
      | some g =>
        dsimp only
        split
        · exact ⟨hfound', hsame⟩
        · obtain ⟨hlast, hhw₃⟩ := hfound'.pass (s''.normal ++ [g])
          exact ⟨hlast, hhw₃.trans hsame⟩

/-- `ath_tx_tid_change_state` gives every frame a number and takes its flag. -/
theorem changeState_frames (buffer : Frame → Setup) (q : List Frame) (s : State) :
    ∃ next, (changeState buffer q s).1.tid = { s.tid with seq_next := next } ∧
      (changeState buffer q s).1.hw = s.hw ∧ (s.tid.seq_next < 4096 → next < 4096) ∧
      ∀ f ∈ (changeState buffer q s).2, f.ampdu = false ∧ f.seqno.isSome = true := by
  induction q generalizing s with
  | nil => exact ⟨s.tid.seq_next, rfl, rfl, id, fun _ hf => by cases hf⟩
  | cons f rest ih =>
    rw [changeState]
    obtain ⟨next, htid, hhw, hnext, hframe⟩ := setupBuffer_tid buffer s { f with ampdu := false }
    rcases hsetup : setupBuffer buffer s { f with ampdu := false } with ⟨s', fo⟩
    rw [hsetup] at htid hhw hframe
    dsimp only at htid hhw hframe
    cases fo with
    | none =>
      obtain ⟨next', htid', hhw', hnext', hframes⟩ :=
        ih { s' with dropped := s'.dropped ++ [{ f with ampdu := false }] }
      refine ⟨next', ?_, hhw'.trans hhw, ?_, hframes⟩
      · rw [htid', htid]
      · intro hlt
        refine hnext' ?_
        rw [htid]
        exact hnext hlt
    | some g =>
      obtain ⟨hsome, hampdu⟩ := hframe g rfl
      obtain ⟨next', htid', hhw', hnext', hframes⟩ := ih s'
      dsimp only
      refine ⟨next', ?_, hhw'.trans hhw, ?_, ?_⟩
      · rw [htid', htid]
      · intro hlt
        refine hnext' ?_
        rw [htid]
        exact hnext hlt
      · intro g' hg'
        rcases List.mem_cons.mp hg' with rfl | hg'
        · exact ⟨hampdu, hsome⟩
        · exact hframes g' hg'

/-- The retry queue is dropped. -/
theorem flush_tid (hinactive : s.tid.active = false) (h : Window s.tid (X ++ q) a t) :
    ∃ a', Window (ath_tx_flush_tid q s).tid X a' t ∧
      (ath_tx_flush_tid q s).tid.active = false ∧ (ath_tx_flush_tid q s).tid.retry_q = [] ∧
      (ath_tx_flush_tid q s).tid.seq_next = s.tid.seq_next ∧ (ath_tx_flush_tid q s).hw = s.hw := by
  induction q generalizing s a with
  | nil =>
    rw [List.append_nil] at h
    exact ⟨a, h.requeue _ _ _ _, hinactive, rfl, rfl, rfl⟩
  | cons f rest ih =>
    have htracked := h.tracked f (by simp)
    have hsame := update_same s.tid (f.seqno.getD 0)
    obtain ⟨a', -, hupdated⟩ := (h.perm List.perm_middle).update
    obtain ⟨a'', hwindow, hinact, hretry, hnext, hhw⟩ :=
      @ih ((s.updateBaw (f.seqno.getD 0)).complete f false) a'
        (hsame.active.trans hinactive) hupdated
    rw [ath_tx_flush_tid, if_pos htracked]
    exact ⟨a'', hwindow, hinact, hretry, hnext.trans hsame.seq_next, hhw⟩

end Idleness

end Nxwlan.BlockAck
