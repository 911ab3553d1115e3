import Mathlib.Algebra.Order.Group.Multiset
import Mathlib.Tactic.Abel
import Nxwlan.BlockAckRuns

/-!
The frames of a station, counted over its queues, the hardware and the frames that are
through. A step moves frames from one place to another; only a frame from the stack above
is a new one. This holds for every order of steps, with a session or without one.
-/
namespace Nxwlan.BlockAck

section Counts

variable {s s' : State} {q : List Frame} {f : Frame}

/-- The frames of a list, each by its name. -/
def ids (q : List Frame) : Multiset ℕ := ↑(q.map Frame.id)

/-- The frames that have left the queues. -/
def State.away (s : State) : Multiset ℕ :=
  ids (s.completed.map Prod.fst) + ids s.normal + ids s.dropped + ids s.hw.flatten

def State.frames (s : State) : Multiset ℕ := s.away + ids s.tid.retry_q + ids s.tid.buf_q

theorem ids_nil : ids [] = 0 := rfl

theorem ids_cons (f : Frame) (q : List Frame) : ids (f :: q) = {f.id} + ids q := rfl

theorem ids_append (q q' : List Frame) : ids (q ++ q') = ids q + ids q' := by
  rw [ids, List.map_append, ← Multiset.coe_add]
  rfl

theorem ids_singleton (f : Frame) : ids [f] = {f.id} := rfl

theorem ids_perm {q q' : List Frame} (h : q.Perm q') : ids q = ids q' :=
  Multiset.coe_eq_coe.mpr (h.map Frame.id)

theorem away_complete (s : State) (f : Frame) (ok : Bool) :
    (s.complete f ok).away = s.away + {f.id} := by
  simp only [State.away, State.complete, List.map_append, List.map_cons, List.map_nil, ids_append,
    ids_singleton]
  abel

theorem away_drop (s : State) (f : Frame) :
    ({ s with dropped := s.dropped ++ [f] } : State).away = s.away + {f.id} := by
  simp only [State.away, ids_append, ids_singleton]
  abel

theorem away_normal (s : State) (f : Frame) :
    ({ s with normal := s.normal ++ [f] } : State).away = s.away + {f.id} := by
  simp only [State.away, ids_append, ids_singleton]
  abel

theorem frames_setRetry (s : State) (q : List Frame) :
    (s.setRetry q).frames = s.away + ids q + ids s.tid.buf_q := rfl

theorem frames_setBuf (s : State) (q : List Frame) :
    (s.setBuf q).frames = s.away + ids s.tid.retry_q + ids q := rfl

theorem frames_updateBaw (s : State) (seqno : ℕ) : (s.updateBaw seqno).frames = s.frames := by
  have hsame := update_same s.tid seqno
  rw [State.frames, State.frames, State.updateBaw]
  dsimp only
  rw [hsame.retry_q, hsame.buf_q]
  rfl

theorem flagged_id (tid : Tid) (f : Frame) : (tid.flagged f).id = f.id := by
  unfold Tid.flagged
  split
  · rfl
  · rfl

end Counts

section Searches

variable {s s' : State} {q : List Frame} {f g : Frame}

/-- The search in the retry queue moves the frames that it gives up. -/
theorem retrySubframe_frames (q : List Frame) (s : State) :
    (retrySubframe q s).1.frames = (s.setRetry q).frames ∧
      (retrySubframe q s).1.tid.buf_q = s.tid.buf_q ∧
      ((retrySubframe q s).2 = none → (retrySubframe q s).1.tid.retry_q = []) ∧
      ∀ f, (retrySubframe q s).2 = some (some f) →
        ∃ rest, (retrySubframe q s).1.tid.retry_q = f :: rest := by
  induction q generalizing s with
  | nil => exact ⟨rfl, rfl, fun _ => rfl, fun _ hf => by cases hf⟩
  | cons f rest ih =>
    have hstay : (s.setRetry (s.tid.flagged f :: rest)).frames = (s.setRetry (f :: rest)).frames := by
      rw [frames_setRetry, frames_setRetry, ids_cons, ids_cons, flagged_id]
    rw [retrySubframe]
    cases judge s.tid (s.tid.flagged f) with
    | normal =>
      exact ⟨hstay, rfl, (fun hnone => by cases hnone), fun _ hf => by cases hf; exact ⟨rest, rfl⟩⟩
    | outside => exact ⟨hstay, rfl, (fun hnone => by cases hnone), fun _ hf => by cases hf⟩
    | send =>
      exact ⟨hstay, rfl, (fun hnone => by cases hnone), fun _ hf => by cases hf; exact ⟨rest, rfl⟩⟩
    | lost =>
      obtain ⟨hframes, hbuf, hnone, hhead⟩ :=
        ih ((s.updateBaw ((s.tid.flagged f).seqno.getD 0)).complete (s.tid.flagged f) false)
      have hsame := update_same s.tid ((s.tid.flagged f).seqno.getD 0)
      refine ⟨hframes.trans ?_, hbuf.trans hsame.buf_q, hnone, hhead⟩
      rw [frames_setRetry, frames_setRetry, away_complete, ids_cons, flagged_id]
      have hbuf' : ((s.updateBaw ((s.tid.flagged f).seqno.getD 0)).complete
          (s.tid.flagged f) false).tid.buf_q = s.tid.buf_q := hsame.buf_q
      have haway : (s.updateBaw ((s.tid.flagged f).seqno.getD 0)).away = s.away := rfl
      rw [hbuf', haway]
      abel

/-- A frame gets its buffer in place. -/
theorem setupBuffer_frames (buffer : Frame → Setup) (s : State) (f : Frame) :
    (setupBuffer buffer s f).1.away = s.away ∧
      (setupBuffer buffer s f).1.tid.retry_q = s.tid.retry_q ∧
      ∀ g, (setupBuffer buffer s f).2 = some g → g.id = f.id := by
  unfold setupBuffer
  split
  · exact ⟨rfl, rfl, fun g hg => by rw [← Option.some.inj hg]⟩
  · cases buffer f with
    | full => exact ⟨rfl, rfl, fun _ hg => by cases hg⟩
    | unmapped => exact ⟨rfl, rfl, fun _ hg => by cases hg⟩
    | mapped => exact ⟨rfl, rfl, fun g hg => by rw [← Option.some.inj hg]; rfl⟩

theorem bufSubframe_frames (buffer : Frame → Setup) (q : List Frame) (s : State) :
    (bufSubframe buffer q s).1.frames = (s.setBuf q).frames ∧
      (bufSubframe buffer q s).1.tid.retry_q = s.tid.retry_q ∧
      ∀ f, (bufSubframe buffer q s).2 = some f →
        ∃ rest, (bufSubframe buffer q s).1.tid.buf_q = f :: rest := by
  induction q generalizing s with
  | nil => exact ⟨rfl, rfl, fun _ hf => by cases hf⟩
  | cons f rest ih =>
    rw [bufSubframe]
    obtain ⟨haway, hretry', hid⟩ := setupBuffer_frames buffer s f
    rcases hsetup : setupBuffer buffer s f with ⟨s', fo⟩
    rw [hsetup] at haway hretry' hid
    dsimp only at haway hretry' hid
    cases fo with
    | none =>
      obtain ⟨hframes, hretry, hhead⟩ := ih { s' with dropped := s'.dropped ++ [f] }
      refine ⟨hframes.trans ?_, hretry.trans hretry', hhead⟩
      rw [frames_setBuf, frames_setBuf, away_drop, ids_cons, haway]
      dsimp only
      rw [hretry']
      abel
    | some g =>
      have hstay : (s'.setBuf (s'.tid.flagged g :: rest)).frames = (s.setBuf (f :: rest)).frames := by
        rw [frames_setBuf, frames_setBuf, ids_cons, ids_cons, flagged_id, haway, hretry', hid g rfl]
      dsimp only
      cases judge s'.tid (s'.tid.flagged g) with
      | normal => exact ⟨hstay, hretry', fun _ hf => by cases hf; exact ⟨rest, rfl⟩⟩
      | outside => exact ⟨hstay, hretry', fun _ hf => by cases hf⟩
      | send => exact ⟨hstay, hretry', fun _ hf => by cases hf; exact ⟨rest, rfl⟩⟩
      | lost =>
        obtain ⟨hframes, hretry, hhead⟩ :=
          ih ((s'.updateBaw ((s'.tid.flagged g).seqno.getD 0)).complete (s'.tid.flagged g) false)
        have hsame := update_same s'.tid ((s'.tid.flagged g).seqno.getD 0)
        refine ⟨hframes.trans ?_, (hretry.trans hsame.retry_q).trans hretry', hhead⟩
        rw [← hstay, frames_setBuf, frames_setBuf, away_complete, ids_cons]
        have hsame' : ((s'.updateBaw ((s'.tid.flagged g).seqno.getD 0)).complete
            (s'.tid.flagged g) false).tid.retry_q = s'.tid.retry_q := hsame.retry_q
        have haway' : (s'.updateBaw ((s'.tid.flagged g).seqno.getD 0)).away = s'.away := rfl
        rw [hsame', haway']
        abel

/-- A frame at the head of the queue that the driver looks at. -/
def AtHead (s : State) (f : Frame) : Prop :=
  (∃ rest, s.tid.retry_q = f :: rest) ∨
    (s.tid.retry_q = [] ∧ ∃ rest, s.tid.buf_q = f :: rest)

theorem get_tid_subframe_frames (buffer : Frame → Setup) (s : State) :
    (ath_tx_get_tid_subframe buffer s).1.frames = s.frames ∧
      ∀ f, (ath_tx_get_tid_subframe buffer s).2 = some f →
        AtHead (ath_tx_get_tid_subframe buffer s).1 f := by
  obtain ⟨hframes, hbuf, hnone, hhead⟩ := retrySubframe_frames s.tid.retry_q s
  rw [ath_tx_get_tid_subframe]
  rcases hfound : retrySubframe s.tid.retry_q s with ⟨s', fo⟩
  rw [hfound] at hframes hbuf hnone hhead
  cases fo with
  | some f =>
    refine ⟨hframes, ?_⟩
    rintro g rfl
    exact Or.inl (hhead g rfl)
  | none =>
    obtain ⟨hframes', hretry, hhead'⟩ := bufSubframe_frames buffer s'.tid.buf_q s'
    exact ⟨hframes'.trans hframes, fun f hf => Or.inr ⟨hretry.trans (hnone rfl), hhead' f hf⟩⟩

/-- A frame is taken out of its queue. -/
theorem unlink_frames (h : AtHead s f) :
    s.unlink.frames + {f.id} = s.frames ∧ s.unlink.away = s.away := by
  rw [State.unlink]
  rcases h with ⟨rest, hretry⟩ | ⟨hretry, rest, hbuf⟩
  · rw [if_neg (by rw [hretry]; simp), frames_setRetry, State.frames, hretry, List.tail_cons,
      ids_cons]
    exact ⟨by abel, rfl⟩
  · rw [if_pos hretry, frames_setBuf, State.frames, hbuf, List.tail_cons, ids_cons]
    exact ⟨by abel, rfl⟩

theorem track_frames (h : AtHead s f) : (s.track f).frames = s.frames ∧ AtHead (s.track f) f := by
  unfold State.track
  split
  · exact ⟨rfl, h⟩
  · have hsame := addto_same s.tid (f.seqno.getD 0)
    unfold State.frames AtHead
    dsimp only
    rw [hsame.retry_q, hsame.buf_q]
    exact ⟨rfl, h⟩

end Searches

section Moves

variable {s : State} {f : Frame}

theorem form_aggr_frames (buffer : Frame → Setup) (fits : List Frame → Frame → Bool) (k : ℕ)
    {aggr : List Frame} (h : AtHead s f) :
    (ath_tx_form_aggr buffer fits k s f aggr).1.frames +
      ids (ath_tx_form_aggr buffer fits k s f aggr).2 = s.frames + ids aggr := by
  induction k generalizing s f aggr with
  | zero => rfl
  | succ k ih =>
    rw [ath_tx_form_aggr]
    split
    · rfl
    · obtain ⟨htracked, hhead⟩ := track_frames h
      have htaken := (unlink_frames hhead).1
      obtain ⟨hframes, hnext⟩ := get_tid_subframe_frames buffer (s.track f).unlink
      have hmoved : (ath_tx_get_tid_subframe buffer (s.track f).unlink).1.frames +
          ids (aggr ++ [{ f with baw_tracked := true }]) = s.frames + ids aggr := by
        rw [hframes, ids_append, ids_singleton, ← htracked, ← htaken]
        abel
      dsimp only
      rcases hget : ath_tx_get_tid_subframe buffer (s.track f).unlink with ⟨s', fo⟩
      rw [hget] at hnext hmoved
      cases fo with
      | none => exact hmoved
      | some g => exact (ih (hnext g rfl)).trans hmoved

/-- A frame is sent on its own. -/
theorem pass_frames (h : AtHead s f) :
    ({ s.unlink with normal := s.normal ++ [f] } : State).frames = s.frames := by
  obtain ⟨hframes, haway⟩ := unlink_frames h
  have hsame : s.unlink.normal = s.normal := by
    unfold State.unlink
    split
    · rfl
    · rfl
  have hpassed := away_normal s.unlink f
  rw [hsame] at hpassed
  rw [← hframes, State.frames, hpassed, State.frames]
  dsimp only
  abel

theorem form_burst_frames (buffer : Frame → Setup) (h : AtHead s f) :
    (ath_tx_form_burst buffer s f).frames = s.frames := by
  obtain ⟨hframes, hhead⟩ :=
    get_tid_subframe_frames buffer { s.unlink with normal := s.normal ++ [f] }
  rw [ath_tx_form_burst]
  rcases hget : ath_tx_get_tid_subframe buffer { s.unlink with normal := s.normal ++ [f] } with
    ⟨s', fo⟩
  rw [hget] at hframes hhead
  have hsame : s'.frames = s.frames := hframes.trans (pass_frames h)
  cases fo with
  | none => exact hsame
  | some g =>
    dsimp only
    split
    · exact hsame
    · exact (pass_frames (hhead g rfl)).trans hsame

theorem sched_aggr_frames (buffer : Frame → Setup) (fits : List Frame → Frame → Bool) (busy : Bool)
    (s : State) : (ath_tx_sched_aggr buffer fits busy s).frames = s.frames := by
  obtain ⟨hframes, hhead⟩ := get_tid_subframe_frames buffer s
  rw [ath_tx_sched_aggr]
  rcases hget : ath_tx_get_tid_subframe buffer s with ⟨s', fo⟩
  rw [hget] at hframes hhead
  cases fo with
  | none => exact hframes
  | some f =>
    dsimp only
    split
    · exact hframes
    · split
      · have hmoved := @form_aggr_frames s' f buffer fits s'.tid.buffered [] (hhead f rfl)
        rw [ids_nil, add_zero] at hmoved
        refine Eq.trans ?_ (hmoved.trans hframes)
        simp only [State.frames, State.away, List.flatten_append, List.flatten_singleton, ids_append]
        abel
      · exact (form_burst_frames buffer (hhead f rfl)).trans hframes

theorem finish_frames (l : Loop) (f : Frame) (ok : Bool) :
    (l.finish f ok).s.frames = l.s.frames + {f.id} := by
  rw [← frames_updateBaw l.s (f.seqno.getD 0)]
  simp only [Loop.finish, State.frames, away_complete]
  dsimp only [State.complete]
  abel

theorem completeFrame_frames (ts : Status) (isaggr : Bool) (seq_first : ℕ) (last : Bool) (l : Loop)
    (f : Frame) :
    (completeFrame ts isaggr seq_first last l f).s.frames +
      ids (completeFrame ts isaggr seq_first last l f).bf_pending =
        l.s.frames + ids l.bf_pending + {f.id} := by
  have hfinish : ∀ (g : Frame) (ok : Bool), (l.finish g ok).s.frames +
      ids (l.finish g ok).bf_pending = l.s.frames + ids l.bf_pending + {g.id} := by
    intro g ok
    rw [finish_frames]
    dsimp only [Loop.finish]
    abel
  rw [completeFrame]
  cases hfate : fateOf ts isaggr l.s.tid f with
  | done => exact hfinish f true
  | failed => exact hfinish f false
  | givenUp => exact hfinish f false
  | retry f' =>
    have hid : f'.id = f.id := (fateOf_retry hfate).2.1
    dsimp only
    split
    · rw [← hid]
      exact hfinish f' false
    · rw [ids_append, ids_singleton, hid]
      abel

theorem completeFrames_frames (ts : Status) (isaggr : Bool) (seq_first : ℕ) (aggr : List Frame)
    (l : Loop) :
    (completeFrames ts isaggr seq_first aggr l).s.frames +
      ids (completeFrames ts isaggr seq_first aggr l).bf_pending =
        l.s.frames + ids l.bf_pending + ids aggr := by
  induction aggr generalizing l with
  | nil => exact (add_zero _).symm
  | cons f rest ih =>
    rw [completeFrames, ih, completeFrame_frames, ids_cons]
    abel

theorem completeAll_frames (aggr : List Frame) (s : State) :
    (completeAll aggr s).frames = s.frames + ids aggr := by
  induction aggr generalizing s with
  | nil => exact (add_zero s.frames).symm
  | cons f rest ih =>
    have hstep : (completeAll (f :: rest) s).frames = (s.complete f false).frames + ids rest :=
      ih (s.complete f false)
    rw [hstep, ids_cons, State.frames, away_complete, State.frames]
    dsimp only [State.complete]
    abel

theorem complete_aggr_frames (sta : Bool) (ts : Status) (aggr : List Frame) (s : State) :
    (ath_tx_complete_aggr sta ts aggr s).frames = s.frames + ids aggr := by
  have hclose : ∀ (l : Loop) (seq_first : ℕ),
      (l.close seq_first).frames = l.s.frames + ids l.bf_pending := by
    intro l seq_first
    have hsame : (l.close seq_first).frames =
        (l.s.setRetry (l.s.tid.retry_q ++ l.bf_pending)).frames := by
      unfold Loop.close
      dsimp only
      split
      · split
        · rfl
        · rfl
      · rfl
    rw [hsame, frames_setRetry, ids_append, State.frames]
    abel
  rw [ath_tx_complete_aggr]
  split
  · rw [hclose, completeFrames_frames]
    exact congrArg (· + ids aggr) (add_zero s.frames)
  · exact completeAll_frames aggr s

theorem flush_tid_frames (q : List Frame) (s : State) :
    (ath_tx_flush_tid q s).frames = (s.setRetry q).frames := by
  induction q generalizing s with
  | nil => rfl
  | cons f rest ih =>
    have hbuf : (if f.baw_tracked then s.updateBaw (f.seqno.getD 0) else s).tid.buf_q =
        s.tid.buf_q := by
      split
      · exact (update_same s.tid _).buf_q
      · rfl
    have haway : (if f.baw_tracked then s.updateBaw (f.seqno.getD 0) else s).away = s.away := by
      split
      · rfl
      · rfl
    rw [ath_tx_flush_tid, ih, frames_setRetry, frames_setRetry, away_complete, ids_cons, haway]
    change _ + _ + ids (if f.baw_tracked then s.updateBaw (f.seqno.getD 0) else s).tid.buf_q = _
    rw [hbuf]
    abel

theorem changeState_counts (buffer : Frame → Setup) (q : List Frame) (s : State) :
    (changeState buffer q s).1.away + ids (changeState buffer q s).2 = s.away + ids q ∧
      (changeState buffer q s).1.tid.retry_q = s.tid.retry_q := by
  induction q generalizing s with
  | nil => exact ⟨rfl, rfl⟩
  | cons f rest ih =>
    rw [changeState]
    obtain ⟨haway, hretry', hid⟩ := setupBuffer_frames buffer s { f with ampdu := false }
    rcases hsetup : setupBuffer buffer s { f with ampdu := false } with ⟨s', fo⟩
    rw [hsetup] at haway hretry' hid
    dsimp only at haway hretry' hid
    cases fo with
    | none =>
      obtain ⟨hcounts, hretry⟩ := ih { s' with dropped := s'.dropped ++ [{ f with ampdu := false }] }
      refine ⟨hcounts.trans ?_, hretry.trans hretry'⟩
      rw [away_drop, ids_cons, haway]
      abel
    | some g =>
      obtain ⟨hcounts, hretry⟩ := ih s'
      refine ⟨?_, hretry.trans hretry'⟩
      dsimp only
      rw [ids_cons, ids_cons, hid g rfl, ← haway]
      calc (changeState buffer rest s').1.away + ({f.id} + ids (changeState buffer rest s').2)
          = (changeState buffer rest s').1.away + ids (changeState buffer rest s').2 + {f.id} := by
            abel
        _ = s'.away + ({f.id} + ids rest) := by
            rw [hcounts]
            abel

theorem tid_change_state_frames (buffer : Frame → Setup) (s : State) :
    (ath_tx_tid_change_state buffer s).frames = s.frames := by
  obtain ⟨hcounts, hretry⟩ := changeState_counts buffer s.tid.buf_q s
  rw [ath_tx_tid_change_state, frames_setBuf, hretry, State.frames, add_right_comm, hcounts]
  abel

end Moves

section Runs

/-- The frame that comes with an event. -/
def Event.queued : Event → Multiset ℕ
  | .queue id _ => {id}
  | .sched _ _ _ | .complete _ _ _ | .start _ | .stop _ | .resume _ => 0

def queued (events : List Event) : Multiset ℕ := (events.map Event.queued).sum

theorem handle_frames (s : State) (e : Event) : (s.handle e).frames = s.frames + e.queued := by
  cases e with
  | queue id ampdu =>
    rw [State.handle, frames_setBuf, ids_append, ids_singleton, State.frames, Event.queued]
    abel
  | sched buffer fits busy => exact (sched_aggr_frames buffer fits busy s).trans (add_zero _).symm
  | complete i sta ts =>
    rw [State.handle, Event.queued, add_zero]
    cases hi : s.hw[i]? with
    | none => rfl
    | some aggr =>
      dsimp only
      rw [complete_aggr_frames]
      simp only [State.frames, State.away]
      rw [ids_perm (flatten_eraseIdx hi), ids_append]
      abel
  | start buffer => exact (tid_change_state_frames buffer s).trans (add_zero _).symm
  | stop buffer =>
    rw [State.handle, ath_tx_aggr_stop, tid_change_state_frames, flush_tid_frames, Event.queued,
      add_zero]
    rfl
  | resume ampdu_factor => exact (add_zero s.frames).symm

/-- In every run, each frame that was queued is in one place: completed, sent outside of the
session, dropped, with the hardware, or in one of the queues. -/
theorem no_frame_lost (events : List Event) : (State.run {} events).frames = queued events := by
  have hrun : ∀ s : State, (s.run events).frames = s.frames + queued events := by
    induction events with
    | nil => exact fun s => (add_zero s.frames).symm
    | cons e events ih =>
      intro s
      have hstep : (s.run (e :: events)).frames = (s.handle e).frames + queued events :=
        ih (s.handle e)
      have hqueued : queued (e :: events) = e.queued + queued events := by
        rw [queued, List.map_cons, List.sum_cons]
        rfl
      rw [hstep, handle_frames, hqueued, add_assoc]
  exact (hrun {}).trans (zero_add _)

end Runs

end Nxwlan.BlockAck
