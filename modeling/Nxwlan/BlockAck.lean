import Mathlib.Data.List.Perm.Basic
import Nxwlan.RingWindow

/-!
The block-ack session of a station in the ath9k driver. A frame gets its sequence number when
it comes to the head of its queue, and is marked in a bit map when it is sent; the window of
numbers that the receiver expects starts with the oldest frame under way. A transmission
ends with a status for each of its frames: done, given up, or back to the queue.
-/
namespace Nxwlan.BlockAck

open RingWindow

section Model

def IEEE80211_SEQ_MAX : ℕ := 4096

def ATH_TID_MAX_BUFS : ℕ := 128

def ATH_MAX_SW_RETRIES : ℕ := 30

/-- `((_seq) - (_st)) & (IEEE80211_SEQ_MAX - 1)`. -/
def ATH_BA_INDEX (st seq : ℕ) : ℕ := (((seq : ℤ) - st) % 4096).toNat

def ATH_BA_INDEX2SEQ (seq offset : ℕ) : ℕ := (seq + offset) % IEEE80211_SEQ_MAX

def BAW_WITHIN (start bawsz seqno : ℕ) : Bool := ATH_BA_INDEX start seqno < bawsz

def INCR (l sz : ℕ) : ℕ := (l + 1) % sz

/-- A frame with its driver data: `ampdu` is the flag IEEE80211_TX_CTL_AMPDU, and `seqno` is
set with the buffer. -/
structure Frame where
  id : ℕ
  ampdu : Bool
  seqno : Option ℕ := none
  baw_tracked : Bool := false
  retries : ℕ := 0
  deriving DecidableEq

/-- `ath_atx_tid`. -/
structure Tid where
  tx_buf : BitVec 128 := 0
  seq_start : ℕ := 0
  seq_next : ℕ := 0
  baw_size : ℕ := 64
  baw_head : ℕ := 0
  baw_tail : ℕ := 0
  bar_index : ℤ := -1
  active : Bool := false
  buf_q : List Frame := []
  retry_q : List Frame := []

/-- The session, the transmissions of the hardware, and the frames that are through: those
that were completed, with their status, those sent outside of the session, and those
dropped without a buffer. -/
structure State where
  tid : Tid := {}
  hw : List (List Frame) := []
  completed : List (Frame × Bool) := []
  normal : List Frame := []
  dropped : List Frame := []

/-- The loop of `ath_tx_update_baw`. -/
def slide : ℕ → Tid → Tid
  | 0, tid => tid
  | k + 1, tid =>
      if tid.baw_head ≠ tid.baw_tail ∧ tid.tx_buf.getLsbD tid.baw_head = false then
        slide k { tid with
          seq_start := INCR tid.seq_start IEEE80211_SEQ_MAX
          baw_head := INCR tid.baw_head ATH_TID_MAX_BUFS
          bar_index := if 0 ≤ tid.bar_index then tid.bar_index - 1 else tid.bar_index }
      else tid

def ath_tx_update_baw (tid : Tid) (seqno : ℕ) : Tid :=
  let index := ATH_BA_INDEX tid.seq_start seqno
  let cindex := (tid.baw_head + index) % ATH_TID_MAX_BUFS
  slide ATH_TID_MAX_BUFS { tid with tx_buf := tid.tx_buf &&& ~~~(BitVec.twoPow 128 cindex) }

/-- The number of slots from the head to the tail, `(tail - head) & (ATH_TID_MAX_BUFS - 1)`. -/
def Tid.used (tid : Tid) : ℕ := (((tid.baw_tail : ℤ) - tid.baw_head) % 128).toNat

def ath_tx_addto_baw (tid : Tid) (seqno : ℕ) : Tid :=
  let index := ATH_BA_INDEX tid.seq_start seqno
  let cindex := (tid.baw_head + index) % ATH_TID_MAX_BUFS
  let tid := { tid with tx_buf := tid.tx_buf ||| BitVec.twoPow 128 cindex }
  if tid.used ≤ index then { tid with baw_tail := INCR cindex ATH_TID_MAX_BUFS } else tid

def State.updateBaw (s : State) (seqno : ℕ) : State :=
  { s with tid := ath_tx_update_baw s.tid seqno }

/-- `ath_tx_complete_buf`. -/
def State.complete (s : State) (f : Frame) (ok : Bool) : State :=
  { s with completed := s.completed ++ [(f, ok)] }

def State.setRetry (s : State) (q : List Frame) : State :=
  { s with tid := { s.tid with retry_q := q } }

def State.setBuf (s : State) (q : List Frame) : State := { s with tid := { s.tid with buf_q := q } }

/-- What `ath_tx_get_tid_subframe` makes of a frame at the head of its queue. -/
inductive Verdict where
  | normal
  | outside
  | lost
  | send

def judge (tid : Tid) (f : Frame) : Verdict :=
  let seqno := f.seqno.getD 0
  if f.ampdu = false then .normal
  else if BAW_WITHIN tid.seq_start tid.baw_size seqno = false then .outside
  else if tid.bar_index > ATH_BA_INDEX tid.seq_start seqno then .lost
  else .send

/-- A frame loses its flag when there is no session. -/
def Tid.flagged (tid : Tid) (f : Frame) : Frame := if tid.active then f else { f with ampdu := false }

/-- `ath_tx_get_tid_subframe` over the retry queue; `none` when it is empty. The frame that is
returned stays at the head of its queue. -/
def retrySubframe : List Frame → State → State × Option (Option Frame)
  | [], s => (s.setRetry [], none)
  | f :: rest, s =>
      let f := s.tid.flagged f
      match judge s.tid f with
      | .normal => (s.setRetry (f :: rest), some (some f))
      | .outside => (s.setRetry (f :: rest), some none)
      | .lost => retrySubframe rest ((s.updateBaw (f.seqno.getD 0)).complete f false)
      | .send => (s.setRetry (f :: rest), some (some f))

/-- How the setup of a buffer ends: all buffers may be in use, and the mapping for the hardware
may fail, which is found out when the frame has its number. -/
inductive Setup where
  | full
  | unmapped
  | mapped
  deriving DecidableEq

/-- The number that `ath_tx_setup_buffer` gives. -/
def setupSeqno (s : State) (f : Frame) : State × Frame :=
  ({ s with tid := { s.tid with seq_next := INCR s.tid.seq_next IEEE80211_SEQ_MAX } },
    { f with seqno := some s.tid.seq_next })

/-- `ath_tx_setup_buffer` for a frame that has no buffer yet. A number is used up even if the
mapping fails. -/
def setupBuffer (buffer : Frame → Setup) (s : State) (f : Frame) : State × Option Frame :=
  if f.seqno.isSome then (s, some f)
  else
    match buffer f with
    | .full => (s, none)
    | .unmapped => ((setupSeqno s f).1, none)
    | .mapped => ((setupSeqno s f).1, some (setupSeqno s f).2)

/-- `ath_tx_get_tid_subframe` over the queue of new frames. -/
def bufSubframe (buffer : Frame → Setup) : List Frame → State → State × Option Frame
  | [], s => (s.setBuf [], none)
  | f :: rest, s =>
      match setupBuffer buffer s f with
      | (s, none) => bufSubframe buffer rest { s with dropped := s.dropped ++ [f] }
      | (s, some f) =>
          let f := s.tid.flagged f
          match judge s.tid f with
          | .normal => (s.setBuf (f :: rest), some f)
          | .outside => (s.setBuf (f :: rest), none)
          | .lost => bufSubframe buffer rest ((s.updateBaw (f.seqno.getD 0)).complete f false)
          | .send => (s.setBuf (f :: rest), some f)

def ath_tx_get_tid_subframe (buffer : Frame → Setup) (s : State) : State × Option Frame :=
  match retrySubframe s.tid.retry_q s with
  | (s, some f) => (s, f)
  | (s, none) => bufSubframe buffer s.tid.buf_q s

/-- `__skb_unlink` of the frame that was returned last. -/
def State.unlink (s : State) : State :=
  if s.tid.retry_q = [] then s.setBuf s.tid.buf_q.tail else s.setRetry s.tid.retry_q.tail

/-- `if (!fi->baw_tracked) ath_tx_addto_baw(sc, tid, bf)`. -/
def State.track (s : State) (f : Frame) : State :=
  if f.baw_tracked then s else { s with tid := ath_tx_addto_baw s.tid (f.seqno.getD 0) }

/-- The loop of `ath_tx_form_aggr`; `fits` says whether a further frame is within the limits of
the aggregate. -/
def ath_tx_form_aggr (buffer : Frame → Setup) (fits : List Frame → Frame → Bool) :
    ℕ → State → Frame → List Frame → State × List Frame
  | 0, s, _, aggr => (s, aggr)
  | k + 1, s, f, aggr =>
      if aggr ≠ [] ∧ (fits aggr f = false ∨ s.tid.baw_size / 2 ≤ aggr.length ∨ f.ampdu = false) then
        (s, aggr)
      else
        let s := (s.track f).unlink
        let aggr := aggr ++ [{ f with baw_tracked := true }]
        match ath_tx_get_tid_subframe buffer s with
        | (s, none) => (s, aggr)
        | (s, some f) => ath_tx_form_aggr buffer fits k s f aggr

/-- `ath_tx_form_burst`: at most two frames. -/
def ath_tx_form_burst (buffer : Frame → Setup) (s : State) (f : Frame) : State :=
  match ath_tx_get_tid_subframe buffer { s.unlink with normal := s.normal ++ [f] } with
  | (s, none) => s
  | (s, some f') => if f'.ampdu then s else { s.unlink with normal := s.normal ++ [f'] }

def Tid.buffered (tid : Tid) : ℕ := tid.retry_q.length + tid.buf_q.length

/-- `ath_tx_sched_aggr`; `busy` when the queue of the hardware is long enough. -/
def ath_tx_sched_aggr (buffer : Frame → Setup) (fits : List Frame → Frame → Bool) (busy : Bool)
    (s : State) : State :=
  match ath_tx_get_tid_subframe buffer s with
  | (s, none) => s
  | (s, some f) =>
      if busy then s
      else if f.ampdu then
        let r := ath_tx_form_aggr buffer fits s.tid.buffered s f []
        { r.1 with hw := r.1.hw ++ [r.2] }
      else ath_tx_form_burst buffer s f

/-- The status of a transmission: the map `ba` of a block-ack from the number `ts_seqnum` on,
and whether the last buffer is a holding one that cannot be cloned. -/
structure Status where
  txok : Bool
  isba : Bool
  sameTid : Bool
  ts_seqnum : ℕ
  ba : BitVec 64
  flush : Bool
  sleeping : Bool
  retries : ℕ
  noClone : Bool

/-- `txok` after the check for the wrong TID. -/
def Status.ok (ts : Status) : Bool := ts.txok && !(ts.isba && !ts.sameTid)

/-- `ATH_BA_ISSET(ba, ATH_BA_INDEX(seq_st, seqno))`; the map is empty but for an aggregate
that was acknowledged by a block-ack. -/
def Status.acked (ts : Status) (isaggr : Bool) (seqno : ℕ) : Bool :=
  isaggr && ts.ok && ts.isba && ts.ba.getLsbD (ATH_BA_INDEX ts.ts_seqnum seqno)

inductive Fate where
  | done
  | failed
  | retry (f : Frame)
  /-- Out of retries: a BAR has to tell the receiver. -/
  | givenUp

/-- What the loop of `ath_tx_complete_aggr` makes of a frame. -/
def fateOf (ts : Status) (isaggr : Bool) (tid : Tid) (f : Frame) : Fate :=
  let seqno := f.seqno.getD 0
  if BAW_WITHIN tid.seq_start tid.baw_size seqno = false ∨ tid.active = false then .failed
  else if ts.acked isaggr seqno then .done
  else if isaggr = false ∧ ts.ok = true then .done
  else if ts.flush then .retry f
  else if f.retries < ATH_MAX_SW_RETRIES then
    if ts.ok || !ts.sleeping then .retry { f with retries := f.retries + ts.retries } else .retry f
  else .givenUp

/-- The state of the loop: `bf_pending` and `bar_index`. -/
structure Loop where
  s : State
  bf_pending : List Frame := []
  bar_index : ℤ := -1

def Loop.finish (l : Loop) (f : Frame) (ok : Bool) : Loop :=
  { l with s := (l.s.updateBaw (f.seqno.getD 0)).complete f ok }

def Loop.bar (l : Loop) (seq_first seqno : ℕ) : Loop :=
  { l with bar_index := max l.bar_index (ATH_BA_INDEX seq_first seqno) }

/-- One frame of the loop, the last one of its transmission or not. -/
def completeFrame (ts : Status) (isaggr : Bool) (seq_first : ℕ) (last : Bool) (l : Loop)
    (f : Frame) : Loop :=
  match fateOf ts isaggr l.s.tid f with
  | .done => l.finish f true
  | .failed => l.finish f false
  | .givenUp => (l.bar seq_first (f.seqno.getD 0)).finish f false
  | .retry f' =>
      if last && ts.noClone then (l.finish f' false).bar seq_first (f.seqno.getD 0)
      else { l with bf_pending := l.bf_pending ++ [f'] }

def completeFrames (ts : Status) (isaggr : Bool) (seq_first : ℕ) : List Frame → Loop → Loop
  | [], l => l
  | f :: rest, l =>
      completeFrames ts isaggr seq_first rest
        (completeFrame ts isaggr seq_first rest.isEmpty l f)

/-- The end of `ath_tx_complete_aggr`. -/
def Loop.close (l : Loop) (seq_first : ℕ) : State :=
  let s := l.s.setRetry (l.s.tid.retry_q ++ l.bf_pending)
  if 0 ≤ l.bar_index then
    let bar_seq := ATH_BA_INDEX2SEQ seq_first l.bar_index.toNat
    if BAW_WITHIN s.tid.seq_start s.tid.baw_size bar_seq then
      { s with tid := { s.tid with bar_index := ATH_BA_INDEX s.tid.seq_start bar_seq } }
    else s
  else s

/-- The loop for a station that is gone: the session is not looked at. -/
def completeAll (aggr : List Frame) (s : State) : State :=
  aggr.foldl (fun s f => s.complete f false) s

/-- `sta` says whether the station is found. -/
def ath_tx_complete_aggr (sta : Bool) (ts : Status) (aggr : List Frame) (s : State) : State :=
  let isaggr := decide (2 ≤ aggr.length)
  if sta then (completeFrames ts isaggr s.tid.seq_start aggr { s := s }).close s.tid.seq_start
  else completeAll aggr s

/-- `ath_tx_flush_tid`: the frames of the retry queue are dropped. -/
def ath_tx_flush_tid : List Frame → State → State
  | [], s => s.setRetry []
  | f :: rest, s =>
      let s := if f.baw_tracked then s.updateBaw (f.seqno.getD 0) else s
      ath_tx_flush_tid rest (s.complete f false)

/-- `ath_tx_tid_change_state` over the queue of new frames. -/
def changeState (buffer : Frame → Setup) : List Frame → State → State × List Frame
  | [], s => (s, [])
  | f :: rest, s =>
      let f := { f with ampdu := false }
      match setupBuffer buffer s f with
      | (s, none) => changeState buffer rest { s with dropped := s.dropped ++ [f] }
      | (s, some f) =>
          let r := changeState buffer rest s
          (r.1, f :: r.2)

def ath_tx_tid_change_state (buffer : Frame → Setup) (s : State) : State :=
  let r := changeState buffer s.tid.buf_q s
  r.1.setBuf r.2

def ath_tx_aggr_start (buffer : Frame → Setup) (s : State) : State :=
  let s := ath_tx_tid_change_state buffer s
  { s with
    tid := { s.tid with
      active := true, seq_start := s.tid.seq_next, bar_index := -1, tx_buf := 0, baw_head := 0,
      baw_tail := 0 } }

def ath_tx_aggr_stop (buffer : Frame → Setup) (s : State) : State :=
  let s := { s with tid := { s.tid with active := false } }
  ath_tx_tid_change_state buffer (ath_tx_flush_tid s.tid.retry_q s)

/-- `IEEE80211_MIN_AMPDU_BUF << sta->ht_cap.ampdu_factor`. -/
def ath_tx_aggr_resume (ampdu_factor : Fin 4) (s : State) : State :=
  { s with tid := { s.tid with baw_size := 8 <<< ampdu_factor.val } }

end Model

section Windows

variable {tid : Tid} {U : List Frame} {a t n : ℕ} {f : Frame}

/-- A number of the window that is the one of a frame. -/
def Outstanding (U : List Frame) (a t n : ℕ) : Prop :=
  a ≤ n ∧ n < t ∧ ∃ f ∈ U, f.seqno = some (n % 4096)

/-- The window has the numbers from `a` to `t`, and its marks are those of the frames `U`. -/
structure Loose (tid : Tid) (U : List Frame) (a t : ℕ) : Prop where
  start : tid.seq_start = a % 4096
  ring : Holds 128 tid.tx_buf.getLsbD tid.baw_head a t (Outstanding U a t)
  tail : tid.baw_tail = slot 128 tid.baw_head a t
  size : tid.baw_size ≤ 64
  span : t - a ≤ tid.baw_size
  numbered : ∀ f ∈ U, ∃ n, a ≤ n ∧ n < t ∧ f.seqno = some (n % 4096)
  nodup : (U.map Frame.seqno).Nodup
  tracked : ∀ f ∈ U, f.baw_tracked = true
  bar : tid.bar_index < (t - a : ℕ)

/-- The window starts with a frame under way. -/
structure Window (tid : Tid) (U : List Frame) (a t : ℕ) : Prop extends Loose tid U a t where
  first : a < t → ∃ f ∈ U, f.seqno = some (a % 4096)

/-- Numbers that are close to each other are told apart by their remainders. -/
theorem index_eq (ha : a ≤ n) (hn : n - a < 4096) :
    ATH_BA_INDEX (a % 4096) (n % 4096) = n - a := by
  unfold ATH_BA_INDEX
  omega

theorem Loose.within (h : Loose tid U a t) (hf : f ∈ U) :
    ∃ n, a ≤ n ∧ n < t ∧ f.seqno = some (n % 4096) ∧
      ATH_BA_INDEX tid.seq_start (n % 4096) = n - a ∧
      BAW_WITHIN tid.seq_start tid.baw_size (n % 4096) = true := by
  obtain ⟨n, hle, hlt, hseqno⟩ := h.numbered f hf
  have hsize := h.size
  have hspan := h.span
  have hindex : ATH_BA_INDEX tid.seq_start (n % 4096) = n - a := by
    rw [h.start]
    exact index_eq hle (by omega)
  refine ⟨n, hle, hlt, hseqno, hindex, ?_⟩
  rw [BAW_WITHIN, hindex]
  exact decide_eq_true (by omega)

theorem Outstanding.perm {U' : List Frame} (hperm : U.Perm U') :
    Outstanding U a t n ↔ Outstanding U' a t n := by
  unfold Outstanding
  simp only [hperm.mem_iff]

theorem Loose.perm {U' : List Frame} (h : Loose tid U a t) (hperm : U.Perm U') :
    Loose tid U' a t where
  start := h.start
  ring := h.ring.congr (fun _ => Outstanding.perm hperm)
  tail := h.tail
  size := h.size
  span := h.span
  numbered f hf := h.numbered f (hperm.mem_iff.mpr hf)
  nodup := (hperm.map _).nodup_iff.mp h.nodup
  tracked f hf := h.tracked f (hperm.mem_iff.mpr hf)
  bar := h.bar

theorem Window.perm {U' : List Frame} (h : Window tid U a t) (hperm : U.Perm U') :
    Window tid U' a t where
  toLoose := h.toLoose.perm hperm
  first hlt := by
    obtain ⟨f, hf, hseqno⟩ := h.first hlt
    exact ⟨f, hperm.mem_iff.mp hf, hseqno⟩

/-- Nothing of the session but its window. -/
structure SameQueues (tid tid' : Tid) : Prop where
  seq_next : tid'.seq_next = tid.seq_next
  baw_size : tid'.baw_size = tid.baw_size
  active : tid'.active = tid.active
  buf_q : tid'.buf_q = tid.buf_q
  retry_q : tid'.retry_q = tid.retry_q

theorem slide_same (k : ℕ) (tid : Tid) : SameQueues tid (slide k tid) := by
  induction k generalizing tid with
  | zero => exact ⟨rfl, rfl, rfl, rfl, rfl⟩
  | succ k ih =>
    rw [slide]
    split
    · obtain ⟨hnext, hsize, hactive, hbuf, hretry⟩ := ih _
      exact ⟨hnext, hsize, hactive, hbuf, hretry⟩
    · exact ⟨rfl, rfl, rfl, rfl, rfl⟩

theorem update_same (tid : Tid) (seqno : ℕ) : SameQueues tid (ath_tx_update_baw tid seqno) := by
  obtain ⟨hnext, hsize, hactive, hbuf, hretry⟩ := slide_same ATH_TID_MAX_BUFS { tid with
    tx_buf := tid.tx_buf &&& ~~~(BitVec.twoPow 128
      ((tid.baw_head + ATH_BA_INDEX tid.seq_start seqno) % ATH_TID_MAX_BUFS)) }
  exact ⟨hnext, hsize, hactive, hbuf, hretry⟩

/-- A number at the start that is not outstanding leaves the window. -/
theorem Loose.advance (h : Loose tid U a t) (hlt : a < t) (hfree : ¬ Outstanding U a t a) :
    Loose { tid with
      seq_start := INCR tid.seq_start IEEE80211_SEQ_MAX
      baw_head := INCR tid.baw_head ATH_TID_MAX_BUFS
      bar_index := if 0 ≤ tid.bar_index then tid.bar_index - 1 else tid.bar_index } U (a + 1) t := by
  have hgt : ∀ n, Outstanding U a t n → a + 1 ≤ n := by
    intro n hn
    refine Nat.lt_of_le_of_ne hn.1 ?_
    rintro rfl
    exact hfree hn
  have hspan := h.span
  refine ⟨?_, ?_, ?_, h.size, ?_, ?_, h.nodup, h.tracked, ?_⟩
  · change (tid.seq_start + 1) % 4096 = (a + 1) % 4096
    rw [h.start]
    omega
  · refine (h.ring.advance hlt hfree).congr (fun n => ?_)
    constructor
    · intro hn
      exact ⟨hgt n hn, hn.2⟩
    · intro hn
      exact ⟨by have := hn.1; omega, hn.2⟩
  · change tid.baw_tail = slot 128 ((tid.baw_head + 1) % 128) (a + 1) t
    rw [slot_advance hlt, h.tail]
  · change t - (a + 1) ≤ tid.baw_size
    omega
  · intro f hf
    obtain ⟨n, hle, hn, hseqno⟩ := h.numbered f hf
    exact ⟨n, hgt n ⟨hle, hn, f, hf, hseqno⟩, hn, hseqno⟩
  · have hbar := h.bar
    dsimp only
    split
    · omega
    · omega

/-- The loop stops at the oldest frame under way, or at the end of the window. -/
theorem Loose.slide {k : ℕ} (h : Loose tid U a t) (hk : t - a ≤ k) :
    ∃ a', a ≤ a' ∧ Window (slide k tid) U a' t := by
  induction k generalizing tid a with
  | zero => exact ⟨a, le_rfl, h, fun hlt => by omega⟩
  | succ k ih =>
    have htail : tid.baw_head ≠ tid.baw_tail ↔ a < t := by
      have hle := h.ring.le
      rw [h.tail, ne_comm, ne_eq, h.ring.slot_end_iff]
      omega
    have hmark := h.ring.marked_start_iff
    rw [BlockAck.slide]
    split
    · rename_i hcond
      have hlt := htail.mp hcond.1
      have hfree : ¬ Outstanding U a t a := by
        rw [← hmark, hcond.2]
        simp
      obtain ⟨a', hle, hwindow⟩ := ih (h.advance hlt hfree) (by omega)
      exact ⟨a', by omega, hwindow⟩
    · rename_i hcond
      refine ⟨a, le_rfl, h, fun hlt => ?_⟩
      have hset : tid.tx_buf.getLsbD tid.baw_head = true := by
        rw [← Bool.not_eq_false]
        exact fun hclear => hcond ⟨htail.mpr hlt, hclear⟩
      exact (hmark.mp hset).2.2

/-- A frame is through: its mark goes, and the window slides to the next one. -/
theorem Window.update (h : Window tid (f :: U) a t) :
    ∃ a', a ≤ a' ∧ Window (ath_tx_update_baw tid (f.seqno.getD 0)) U a' t := by
  obtain ⟨n, hle, hlt, hseqno, hindex, -⟩ := h.within List.mem_cons_self
  obtain ⟨hnot, hnodup⟩ := List.nodup_cons.mp h.nodup
  have hsize := h.size
  have hspan := h.span
  have hcindex : (tid.baw_head + ATH_BA_INDEX tid.seq_start (n % 4096)) % ATH_TID_MAX_BUFS =
      slot 128 tid.baw_head a n := by
    rw [hindex]
    rfl
  have hring : Holds 128 (tid.tx_buf &&& ~~~(BitVec.twoPow 128 (slot 128 tid.baw_head a n))).getLsbD
      tid.baw_head a t (fun m => Outstanding (f :: U) a t m ∧ m ≠ n) := by
    refine h.ring.clear ⟨hle, hlt⟩ (fun k hk => ?_)
    simp only [BitVec.getLsbD_and, BitVec.getLsbD_not, BitVec.getLsbD_twoPow, hk, decide_true,
      Bool.true_and, Bool.and_eq_true, Bool.not_eq_true', Bool.and_eq_false_iff,
      decide_eq_false_iff_not]
    have hslot : slot 128 tid.baw_head a n < 128 := slot_lt (by omega)
    constructor
    · rintro ⟨hset, hne | hne⟩
      · exact absurd hslot hne
      · exact ⟨Ne.symm hne, hset⟩
    · rintro ⟨hne, hset⟩
      exact ⟨hset, Or.inr (Ne.symm hne)⟩
  have hloose : Loose { tid with
      tx_buf := tid.tx_buf &&& ~~~(BitVec.twoPow 128 (slot 128 tid.baw_head a n)) } U a t := by
    refine ⟨h.start, hring.congr (fun m => ?_), h.tail, h.size, h.span,
      fun g hg => h.numbered g (List.mem_cons_of_mem f hg), hnodup,
      fun g hg => h.tracked g (List.mem_cons_of_mem f hg), h.bar⟩
    constructor
    · rintro ⟨⟨hm, hmt, g, hg, hgm⟩, hne⟩
      rcases List.mem_cons.mp hg with rfl | hg
      · rw [hseqno, Option.some.injEq] at hgm
        omega
      · exact ⟨hm, hmt, g, hg, hgm⟩
    · rintro ⟨hm, hmt, g, hg, hgm⟩
      refine ⟨⟨hm, hmt, g, List.mem_cons_of_mem f hg, hgm⟩, ?_⟩
      rintro rfl
      exact hnot (List.mem_map.mpr ⟨g, hg, hgm.trans hseqno.symm⟩)
  rw [hseqno, Option.getD_some, ath_tx_update_baw, hcindex]
  exact hloose.slide (show t - a ≤ 128 by omega)

theorem addto_same (tid : Tid) (seqno : ℕ) : SameQueues tid (ath_tx_addto_baw tid seqno) := by
  unfold ath_tx_addto_baw
  dsimp only
  split
  · exact ⟨rfl, rfl, rfl, rfl, rfl⟩
  · exact ⟨rfl, rfl, rfl, rfl, rfl⟩

/-- A frame with the next number is sent. -/
theorem Window.addto (h : Window tid U a t) (hroom : t - a < tid.baw_size)
    (hseqno : f.seqno = some (t % 4096)) (htracked : f.baw_tracked = true) :
    Window (ath_tx_addto_baw tid (t % 4096)) (f :: U) a (t + 1) := by
  have hsize := h.size
  have hle := h.ring.le
  have hindex : ATH_BA_INDEX tid.seq_start (t % 4096) = t - a := by
    rw [h.start]
    exact index_eq hle (by omega)
  have hhead := h.ring.head
  have hslot : (tid.baw_head + (t - a)) % 128 = slot 128 tid.baw_head a t := rfl
  have hused : tid.used = t - a := by
    unfold Tid.used
    rw [h.tail, ← hslot]
    omega
  have hadd : ath_tx_addto_baw tid (t % 4096) = { tid with
      tx_buf := tid.tx_buf ||| BitVec.twoPow 128 (slot 128 tid.baw_head a t)
      baw_tail := slot 128 tid.baw_head a (t + 1) } := by
    unfold ath_tx_addto_baw
    dsimp only
    rw [hindex]
    change (if tid.used ≤ t - a then _ else _) = _
    rw [hused, if_pos le_rfl]
    have htail : INCR (slot 128 tid.baw_head a t) 128 = slot 128 tid.baw_head a (t + 1) := by
      unfold INCR slot
      omega
    rw [← htail]
    rfl
  have hring : Holds 128 (tid.tx_buf ||| BitVec.twoPow 128 (slot 128 tid.baw_head a t)).getLsbD
      tid.baw_head a (t + 1) (fun m => Outstanding U a t m ∨ m = t) := by
    refine h.ring.extend (by omega) (fun k hk => ?_)
    simp only [BitVec.getLsbD_or, BitVec.getLsbD_twoPow, Bool.or_eq_true, Bool.and_eq_true,
      decide_eq_true_eq]
    have hlt : slot 128 tid.baw_head a t < 128 := slot_lt (by omega)
    constructor
    · rintro (hset | ⟨-, heq⟩)
      · exact Or.inr hset
      · exact Or.inl heq.symm
    · rintro (heq | hset)
      · exact Or.inr ⟨hlt, heq.symm⟩
      · exact Or.inl hset
  rw [hadd]
  refine ⟨⟨h.start, hring.congr (fun m => ?_), rfl, h.size, ?_, ?_, ?_, ?_, ?_⟩, ?_⟩
  · constructor
    · rintro (⟨hm, hmt, g, hg, hgm⟩ | rfl)
      · exact ⟨hm, by omega, g, List.mem_cons_of_mem f hg, hgm⟩
      · exact ⟨hle, by omega, f, List.mem_cons_self, hseqno⟩
    · rintro ⟨hm, hmt, g, hg, hgm⟩
      rcases List.mem_cons.mp hg with rfl | hg
      · rw [hseqno, Option.some.injEq] at hgm
        exact Or.inr (by omega)
      · obtain ⟨n, hn, hnt, hgn⟩ := h.numbered g hg
        rw [hgn, Option.some.injEq] at hgm
        exact Or.inl ⟨hm, by omega, g, hg, by rw [hgn]; exact congrArg some hgm⟩
  · change t + 1 - a ≤ tid.baw_size
    omega
  · intro g hg
    rcases List.mem_cons.mp hg with rfl | hg
    · exact ⟨t, hle, by omega, hseqno⟩
    · obtain ⟨n, hn, hnt, hgn⟩ := h.numbered g hg
      exact ⟨n, hn, by omega, hgn⟩
  · rw [List.map_cons, List.nodup_cons]
    refine ⟨?_, h.nodup⟩
    intro hmem
    obtain ⟨g, hg, hgt⟩ := List.mem_map.mp hmem
    obtain ⟨n, hn, hnt, hgn⟩ := h.numbered g hg
    rw [hgn, hseqno, Option.some.injEq] at hgt
    have hspan := h.span
    omega
  · intro g hg
    rcases List.mem_cons.mp hg with rfl | hg
    · exact htracked
    · exact h.tracked g hg
  · have hbar := h.bar
    change tid.bar_index < _
    omega
  · intro _
    by_cases hlt : a < t
    · obtain ⟨g, hg, hgs⟩ := h.first hlt
      exact ⟨g, List.mem_cons_of_mem f hg, hgs⟩
    · obtain rfl : a = t := by omega
      exact ⟨f, List.mem_cons_self, hseqno⟩

end Windows

end Nxwlan.BlockAck
