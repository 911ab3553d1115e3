import Mathlib.Logic.Function.Basic
import Mathlib.Data.Int.Notation
import Mathlib.Data.Nat.Notation
import Mathlib.Tactic.Common

/-!
The buffer of mac80211 in which the frames of a block acknowledgement session are put back into
order. A frame waits in a ring for the ones before it; a request of the sender, a frame behind
the end of the ring or a timer gives up the frames that are missing.
-/
namespace Nxwlan.RxReorder

section SequenceNumbers

def ieee80211_sn_less (sn1 sn2 : ℕ) : Bool := 2048 < ((sn1 : ℤ) - sn2) % 4096

def ieee80211_sn_add (sn1 sn2 : ℕ) : ℕ := (sn1 + sn2) % 4096

def ieee80211_sn_inc (sn : ℕ) : ℕ := ieee80211_sn_add sn 1

def ieee80211_sn_sub (sn1 sn2 : ℕ) : ℕ := (((sn1 : ℤ) - sn2) % 4096).toNat

/-- `time_after`, for jiffies that may wrap. -/
def time_after (a b : BitVec 64) : Bool := (b - a).slt 0

end SequenceNumbers

section Buffer

/-- A received data frame of the session's traffic identifier. -/
structure Frame where
  seq_ctrl : BitVec 16
  amsdu_more : Bool
  data : List UInt8
  deriving DecidableEq

def Frame.mpdu_seq_num (skb : Frame) : ℕ := ((skb.seq_ctrl &&& 0xfff0#16) >>> 4).toNat

def Frame.fragment (skb : Frame) : Bool := skb.seq_ctrl &&& 0x000f#16 ≠ 0

/-- `tid_ampdu_rx`. -/
structure TidRx where
  reorder_buf : ℕ → List Frame := fun _ => []
  reorder_time : ℕ → BitVec 64 := fun _ => 0
  reorder_timer : Option (BitVec 64) := none
  head_seq_num : ℕ
  stored_mpdu_num : ℤ := 0
  ssn : ℕ
  buf_size : ℕ
  auto_seq : Bool
  removed : Bool

def ieee80211_rx_reorder_ready (frames : List Frame) : Bool :=
  match frames.getLast? with
  | none => false
  | some tail => !tail.amsdu_more

/-- `__skb_queue_purge` for a slot of the ring. -/
def purge (index : ℕ) (t : TidRx) : TidRx :=
  { t with reorder_buf := Function.update t.reorder_buf index [] }

def ieee80211_release_reorder_frame (index : ℕ) (t : TidRx) (frames : List Frame) :
    TidRx × List Frame :=
  let skb_list := t.reorder_buf index
  let t' := { t with head_seq_num := ieee80211_sn_inc t.head_seq_num }
  if skb_list = [] then (t', frames)
  else if ieee80211_rx_reorder_ready skb_list = false then (purge index t', frames)
  else (purge index { t' with stored_mpdu_num := t.stored_mpdu_num - 1 }, frames ++ skb_list)

/-- The loop of `ieee80211_release_reorder_frames`. `none` where a loop is still running after
the first argument's number of rounds, here and below. -/
def releaseLoop (head_seq_num : ℕ) : ℕ → TidRx → List Frame → Option (TidRx × List Frame)
  | 0, _, _ => none
  | k + 1, t, frames =>
      if ieee80211_sn_less t.head_seq_num head_seq_num then
        let r := ieee80211_release_reorder_frame (t.head_seq_num % t.buf_size) t frames
        releaseLoop head_seq_num k r.1 r.2
      else some (t, frames)

def ieee80211_release_reorder_frames (head_seq_num : ℕ) (t : TidRx) (frames : List Frame) :
    Option (TidRx × List Frame) :=
  releaseLoop head_seq_num 4096 t frames

/-- The slots from `i` on are purged, up to the slot `j`. -/
def purgeLoop (j : ℕ) : ℕ → ℕ → TidRx → Option TidRx
  | 0, _, _ => none
  | k + 1, i, t => if i = j then some t else purgeLoop j k ((i + 1) % t.buf_size) (purge i t)

/-- The slots behind `index` are searched for frames that have timed out. The slot whose time
the timer is set for is returned, too, if the search ends there. -/
def expireLoop (timeout jiffies : BitVec 64) (index : ℕ) :
    ℕ → ℕ → ℕ → TidRx → List Frame → Option (TidRx × List Frame × Option ℕ)
  | 0, _, _, _, _ => none
  | k + 1, j, skipped, t, frames =>
      if j = index then some (t, frames, none)
      else if ieee80211_rx_reorder_ready (t.reorder_buf j) = false then
        expireLoop timeout jiffies index k ((j + 1) % t.buf_size) (skipped + 1) t frames
      else if skipped ≠ 0 ∧ time_after jiffies (t.reorder_time j + timeout) = false then
        some (t, frames, some j)
      else
        match purgeLoop j t.buf_size ((index + 1) % t.buf_size) t with
        | none => none
        | some t =>
            let r := ieee80211_release_reorder_frame j t frames
            expireLoop timeout jiffies index k ((j + 1) % t.buf_size) 0
              { r.1 with head_seq_num := (r.1.head_seq_num + skipped) % 4096 } r.2

/-- The frames at the head are released. -/
def readyLoop : ℕ → ℕ → TidRx → List Frame → Option (TidRx × List Frame)
  | 0, _, _, _ => none
  | k + 1, index, t, frames =>
      if ieee80211_rx_reorder_ready (t.reorder_buf index) then
        let r := ieee80211_release_reorder_frame index t frames
        readyLoop k (r.1.head_seq_num % r.1.buf_size) r.1 r.2
      else some (t, frames)

/-- The first slot with a frame. The slot before `index` ends the search; there is none before
slot 0, where the remainder is -1. -/
def findLoop (t : TidRx) (index : ℕ) : ℕ → ℕ → Option ℕ
  | 0, _ => none
  | k + 1, j =>
      if (j : ℤ) = ((index : ℤ) - 1).tmod t.buf_size then some j
      else if ieee80211_rx_reorder_ready (t.reorder_buf j) then some j
      else findLoop t index k ((j + 1) % t.buf_size)

/-- The timer for the frame in slot `j`. -/
def setTimer (timeout : BitVec 64) (j : ℕ) (t : TidRx) : TidRx :=
  if t.removed then t else { t with reorder_timer := some (t.reorder_time j + 1 + timeout) }

/-- The end of `ieee80211_sta_reorder_release`. -/
def resetTimer (timeout : BitVec 64) (t : TidRx) : Option TidRx :=
  if t.stored_mpdu_num ≠ 0 then
    let index := t.head_seq_num % t.buf_size
    (findLoop t index t.buf_size index).map (fun j => setTimer timeout j t)
  else some { t with reorder_timer := none }

/-- `timeout` is HT_RX_REORDER_BUF_TIMEOUT, a tenth of a second. -/
def ieee80211_sta_reorder_release (timeout jiffies : BitVec 64) (t : TidRx)
    (frames : List Frame) : Option (TidRx × List Frame) :=
  let index := t.head_seq_num % t.buf_size
  if ieee80211_rx_reorder_ready (t.reorder_buf index) = false ∧ t.stored_mpdu_num ≠ 0 then
    match expireLoop timeout jiffies index t.buf_size ((index + 1) % t.buf_size) 1 t frames with
    | none => none
    | some (t, frames, some j) => some (setTimer timeout j t, frames)
    | some (t, frames, none) => (resetTimer timeout t).map (fun t => (t, frames))
  else
    match readyLoop (t.buf_size + 1) index t frames with
    | none => none
    | some (t, frames) => (resetTimer timeout t).map (fun t => (t, frames))

/-- Frames are released to make room for one behind the end of the ring. -/
def makeRoom (mpdu_seq_num : ℕ) (t : TidRx) (frames : List Frame) : Option (TidRx × List Frame) :=
  if ieee80211_sn_less mpdu_seq_num (t.head_seq_num + t.buf_size) = false then
    ieee80211_release_reorder_frames
      (ieee80211_sn_inc (ieee80211_sn_sub mpdu_seq_num t.buf_size)) t frames
  else some (t, frames)

/-- A frame in the range of the ring. The last result is false for a frame that is processed at
once. -/
def placeFrame (timeout jiffies : BitVec 64) (skb : Frame) (t : TidRx) (frames : List Frame) :
    Option (TidRx × List Frame × Bool) :=
  let index := skb.mpdu_seq_num % t.buf_size
  if ieee80211_rx_reorder_ready (t.reorder_buf index) then some (t, frames, true)
  else if skb.mpdu_seq_num = t.head_seq_num ∧ t.stored_mpdu_num = 0 then
    if skb.amsdu_more then some (t, frames, false)
    else some ({ t with head_seq_num := ieee80211_sn_inc t.head_seq_num }, frames, false)
  else
    let t :=
      { t with reorder_buf := Function.update t.reorder_buf index (t.reorder_buf index ++ [skb]) }
    if skb.amsdu_more then some (t, frames, true)
    else
      let t :=
        { t with
          reorder_time := Function.update t.reorder_time index jiffies
          stored_mpdu_num := t.stored_mpdu_num + 1 }
      (ieee80211_sta_reorder_release timeout jiffies t frames).map (fun r => (r.1, r.2, true))

def ieee80211_sta_manage_reorder_buf (timeout jiffies : BitVec 64) (skb : Frame) (t : TidRx)
    (frames : List Frame) : Option (TidRx × List Frame × Bool) :=
  let mpdu_seq_num := skb.mpdu_seq_num
  let t :=
    if t.auto_seq then
      { t with auto_seq := false, ssn := mpdu_seq_num, head_seq_num := mpdu_seq_num }
    else t
  if ieee80211_sn_less mpdu_seq_num t.head_seq_num then some (t, frames, true)
  else
    (makeRoom mpdu_seq_num t frames).bind (fun r => placeFrame timeout jiffies skb r.1 r.2)

end Buffer

section Session

/-- A session: its buffer, what has been handed to the receive handlers, and the fragments that
have been queued to end the session. -/
structure Session where
  tid_rx : TidRx
  frames : List Frame := []
  skb_queue : List Frame := []

/-- What `__ieee80211_start_rx_ba_session` knows about the station and the driver. -/
structure Capabilities where
  ht_supported : Bool
  block_ba : Bool
  delay_ba : Bool
  max_rx_aggregation_subframes : ℕ

/-- `__ieee80211_start_rx_ba_session`; `none` for a request that is declined. The memory of the
session is not cleared, and `removed` is not set: it stays what it is there. -/
def start_rx_ba_session (cap : Capabilities) (removed : Bool)
    (start_seq_num ba_policy buf_size : ℕ) (auto_seq : Bool) : Option Session :=
  if cap.ht_supported = false ∨ cap.block_ba = true then none
  else if (ba_policy ≠ 1 ∧ cap.delay_ba = false) ∨ 64 < buf_size then none
  else
    let buf_size := if buf_size = 0 then 64 else buf_size
    let buf_size := min buf_size cap.max_rx_aggregation_subframes
    some {
      tid_rx :=
        { head_seq_num := start_seq_num, ssn := start_seq_num, buf_size, auto_seq, removed } }

/-- `ieee80211_process_addba_request`, with the parameters of the request. -/
def ieee80211_process_addba_request (cap : Capabilities) (removed : Bool)
    (start_seq_num capab : BitVec 16) : Option Session :=
  start_rx_ba_session cap removed (start_seq_num >>> 4).toNat
    ((capab &&& 0x0002#16) >>> 1).toNat ((capab &&& 0xffc0#16) >>> 6).toNat false

/-- `ieee80211_rx_reorder_ampdu` for a frame that belongs to the session. -/
def ieee80211_rx_reorder_ampdu (timeout jiffies : BitVec 64) (skb : Frame) (rx : Session) :
    Option Session :=
  if skb.fragment then some { rx with skb_queue := rx.skb_queue ++ [skb] }
  else
    match ieee80211_sta_manage_reorder_buf timeout jiffies skb rx.tid_rx rx.frames with
    | none => none
    | some (t, frames, true) => some { rx with tid_rx := t, frames }
    | some (t, frames, false) => some { rx with tid_rx := t, frames := frames ++ [skb] }

/-- The branch of `ieee80211_rx_h_ctrl` for a block acknowledgement request. -/
def ieee80211_rx_h_ctrl (start_seq_num : BitVec 16) (rx : Session) : Option Session :=
  match ieee80211_release_reorder_frames (start_seq_num >>> 4).toNat rx.tid_rx rx.frames with
  | none => none
  | some (t, frames) => some { rx with tid_rx := t, frames }

/-- The timer runs out, if it has been set. -/
def ieee80211_release_reorder_timeout (timeout jiffies : BitVec 64) (rx : Session) :
    Option Session :=
  match rx.tid_rx.reorder_timer with
  | none => some rx
  | some _ =>
      match ieee80211_sta_reorder_release timeout jiffies { rx.tid_rx with reorder_timer := none }
          rx.frames with
      | none => none
      | some (t, frames) => some { rx with tid_rx := t, frames }

inductive Event where
  | frame (skb : Frame) (jiffies : BitVec 64)
  | bar (start_seq_num : BitVec 16)
  | timer (jiffies : BitVec 64)

def Session.handle (timeout : BitVec 64) (rx : Session) : Event → Option Session
  | .frame skb jiffies => ieee80211_rx_reorder_ampdu timeout jiffies skb rx
  | .bar start_seq_num => ieee80211_rx_h_ctrl start_seq_num rx
  | .timer jiffies => ieee80211_release_reorder_timeout timeout jiffies rx

def Session.run (timeout : BitVec 64) (rx : Session) : List Event → Option Session
  | [] => some rx
  | e :: events => (rx.handle timeout e).bind (fun rx => rx.run timeout events)

end Session

end Nxwlan.RxReorder
