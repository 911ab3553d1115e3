import Nxwlan.OrderedQueues
import Mathlib.Data.Int.Notation
import Mathlib.Data.Prod.Lex
import Mathlib.Order.Lattice
import Mathlib.Algebra.Order.Group.Int

/-!
The timeouts of the event loop of hostapd, which are kept in the order of their times. Each round
of the loop runs the handler of the first one if it is due. Handlers run in the order of the
times, and a timeout that is due is run however many others are registered in the meantime.
-/
namespace Nxwlan.EloopTimeouts

open OrderedQueues

section Times

/-- `os_reltime`. -/
structure Reltime where
  sec : ℤ
  usec : ℤ
  deriving DecidableEq

def os_reltime_before (a b : Reltime) : Bool :=
  a.sec < b.sec || (a.sec == b.sec && a.usec < b.usec)

def os_reltime_sub (a b : Reltime) : Reltime :=
  let sec := a.sec - b.sec
  let usec := a.usec - b.usec
  if usec < 0 then ⟨sec - 1, usec + 1000000⟩ else ⟨sec, usec⟩

/-- The loop that carries full seconds, for at most the first argument's number of rounds. -/
def carry : ℕ → Reltime → Reltime
  | 0, t => t
  | k + 1, t => if 1000000 ≤ t.usec then carry k ⟨t.sec + 1, t.usec - 1000000⟩ else t

/-- The order in which times are compared. -/
def Reltime.order (t : Reltime) : ℤ ×ₗ ℤ := toLex (t.sec, t.usec)

theorem before_iff {a b : Reltime} : os_reltime_before a b = true ↔ a.order < b.order := by
  simp [os_reltime_before, Reltime.order, Prod.Lex.toLex_lt_toLex]

theorem not_before_iff {a b : Reltime} : os_reltime_before a b = false ↔ b.order ≤ a.order := by
  rw [← not_lt, ← before_iff, Bool.not_eq_true]

theorem order_le {a b : Reltime} (hsec : a.sec ≤ b.sec) (husec : a.usec ≤ b.usec) :
    a.order ≤ b.order := by
  rw [Reltime.order, Reltime.order, Prod.Lex.toLex_le_toLex]
  rcases hsec.lt_or_eq with hlt | heq
  · exact Or.inl hlt
  · exact Or.inr ⟨heq, husec⟩

theorem order_carry (k : ℕ) (t : Reltime) : t.order ≤ (carry k t).order := by
  induction k generalizing t with
  | zero => exact le_rfl
  | succ k ih =>
    unfold carry
    split
    · refine le_trans ?_ (ih _)
      rw [Reltime.order, Reltime.order, Prod.Lex.toLex_le_toLex]
      exact Or.inl (Int.lt_succ _)
    · exact le_rfl

theorem carry_lt {k : ℕ} {t : Reltime} (h : t.usec < 1000000 * (k + 1)) :
    (carry k t).usec < 1000000 := by
  induction k generalizing t with
  | zero =>
    rw [carry]
    simpa using h
  | succ k ih =>
    unfold carry
    split
    · refine ih ?_
      show t.usec - 1000000 < 1000000 * ((k : ℤ) + 1)
      push_cast at h
      omega
    · omega

/-- The rounds that a registration allows are enough: the loop ends with less than a second
left. -/
theorem carry_done (sec usec : ℤ) :
    (carry (usec / 1000000).toNat ⟨sec, usec⟩).usec < 1000000 := by
  refine carry_lt ?_
  show usec < 1000000 * (((usec / 1000000).toNat : ℤ) + 1)
  omega

end Times

section Timeouts

/-- `eloop_timeout`, with the handlers and the data that they are called with. -/
structure Timeout (H D U : Type*) where
  time : Reltime
  handler : H
  eloop_data : D
  user_data : U
  deriving DecidableEq

variable {H D U : Type*}

/-- The place of a timeout in the list: before the first one with a later time. -/
def insertTimeout (timeout : Timeout H D U) : List (Timeout H D U) → List (Timeout H D U)
  | [] => [timeout]
  | tmp :: list =>
      if os_reltime_before timeout.time tmp.time then timeout :: tmp :: list
      else tmp :: insertTimeout timeout list

/-- `granted` is false where there is no memory or no clock. Times have 64 bits. -/
def eloop_register_timeout (granted : Bool) (now : Reltime) (secs usecs : ℕ) (handler : H)
    (eloop_data : D) (user_data : U) (list : List (Timeout H D U)) : List (Timeout H D U) × ℤ :=
  if granted = false then (list, -1)
  else
    let sec := Int.bmod (now.sec + secs) 0x10000000000000000
    if sec < now.sec then (list, 0)
    else
      let usec := now.usec + usecs
      let time := carry (usec / 1000000).toNat ⟨sec, usec⟩
      (insertTimeout { time, handler, eloop_data, user_data } list, 0)

/-- The part of a round of `eloop_run` that looks at the timeouts, with the one whose handler
runs. -/
def eloop_run_timeouts (now : Reltime) :
    List (Timeout H D U) → List (Timeout H D U) × Option (Timeout H D U)
  | [] => ([], none)
  | timeout :: list =>
      if os_reltime_before now timeout.time = false then (list, some timeout)
      else (timeout :: list, none)

variable [DecidableEq H] [DecidableEq D] [DecidableEq U]

/-- The test of the timeouts that are meant; `none` stands for `ELOOP_ALL_CTX`. -/
def Timeout.isFor (handler : H) (eloop_data : Option D) (user_data : Option U)
    (t : Timeout H D U) : Bool :=
  decide (t.handler = handler) && eloop_data.all (fun d => decide (t.eloop_data = d)) &&
    user_data.all (fun d => decide (t.user_data = d))

def eloop_cancel_timeout (handler : H) (eloop_data : Option D) (user_data : Option U)
    (list : List (Timeout H D U)) : List (Timeout H D U) × ℕ :=
  (list.filter (fun t => !t.isFor handler eloop_data user_data),
    list.countP (Timeout.isFor handler eloop_data user_data))

/-- Only the first one that is meant is removed. The last result is the time that remained. -/
def eloop_cancel_timeout_one (now : Reltime) (handler : H) (eloop_data : D)
    (user_data : U) (list : List (Timeout H D U)) : List (Timeout H D U) × ℕ × Reltime :=
  let isFor := Timeout.isFor handler (some eloop_data) (some user_data)
  match list.find? isFor with
  | none => (list, 0, ⟨0, 0⟩)
  | some timeout =>
      (list.eraseP isFor, 1,
        if os_reltime_before now timeout.time then os_reltime_sub timeout.time now else ⟨0, 0⟩)

/-- The timeout is set anew if the time that remains of one of those that are meant asks for it.
The clock is read for each of them, and for the registration. -/
def setAnew (asks : Reltime → Bool) (granted : Bool) (now : ℕ → Reltime) (req_secs req_usecs : ℕ)
    (handler : H) (eloop_data : D) (user_data : U) (list : List (Timeout H D U)) :
    List (Timeout H D U) × ℤ :=
  let isFor := Timeout.isFor handler (some eloop_data) (some user_data)
  match (list.filter isFor).zipIdx.find? (fun x => asks (os_reltime_sub x.1.time (now x.2))) with
  | none => (list, 0)
  | some x =>
      let kept := (eloop_cancel_timeout handler (some eloop_data) (some user_data) list).1
      ((eloop_register_timeout granted (now (x.2 + 1)) req_secs req_usecs handler eloop_data
        user_data kept).1, 1)

/-- A timeout with more time left than requested is shortened. -/
def eloop_deplete_timeout (granted : Bool) (now : ℕ → Reltime) (req_secs req_usecs : ℕ)
    (handler : H) (eloop_data : D) (user_data : U) (list : List (Timeout H D U)) :
    List (Timeout H D U) × ℤ :=
  setAnew (fun remaining => os_reltime_before ⟨req_secs, req_usecs⟩ remaining) granted now req_secs
    req_usecs handler eloop_data user_data list

/-- A timeout with less time left than requested is prolonged. -/
def eloop_replenish_timeout (granted : Bool) (now : ℕ → Reltime) (req_secs req_usecs : ℕ)
    (handler : H) (eloop_data : D) (user_data : U) (list : List (Timeout H D U)) :
    List (Timeout H D U) × ℤ :=
  setAnew (fun remaining => os_reltime_before remaining ⟨req_secs, req_usecs⟩) granted now req_secs
    req_usecs handler eloop_data user_data list

end Timeouts

section Runs

variable (H D U : Type*)

/-- What is done to the timeouts. Handlers do it in between, too. -/
inductive Op where
  | register (granted : Bool) (now : Reltime) (secs usecs : ℕ) (handler : H)
      (eloop_data : D) (user_data : U)
  | cancel (handler : H) (eloop_data : Option D) (user_data : Option U)
  | cancel_one (now : Reltime) (handler : H) (eloop_data : D) (user_data : U)
  | deplete (granted : Bool) (now : ℕ → Reltime) (req_secs req_usecs : ℕ) (handler : H)
      (eloop_data : D) (user_data : U)
  | replenish (granted : Bool) (now : ℕ → Reltime) (req_secs req_usecs : ℕ) (handler : H)
      (eloop_data : D) (user_data : U)
  | round (now : Reltime)

variable {H D U} [DecidableEq H] [DecidableEq D] [DecidableEq U]

def step (list : List (Timeout H D U)) : Op H D U → List (Timeout H D U) × Option (Timeout H D U)
  | .register granted now secs usecs handler eloop_data user_data =>
      ((eloop_register_timeout granted now secs usecs handler eloop_data user_data list).1, none)
  | .cancel handler eloop_data user_data =>
      ((eloop_cancel_timeout handler eloop_data user_data list).1, none)
  | .cancel_one now handler eloop_data user_data =>
      ((eloop_cancel_timeout_one now handler eloop_data user_data list).1, none)
  | .deplete granted now req_secs req_usecs handler eloop_data user_data =>
      ((eloop_deplete_timeout granted now req_secs req_usecs handler eloop_data user_data list).1,
        none)
  | .replenish granted now req_secs req_usecs handler eloop_data user_data =>
      ((eloop_replenish_timeout granted now req_secs req_usecs handler eloop_data user_data list).1,
        none)
  | .round now => eloop_run_timeouts now list

/-- The timeouts after some operations, and those whose handlers have run, in that order. -/
def run (list : List (Timeout H D U)) :
    List (Op H D U) → List (Timeout H D U) × List (Timeout H D U)
  | [] => (list, [])
  | op :: ops =>
      let r := run (step list op).1 ops
      (r.1, (step list op).2.toList ++ r.2)

end Runs

end Nxwlan.EloopTimeouts
