import Mathlib.Data.List.AList
import Mathlib.Data.List.FinRange
import Nxwlan.ClientBlacklist
import Nxwlan.HeapLists

/-!
The stations of hostapd in memory. Each BSS has a list of its stations and a table of 256
chains for the last byte of an address; timeouts of the event loop hold the address of the
station that they are about. A station is freed by a management frame, by the driver, or by
its own timeout, which polls it, disassociates it and removes it.
-/
namespace Nxwlan.StationLists

open HeapLists
open ClientBlacklist (Mac)

section Memory

/-- The address of a station in memory. -/
abbrev Ptr := ℕ

inductive TimeoutNext where
  | STA_NULLFUNC | STA_DISASSOC | STA_DEAUTH | STA_REMOVE | STA_DISASSOC_FROM_CLI
  deriving DecidableEq

def WLAN_STA_AUTH : BitVec 32 := 1#32

def WLAN_STA_ASSOC : BitVec 32 := 1#32 <<< 1

def WLAN_STA_AUTHORIZED : BitVec 32 := 1#32 <<< 5

def WLAN_STA_PENDING_POLL : BitVec 32 := 1#32 <<< 6

def WLAN_STA_ASSOC_REQ_OK : BitVec 32 := 1#32 <<< 15

def WLAN_STA_GAS : BitVec 32 := 1#32 <<< 17

def WLAN_STA_PENDING_DISASSOC_CB : BitVec 32 := 1#32 <<< 29

def WLAN_STA_PENDING_DEAUTH_CB : BitVec 32 := 1#32 <<< 30

/-- `sta_info`. -/
structure StaInfo where
  next : Option Ptr
  hnext : Option Ptr
  addr : Mac
  flags : BitVec 32 := 0
  timeout_next : TimeoutNext := .STA_NULLFUNC
  acct_session_started : Bool := false
  deriving DecidableEq

def StaInfo.has (info : StaInfo) (flag : BitVec 32) : Bool := info.flags &&& flag ≠ 0

def StaInfo.set (info : StaInfo) (flag : BitVec 32) : StaInfo :=
  { info with flags := info.flags ||| flag }

def StaInfo.clear (info : StaInfo) (flag : BitVec 32) : StaInfo :=
  { info with flags := info.flags &&& ~~~flag }

inductive Handler where
  | ap_handle_timer
  | ap_handle_session_timer
  | ap_sta_deauth_cb_timeout
  | ap_sta_disassoc_cb_timeout
  | accounting_interim_update
  | rsn_preauth_finished_cb
  deriving DecidableEq

/-- `eloop_timeout`, without its time. -/
structure Timeout (n : ℕ) where
  handler : Handler
  hapd : Fin n
  sta : Ptr
  deriving DecidableEq

structure Conf where
  max_num_sta : ℕ
  ap_max_inactivity : ℕ
  skip_inactivity_poll : Bool
  acct_server : Bool

/-- `hostapd_data`. -/
structure Hapd where
  conf : Conf
  sta_list : Option Ptr := none
  sta_hash : UInt8 → Option Ptr := fun _ => none
  num_sta : ℤ := 0

/-- The memory with its stations, the BSSs of the interface, and the timeouts. -/
structure State (n : ℕ) where
  heap : AList (fun _ : Ptr => StaInfo) := ∅
  bss : Fin n → Hapd
  timeout : List (Timeout n) := []

/-- What happens outside of hostapd while it handles an event: the driver's answer on the
inactivity of a station, a random number, and which timeouts there is memory for. -/
structure Env (n : ℕ) where
  inactive_sec : ℤ := -1
  random : ℕ := 0
  memory : Timeout n → Bool := fun _ => true

variable {n : ℕ}

def State.load (s : State n) (p : Ptr) : Option StaInfo := s.heap.lookup p

/-- A write to a station. -/
def State.store (s : State n) (p : Ptr) (f : StaInfo → StaInfo) : Option (State n) :=
  (s.load p).map (fun info => { s with heap := s.heap.insert p (f info) })

def State.setBss (s : State n) (hapd : Fin n) (data : Hapd) : State n :=
  { s with bss := Function.update s.bss hapd data }

def eloop_register_timeout (env : Env n) (handler : Handler) (hapd : Fin n) (sta : Ptr)
    (s : State n) : State n :=
  if env.memory ⟨handler, hapd, sta⟩ then { s with timeout := s.timeout ++ [⟨handler, hapd, sta⟩] }
  else s

def eloop_cancel_timeout (handler : Handler) (hapd : Fin n) (sta : Ptr) (s : State n) : State n :=
  { s with timeout := s.timeout.filter (fun t => t ≠ ⟨handler, hapd, sta⟩) }

/-- A timeout is set anew. -/
def reschedule (env : Env n) (handler : Handler) (hapd : Fin n) (sta : Ptr) (s : State n) :
    State n :=
  eloop_register_timeout env handler hapd sta (eloop_cancel_timeout handler hapd sta s)

/-- A loop over the stations; it does not come to more of them than there are. -/
def State.chase (s : State n) (link : StaInfo → Option Ptr) (stop : StaInfo → Option Bool)
    (head : Option Ptr) : Option (Option Ptr) :=
  HeapLists.chase s.load link stop s.heap.keys.length head

def STA_HASH (sta : Mac) : UInt8 := sta[5]

end Memory

section Tables

variable {n : ℕ}

/-- `none` for a read of memory that holds no station, as in all the functions below. -/
def ap_get_sta (s : State n) (hapd : Fin n) (sta : Mac) : Option (Option Ptr) :=
  s.chase StaInfo.hnext (fun info => some (info.addr = sta)) ((s.bss hapd).sta_hash (STA_HASH sta))

def ap_sta_list_del (s : State n) (hapd : Fin n) (sta : Ptr) : Option (State n) := do
  let info ← s.load sta
  if (s.bss hapd).sta_list = some sta then
    return s.setBss hapd { s.bss hapd with sta_list := info.next }
  else
    match ← s.chase StaInfo.next (fun tmp => some (tmp.next = some sta)) (s.bss hapd).sta_list with
    | none => return s
    | some tmp => s.store tmp (fun tmp => { tmp with next := info.next })

def ap_sta_hash_add (s : State n) (hapd : Fin n) (sta : Ptr) : Option (State n) := do
  let info ← s.load sta
  let bucket := STA_HASH info.addr
  let s ← s.store sta (fun info => { info with hnext := (s.bss hapd).sta_hash bucket })
  return s.setBss hapd { s.bss hapd with
    sta_hash := Function.update (s.bss hapd).sta_hash bucket (some sta) }

/-- Where the loop of `ap_sta_hash_del` stops: before the station with the address, and at a
station without a next one, too. -/
def State.leadsTo (s : State n) (addr : Mac) (cell : StaInfo) : Option Bool :=
  match cell.hnext with
  | none => some true
  | some q => (s.load q).map (fun other => other.addr = addr)

def ap_sta_hash_del (s : State n) (hapd : Fin n) (sta : Ptr) : Option (State n) := do
  let info ← s.load sta
  let bucket := STA_HASH info.addr
  match (s.bss hapd).sta_hash bucket with
  | none => return s
  | some first =>
      let head ← s.load first
      if head.addr = info.addr then
        return s.setBss hapd { s.bss hapd with
          sta_hash := Function.update (s.bss hapd).sta_hash bucket head.hnext }
      else
        match ← s.chase StaInfo.hnext (s.leadsTo info.addr) (some first) with
        | none => return s
        | some before =>
            let cell ← s.load before
            match cell.hnext with
            | none => return s
            | some q =>
                let other ← s.load q
                s.store before (fun cell => { cell with hnext := other.hnext })

def ap_sta_set_authorized (s : State n) (sta : Ptr) (authorized : Bool) : Option (State n) := do
  let info ← s.load sta
  if authorized = info.has WLAN_STA_AUTHORIZED then return s
  else if authorized then s.store sta (fun info => info.set WLAN_STA_AUTHORIZED)
  else s.store sta (fun info => info.clear WLAN_STA_AUTHORIZED)

def accounting_sta_start (env : Env n) (s : State n) (hapd : Fin n) (sta : Ptr) :
    Option (State n) := do
  let info ← s.load sta
  if info.acct_session_started || !(s.bss hapd).conf.acct_server then return s
  else
    (eloop_register_timeout env .accounting_interim_update hapd sta s).store sta
      (fun info => { info with acct_session_started := true })

def accounting_sta_stop (s : State n) (hapd : Fin n) (sta : Ptr) : Option (State n) := do
  let info ← s.load sta
  if info.acct_session_started then
    (eloop_cancel_timeout .accounting_interim_update hapd sta s).store sta
      (fun info => { info with acct_session_started := false })
  else return s

/-- The timeouts that a station is freed with. -/
def cancelTimeouts (hapd : Fin n) (sta : Ptr) (s : State n) : State n :=
  eloop_cancel_timeout .rsn_preauth_finished_cb hapd sta
    (eloop_cancel_timeout .ap_sta_disassoc_cb_timeout hapd sta
      (eloop_cancel_timeout .ap_sta_deauth_cb_timeout hapd sta
        (eloop_cancel_timeout .ap_handle_session_timer hapd sta
          (eloop_cancel_timeout .ap_handle_timer hapd sta s))))

def ap_free_sta (s : State n) (hapd : Fin n) (sta : Ptr) : Option (State n) := do
  let s ← accounting_sta_stop s hapd sta
  let s ← ap_sta_set_authorized s sta false
  let s ← ap_sta_hash_del s hapd sta
  let s ← ap_sta_list_del s hapd sta
  let s := s.setBss hapd { s.bss hapd with num_sta := (s.bss hapd).num_sta - 1 }
  let s := cancelTimeouts hapd sta s
  return { s with heap := s.heap.erase sta }

/-- The loop of `hostapd_free_stas`. -/
def freeLoop (hapd : Fin n) : ℕ → Option Ptr → State n → Option (State n)
  | _, none, s => some s
  | 0, some _, _ => none
  | k + 1, some prev, s => do
      let info ← s.load prev
      let s ← ap_free_sta s hapd prev
      freeLoop hapd k info.next s

def hostapd_free_stas (s : State n) (hapd : Fin n) : Option (State n) :=
  freeLoop hapd s.heap.keys.length (s.bss hapd).sta_list s

/-- `ap_sta_disconnect` for a station that the caller has. -/
def ap_sta_disconnect (env : Env n) (s : State n) (hapd : Fin n) (sta : Ptr) :
    Option (State n) := do
  let s ← ap_sta_set_authorized s sta false
  let s ← s.store sta (fun info => info.clear (WLAN_STA_AUTH ||| WLAN_STA_ASSOC))
  let s := reschedule env .ap_handle_timer hapd sta s
  let s ← s.store sta (fun info =>
    { info with timeout_next := .STA_REMOVE }.set WLAN_STA_PENDING_DEAUTH_CB)
  return reschedule env .ap_sta_deauth_cb_timeout hapd sta s

def ap_sta_disassociate (env : Env n) (s : State n) (hapd : Fin n) (sta : Ptr) :
    Option (State n) := do
  let s ← s.store sta (fun info => info.clear (WLAN_STA_ASSOC ||| WLAN_STA_ASSOC_REQ_OK))
  let s ← ap_sta_set_authorized s sta false
  let s ← s.store sta (fun info => { info with timeout_next := .STA_DEAUTH })
  let s := reschedule env .ap_handle_timer hapd sta s
  let s ← accounting_sta_stop s hapd sta
  let s ← s.store sta (fun info => info.set WLAN_STA_PENDING_DISASSOC_CB)
  return reschedule env .ap_sta_disassoc_cb_timeout hapd sta s

def ap_sta_deauthenticate (env : Env n) (s : State n) (hapd : Fin n) (sta : Ptr) :
    Option (State n) := do
  let s ← s.store sta (fun info => info.clear (WLAN_STA_AUTH ||| WLAN_STA_ASSOC))
  let s ← ap_sta_set_authorized s sta false
  let s ← s.store sta (fun info => { info with timeout_next := .STA_REMOVE })
  let s := reschedule env .ap_handle_timer hapd sta s
  let s ← accounting_sta_stop s hapd sta
  let s ← s.store sta (fun info => info.set WLAN_STA_PENDING_DEAUTH_CB)
  return reschedule env .ap_sta_deauth_cb_timeout hapd sta s

/-- A loop over the other BSSs: what is done where they have the station, too. -/
def inOtherBss (hapd : Fin n) (sta : Mac) (act : State n → Fin n → Ptr → Option (State n)) :
    List (Fin n) → State n → Option (State n)
  | [], s => some s
  | i :: rest, s =>
      if i = hapd then inOtherBss hapd sta act rest s
      else do
        match ← ap_get_sta s i sta with
        | none => inOtherBss hapd sta act rest s
        | some sta2 => inOtherBss hapd sta act rest (← act s i sta2)

def ap_sta_remove_in_other_bss (env : Env n) (s : State n) (hapd : Fin n) (sta : Ptr) :
    Option (State n) := do
  let info ← s.load sta
  inOtherBss hapd info.addr (ap_sta_disconnect env) (List.finRange n) s

def hostapd_prune_associations (env : Env n) (s : State n) (hapd : Fin n) (addr : Mac) :
    Option (State n) :=
  inOtherBss hapd addr (ap_sta_disassociate env) (List.finRange n) s

/-- `ap_sta_add`; `memory` is what `os_zalloc` returns. -/
def ap_sta_add (env : Env n) (memory : Option Ptr) (s : State n) (hapd : Fin n) (addr : Mac) :
    Option (State n × Option Ptr) := do
  match ← ap_get_sta s hapd addr with
  | some sta => return (s, some sta)
  | none =>
      if (s.bss hapd).conf.max_num_sta ≤ (s.bss hapd).num_sta then return (s, none)
      else
        match memory with
        | none => return (s, none)
        | some sta =>
            let s := eloop_register_timeout env .ap_handle_timer hapd sta s
            let info : StaInfo := { next := (s.bss hapd).sta_list, hnext := none, addr }
            let s := { s with heap := s.heap.insert sta info }
            let s := s.setBss hapd { s.bss hapd with
              sta_list := some sta
              num_sta := (s.bss hapd).num_sta + 1 }
            let s ← ap_sta_hash_add s hapd sta
            let s ← ap_sta_remove_in_other_bss env s hapd sta
            return (s, some sta)

end Tables

section Timers

variable {n : ℕ}

/-- The first part of `ap_handle_timer`: what it reads of the driver, with the time of the next
poll. -/
def checkActivity (env : Env n) (conf : Conf) (info : StaInfo) : StaInfo × ℕ :=
  if info.has WLAN_STA_ASSOC ∧
      (info.timeout_next = .STA_NULLFUNC ∨ info.timeout_next = .STA_DISASSOC) then
    let fuzz := env.random % 20
    if env.inactive_sec = -1 then (info, conf.ap_max_inactivity + fuzz)
    else if env.inactive_sec < conf.ap_max_inactivity then
      ({ info with timeout_next := .STA_NULLFUNC },
        (conf.ap_max_inactivity + fuzz - env.inactive_sec).toNat)
    else if conf.skip_inactivity_poll then ({ info with timeout_next := .STA_DISASSOC }, 0)
    else (info, 0)
  else (info, 0)

/-- The poll has been acknowledged. -/
def checkPoll (conf : Conf) (info : StaInfo) (next_time : ℕ) : StaInfo × ℕ :=
  if info.has WLAN_STA_ASSOC ∧ info.timeout_next = .STA_DISASSOC ∧
      info.has WLAN_STA_PENDING_POLL = false ∧ conf.skip_inactivity_poll = false then
    ({ info with timeout_next := .STA_NULLFUNC }, conf.ap_max_inactivity)
  else (info, next_time)

/-- The switch of `ap_handle_timer`, without the station's poll. -/
def timeoutSwitch (env : Env n) (timeout_next : TimeoutNext) (s : State n) (hapd : Fin n)
    (sta : Ptr) : Option (State n) :=
  match timeout_next with
  | .STA_NULLFUNC => do
      let s ← s.store sta (fun info => { info with timeout_next := .STA_DISASSOC })
      return eloop_register_timeout env .ap_handle_timer hapd sta s
  | .STA_DISASSOC | .STA_DISASSOC_FROM_CLI => do
      let s ← ap_sta_set_authorized s sta false
      let s ← s.store sta (fun info => info.clear WLAN_STA_ASSOC)
      let s ← accounting_sta_stop s hapd sta
      let s ← s.store sta (fun info => { info with timeout_next := .STA_DEAUTH })
      return eloop_register_timeout env .ap_handle_timer hapd sta s
  | .STA_DEAUTH | .STA_REMOVE => ap_free_sta s hapd sta

def ap_handle_timer (env : Env n) (s : State n) (hapd : Fin n) (sta : Ptr) : Option (State n) := do
  let info ← s.load sta
  if info.timeout_next = .STA_REMOVE then ap_free_sta s hapd sta
  else
    let conf := (s.bss hapd).conf
    let (info, next_time) := checkActivity env conf info
    let (info, next_time) := checkPoll conf info next_time
    let s ← s.store sta (fun _ => info)
    if next_time ≠ 0 then return eloop_register_timeout env .ap_handle_timer hapd sta s
    else
      let s ←
        if info.timeout_next = .STA_NULLFUNC ∧ info.has WLAN_STA_ASSOC then
          s.store sta (fun info => info.set WLAN_STA_PENDING_POLL)
        else some s
      timeoutSwitch env info.timeout_next s hapd sta

def ap_handle_session_timer (s : State n) (hapd : Fin n) (sta : Ptr) : Option (State n) := do
  let info ← s.load sta
  if info.has WLAN_STA_AUTH = false then
    if info.has WLAN_STA_GAS then ap_free_sta s hapd sta else return s
  else ap_free_sta s hapd sta

/-- What both functions below do: they read the station for the driver, and write nothing. -/
def cbTimeout (s : State n) (sta : Ptr) : Option (State n) := do
  let _ ← s.load sta
  return s

def ap_sta_deauth_cb_timeout (s : State n) (sta : Ptr) : Option (State n) := cbTimeout s sta

def ap_sta_disassoc_cb_timeout (s : State n) (sta : Ptr) : Option (State n) := cbTimeout s sta

def accounting_interim_update (env : Env n) (s : State n) (hapd : Fin n) (sta : Ptr) :
    Option (State n) := do
  let _ ← s.load sta
  return eloop_register_timeout env .accounting_interim_update hapd sta s

def runHandler (env : Env n) (s : State n) (t : Timeout n) : Option (State n) :=
  match t.handler with
  | .ap_handle_timer => ap_handle_timer env s t.hapd t.sta
  | .ap_handle_session_timer => ap_handle_session_timer s t.hapd t.sta
  | .ap_sta_deauth_cb_timeout => ap_sta_deauth_cb_timeout s t.sta
  | .ap_sta_disassoc_cb_timeout => ap_sta_disassoc_cb_timeout s t.sta
  | .accounting_interim_update => accounting_interim_update env s t.hapd t.sta
  | .rsn_preauth_finished_cb => ap_free_sta s t.hapd t.sta

/-- A round of `eloop_run` for one of the timeouts. -/
def State.fire (env : Env n) (s : State n) (i : ℕ) : Option (State n) :=
  match s.timeout[i]? with
  | none => some s
  | some t => runHandler env { s with timeout := s.timeout.eraseIdx i } t

end Timers

section Frames

variable {n : ℕ}

/-- `handle_disassoc`. -/
def handle_disassoc (env : Env n) (s : State n) (hapd : Fin n) (sta : Ptr) : Option (State n) := do
  let s ← ap_sta_set_authorized s sta false
  let s ← s.store sta (fun info => info.clear (WLAN_STA_ASSOC ||| WLAN_STA_ASSOC_REQ_OK))
  let s ← accounting_sta_stop s hapd sta
  let info ← s.load sta
  if info.timeout_next = .STA_NULLFUNC ∨ info.timeout_next = .STA_DISASSOC then
    let s ← s.store sta (fun info => { info with timeout_next := .STA_DEAUTH })
    return reschedule env .ap_handle_timer hapd sta s
  else return s

/-- A station leaves; `flags` are the flags that are cleared before. -/
def removeSta (flags : BitVec 32) (s : State n) (hapd : Fin n) (sta : Ptr) : Option (State n) := do
  let s ← ap_sta_set_authorized s sta false
  let s ← s.store sta (fun info => info.clear flags)
  ap_free_sta s hapd sta

def handle_deauth (s : State n) (hapd : Fin n) (sta : Ptr) : Option (State n) :=
  removeSta (WLAN_STA_AUTH ||| WLAN_STA_ASSOC ||| WLAN_STA_ASSOC_REQ_OK) s hapd sta

def hostapd_notif_disassoc (s : State n) (hapd : Fin n) (sta : Ptr) : Option (State n) :=
  removeSta (WLAN_STA_AUTH ||| WLAN_STA_ASSOC) s hapd sta

/-- The driver reports that a frame has been sent; a frame that nobody waits for is ignored. -/
def txCallback (flag : BitVec 32) (handler : Handler)
    (timeout : State n → Ptr → Option (State n)) (s : State n) (hapd : Fin n) (sta : Ptr) :
    Option (State n) := do
  let info ← s.load sta
  if info.has flag then
    let s ← s.store sta (fun info => info.clear flag)
    timeout (eloop_cancel_timeout handler hapd sta s) sta
  else return s

def ap_sta_deauth_cb (s : State n) (hapd : Fin n) (sta : Ptr) : Option (State n) :=
  txCallback WLAN_STA_PENDING_DEAUTH_CB .ap_sta_deauth_cb_timeout ap_sta_deauth_cb_timeout s hapd sta

def ap_sta_disassoc_cb (s : State n) (hapd : Fin n) (sta : Ptr) : Option (State n) :=
  txCallback WLAN_STA_PENDING_DISASSOC_CB .ap_sta_disassoc_cb_timeout ap_sta_disassoc_cb_timeout s
    hapd sta

/-- `hostapd_new_assoc_sta`; `accounting` when neither 802.1X nor WPA is used. -/
def hostapd_new_assoc_sta (env : Env n) (countermeasures accounting : Bool) (s : State n)
    (hapd : Fin n) (sta : Ptr) : Option (State n) := do
  if countermeasures then return s
  else
    let info ← s.load sta
    let s ← hostapd_prune_associations env s hapd info.addr
    let s ← if accounting then accounting_sta_start env s hapd sta else some s
    return reschedule env .ap_handle_timer hapd sta s

/-- A function that is called for a station which `ap_get_sta` has found. `write` stands for
the handlers of authentications and associations, and for the answer to a poll: they write
the flags, and may set the timeout back. -/
inductive Call where
  | disconnect | disassociate | deauthenticate | disassoc_frame | deauth_frame | notif_disassoc
  | free | deauth_cb | disassoc_cb | session_timeout | no_session_timeout | preauth_finished
  | accounting_start | accounting_stop | new_assoc (countermeasures accounting : Bool)
  | write (flags : BitVec 32 → BitVec 32) (reset : Bool)

def Call.perform (env : Env n) (s : State n) (hapd : Fin n) (sta : Ptr) : Call → Option (State n)
  | .disconnect => ap_sta_disconnect env s hapd sta
  | .disassociate => ap_sta_disassociate env s hapd sta
  | .deauthenticate => ap_sta_deauthenticate env s hapd sta
  | .disassoc_frame => handle_disassoc env s hapd sta
  | .deauth_frame => handle_deauth s hapd sta
  | .notif_disassoc => hostapd_notif_disassoc s hapd sta
  | .free => ap_free_sta s hapd sta
  | .deauth_cb => ap_sta_deauth_cb s hapd sta
  | .disassoc_cb => ap_sta_disassoc_cb s hapd sta
  | .session_timeout => some (reschedule env .ap_handle_session_timer hapd sta s)
  | .no_session_timeout => some (eloop_cancel_timeout .ap_handle_session_timer hapd sta s)
  | .preauth_finished => some (eloop_register_timeout env .rsn_preauth_finished_cb hapd sta s)
  | .accounting_start => accounting_sta_start env s hapd sta
  | .accounting_stop => accounting_sta_stop s hapd sta
  | .new_assoc countermeasures accounting =>
      hostapd_new_assoc_sta env countermeasures accounting s hapd sta
  | .write flags reset =>
      s.store sta (fun info => { info with
        flags := flags info.flags
        timeout_next := if reset then .STA_NULLFUNC else info.timeout_next })

inductive Event (n : ℕ) where
  | add (hapd : Fin n) (addr : Mac) (memory : Option Ptr)
  | call (hapd : Fin n) (addr : Mac) (c : Call)
  | free_stas (hapd : Fin n)
  | fire (i : ℕ)

def State.handle (env : Env n) (s : State n) : Event n → Option (State n)
  | .add hapd addr memory => (ap_sta_add env memory s hapd addr).map Prod.fst
  | .call hapd addr c => do
      match ← ap_get_sta s hapd addr with
      | none => return s
      | some sta => c.perform env s hapd sta
  | .free_stas hapd => hostapd_free_stas s hapd
  | .fire i => s.fire env i

def State.run (s : State n) : List (Env n × Event n) → Option (State n)
  | [] => some s
  | (env, e) :: events => (s.handle env e).bind (fun s => s.run events)

end Frames

end Nxwlan.StationLists
