import Mathlib.Data.List.Forall2
import Mathlib.Data.List.TakeWhile
import Nxwlan.Base64
import Nxwlan.LastWrites

/-!
The client blacklist of hostapd. `BLACKLIST` and `UNBLACKLIST` with the text of an
address put it on the list or take it off; `ieee802_11_mgmt` drops the management
frames of a listed sender, beacons apart. The list is looked at only behind a test
of `blacklist_mac`, which the first text of 17 characters sets.
-/
namespace Nxwlan.ClientBlacklist

open LastWrites
open Base64 (Bytes)

abbrev Mac := Vector UInt8 6

/-- `hex2num`; `none` for -1. -/
def hex2num (c : UInt8) : Option UInt8 :=
  if 48 ≤ c ∧ c ≤ 57 then some (c - 48)
  else if 97 ≤ c ∧ c ≤ 102 then some (c - 97 + 10)
  else if 65 ≤ c ∧ c ≤ 70 then some (c - 65 + 10)
  else none

/-- The loop of `hwaddr_aton`, with `n` bytes still to be read. The end of the text is a
character that is no hex digit. -/
def hwaddrFrom : ℕ → Bytes → Option Bytes
  | 0, _ => some []
  | n + 1, txt =>
      match txt with
      | hi :: lo :: rest =>
          match hex2num hi, hex2num lo with
          | some a, some b =>
              if n = 0 then some [16 * a + b]
              else
                match rest with
                | 58 :: rest => (hwaddrFrom n rest).map (fun addr => (16 * a + b) :: addr)
                | _ => none
          | _, _ => none
      | _ => none

def hwaddr_aton (txt : Bytes) : Option Mac :=
  (hwaddrFrom 6 txt).map (fun addr => Vector.ofFn (fun q : Fin 6 => addr.getD q 0))

/-- The text up to its end. -/
def cString (buf : Bytes) : Bytes := buf.takeWhile (· ≠ 0)

/-- The fields of `hostapd_data` that blacklisting uses; `none` is NULL. -/
structure Hapd where
  blacklist_mac : Option Bytes := none
  blacklisted_macs_list : List Mac := []

/-- The comparison in all three functions: six equal bytes are counted. -/
def sameMac (a b : Mac) : Bool :=
  ((List.finRange 6).filter (fun q => a.get q == b.get q)).length == 6

inductive Reply where
  | ok | fail
  deriving DecidableEq

/-- A text of 17 characters is remembered before it is read. A new address goes to the
front of the list. -/
def hostapd_ctrl_iface_blacklist_client (hapd : Hapd) (blacklist_mac : Bytes) : Hapd × Reply :=
  let txt := cString blacklist_mac
  if txt.length = 17 then
    let hapd := { hapd with blacklist_mac := some txt }
    match hwaddr_aton txt with
    | some mac =>
        if hapd.blacklisted_macs_list.any (fun entry => sameMac entry mac) then (hapd, .ok)
        else ({ hapd with blacklisted_macs_list := mac :: hapd.blacklisted_macs_list }, .ok)
    | none => (hapd, .fail)
  else if txt.length = 0 then (hapd, .ok)
  else (hapd, .fail)

/-- The first entry with the address goes. -/
def hostapd_ctrl_iface_unblacklist_client (hapd : Hapd) (blacklist_mac : Bytes) : Hapd × Reply :=
  let txt := cString blacklist_mac
  if txt.length = 17 then
    match hwaddr_aton txt with
    | some mac =>
        ({ hapd with blacklisted_macs_list :=
            hapd.blacklisted_macs_list.eraseP (fun entry => sameMac entry mac) }, .ok)
    | none => (hapd, .fail)
  else if txt.length = 0 then (hapd, .ok)
  else (hapd, .fail)

inductive Kind where
  | blacklist | unblacklist
  deriving DecidableEq

def command (hapd : Hapd) (kind : Kind) (arg : Bytes) : Hapd × Reply :=
  match kind with
  | .blacklist => hostapd_ctrl_iface_blacklist_client hapd arg
  | .unblacklist => hostapd_ctrl_iface_unblacklist_client hapd arg

/-- `WLAN_FC_GET_STYPE` of the first two bytes. -/
def stype (buf : Bytes) : ℕ := ((buf.getD 0 0).toNat + 256 * (buf.getD 1 0).toNat) % 256 / 16

/-- `mgmt->sa`. -/
def sourceAddress (buf : Bytes) : Mac := Vector.ofFn (fun q : Fin 6 => buf.getD (10 + q) 0)

/-- How `ieee802_11_mgmt` takes a frame: too short, a beacon, rejected, or handled
further. -/
inductive Mgmt where
  | short | beacon | rejected | handled
  deriving DecidableEq

def ieee802_11_mgmt (hapd : Hapd) (buf : Bytes) : Mgmt :=
  if buf.length < 24 then .short
  else if stype buf = 8 then .beacon
  else if hapd.blacklist_mac.isSome ∧
      hapd.blacklisted_macs_list.any (fun entry => sameMac entry (sourceAddress buf)) then .rejected
  else .handled

/-- A command or a received frame. -/
inductive Event where
  | command (kind : Kind) (arg : Bytes)
  | frame (buf : Bytes)

def handle (hapd : Hapd) : Event → Hapd
  | .command kind arg => (command hapd kind arg).1
  | .frame _ => hapd

/-- The address that a command is about. -/
def address (arg : Bytes) : Option Mac :=
  if (cString arg).length = 17 then hwaddr_aton (cString arg) else none

/-- The kind of a command about the address `mac`. -/
def kindAt (mac : Mac) : Event → Option Kind
  | .command kind arg => if address arg = some mac then some kind else none
  | .frame _ => none

theorem sameMac_iff {a b : Mac} : sameMac a b = true ↔ a = b := by
  rw [sameMac, beq_iff_eq]
  constructor
  · intro h
    have hall : ∀ q ∈ List.finRange 6, (a.get q == b.get q) = true :=
      List.length_filter_eq_length_iff.mp h
    apply Vector.ext
    intro q hq
    exact beq_iff_eq.mp (hall ⟨q, hq⟩ (List.mem_finRange _))
  · rintro rfl
    simp

theorem any_sameMac (list : List Mac) (mac : Mac) :
    list.any (fun entry => sameMac entry mac) = true ↔ mac ∈ list := by
  simp [sameMac_iff]

theorem eraseP_sameMac (list : List Mac) (mac : Mac) :
    list.eraseP (fun entry => sameMac entry mac) = list.erase mac := by
  rw [List.erase_eq_eraseP']
  congr 1
  funext entry
  rw [Bool.eq_iff_iff, sameMac_iff, beq_iff_eq]

variable {hapd : Hapd} {kind : Kind} {arg : Bytes} {mac : Mac}

/-- A text of another length changes nothing. -/
theorem command_of_length_ne (hlen : ¬ (cString arg).length = 17) :
    (command hapd kind arg).1 = hapd := by
  cases kind with
  | blacklist =>
    simp only [command, hostapd_ctrl_iface_blacklist_client, if_neg hlen]
    split <;> rfl
  | unblacklist =>
    simp only [command, hostapd_ctrl_iface_unblacklist_client, if_neg hlen]
    split <;> rfl

/-- A command about an address is answered with OK and changes the list for this address;
any other command leaves the list alone. -/
theorem command_list (hapd : Hapd) (kind : Kind) (arg : Bytes) :
    match address arg with
    | some mac => (command hapd kind arg).2 = .ok ∧
        (command hapd kind arg).1.blacklisted_macs_list =
          match kind with
          | .blacklist =>
              if mac ∈ hapd.blacklisted_macs_list then hapd.blacklisted_macs_list
              else mac :: hapd.blacklisted_macs_list
          | .unblacklist => hapd.blacklisted_macs_list.erase mac
    | none => (command hapd kind arg).1.blacklisted_macs_list = hapd.blacklisted_macs_list := by
  unfold address
  by_cases hlen : (cString arg).length = 17
  · rw [if_pos hlen]
    cases haddr : hwaddr_aton (cString arg) with
    | none =>
      cases kind with
      | blacklist => simp [command, hostapd_ctrl_iface_blacklist_client, hlen, haddr]
      | unblacklist => simp [command, hostapd_ctrl_iface_unblacklist_client, hlen, haddr]
    | some mac =>
      cases kind with
      | blacklist =>
        simp only [command, hostapd_ctrl_iface_blacklist_client, hlen, haddr, if_true, any_sameMac]
        by_cases hmem : mac ∈ hapd.blacklisted_macs_list
        · simp [hmem]
        · simp [hmem]
      | unblacklist =>
        simp [command, hostapd_ctrl_iface_unblacklist_client, hlen, haddr, eraseP_sameMac]
  · rw [if_neg hlen, command_of_length_ne hlen]

/-- A command that fails is about no address. -/
theorem address_of_fail (h : (command hapd kind arg).2 = .fail) : address arg = none := by
  have hlist := command_list hapd kind arg
  cases haddr : address arg with
  | none => rfl
  | some mac =>
    rw [haddr] at hlist
    rw [hlist.1] at h
    cases h

/-- No address is on the list twice, and a list with an address is looked at. -/
structure Sound (hapd : Hapd) : Prop where
  nodup : hapd.blacklisted_macs_list.Nodup
  guarded : hapd.blacklist_mac = none → hapd.blacklisted_macs_list = []

/-- The pointer is set with the first address and never taken back. -/
theorem command_guarded (h : Sound hapd) :
    (command hapd kind arg).1.blacklist_mac = none →
      (command hapd kind arg).1.blacklisted_macs_list = [] := by
  intro hnone
  by_cases hlen : (cString arg).length = 17
  · cases kind with
    | blacklist =>
      simp only [command, hostapd_ctrl_iface_blacklist_client, hlen, if_true] at hnone
      split at hnone
      · split at hnone <;> cases hnone
      · cases hnone
    | unblacklist =>
      have hlist := command_list hapd .unblacklist arg
      have hsame : (command hapd .unblacklist arg).1.blacklist_mac = hapd.blacklist_mac := by
        simp only [command, hostapd_ctrl_iface_unblacklist_client, hlen, if_true]
        split <;> rfl
      rw [hsame] at hnone
      rw [h.guarded hnone] at hlist
      cases haddr : address arg with
      | none =>
        rw [haddr] at hlist
        exact hlist
      | some mac =>
        rw [haddr] at hlist
        exact hlist.2
  · rw [command_of_length_ne hlen] at hnone ⊢
    exact h.guarded hnone

theorem Sound.handle (h : Sound hapd) (e : Event) : Sound (handle hapd e) := by
  cases e with
  | frame buf => exact h
  | command kind arg =>
    refine ⟨?_, command_guarded h⟩
    have hlist := command_list hapd kind arg
    cases haddr : address arg with
    | none =>
      rw [haddr] at hlist
      rw [ClientBlacklist.handle, hlist]
      exact h.nodup
    | some mac =>
      rw [haddr] at hlist
      rw [ClientBlacklist.handle, hlist.2]
      cases kind with
      | blacklist =>
        dsimp only
        split
        · exact h.nodup
        · rename_i hnew
          exact List.nodup_cons.mpr ⟨hnew, h.nodup⟩
      | unblacklist => exact h.nodup.erase mac

def listed (hapd : Hapd) (mac : Mac) : Bool := decide (mac ∈ hapd.blacklisted_macs_list)

/-- What an event does to an address: it is on the list after it, or it is not. -/
def listing (mac : Mac) (e : Event) : Option Bool :=
  (kindAt mac e).map (fun kind => decide (kind = .blacklist))

/-- An address is on the list after an event if the event is a `BLACKLIST` for it, or was
on it and the event is not about it. -/
theorem listed_handle (h : Sound hapd) (e : Event) (mac : Mac) :
    listed (handle hapd e) mac = (listing mac e).getD (listed hapd mac) := by
  unfold listed listing
  cases e with
  | frame buf => rfl
  | command kind arg =>
    have hlist := command_list hapd kind arg
    rw [ClientBlacklist.handle, kindAt]
    cases haddr : address arg with
    | none =>
      rw [haddr] at hlist
      rw [hlist]
      rfl
    | some mac' =>
      rw [haddr] at hlist
      rw [hlist.2]
      by_cases hmac : mac' = mac
      · subst hmac
        rw [if_pos rfl]
        cases kind with
        | blacklist =>
          by_cases hmem : mac' ∈ hapd.blacklisted_macs_list <;> simp [hmem]
        | unblacklist => simp [h.nodup.mem_erase_iff]
      · rw [if_neg (fun hsome => hmac (Option.some.inj hsome))]
        cases kind with
        | blacklist =>
          by_cases hmem : mac' ∈ hapd.blacklisted_macs_list <;> simp [hmem, Ne.symm hmac]
        | unblacklist => simp [List.mem_erase_of_ne (Ne.symm hmac)]

/-- A frame is rejected exactly where its sender is on the list, beacons apart. -/
theorem rejected_iff (h : Sound hapd) {buf : Bytes} (hlen : 24 ≤ buf.length) :
    ieee802_11_mgmt hapd buf = .rejected ↔
      stype buf ≠ 8 ∧ sourceAddress buf ∈ hapd.blacklisted_macs_list := by
  unfold ieee802_11_mgmt
  rw [if_neg (by omega)]
  by_cases hbeacon : stype buf = 8
  · simp [hbeacon]
  · rw [if_neg hbeacon]
    simp only [any_sameMac]
    by_cases hmem : sourceAddress buf ∈ hapd.blacklisted_macs_list
    · -- a list with an entry is never hidden by the test in front of it
      have hguard : hapd.blacklist_mac.isSome = true := by
        rw [Option.isSome_iff_ne_none]
        intro hnone
        rw [h.guarded hnone] at hmem
        cases hmem
      simp [hguard, hmem, hbeacon]
    · simp [hmem]

/-- The text of an address: two digits for each byte, set apart by colons. -/
def addrText : List (UInt8 × UInt8) → Bytes
  | [] => []
  | [(hi, lo)] => [hi, lo]
  | (hi, lo) :: rest => hi :: lo :: 58 :: addrText rest

/-- Digits of any case are read for their values. -/
theorem hwaddrFrom_addrText (digits : List (UInt8 × UInt8)) (values : List (UInt8 × UInt8))
    (h : List.Forall₂ (fun d v => hex2num d.1 = some v.1 ∧ hex2num d.2 = some v.2) digits values) :
    hwaddrFrom digits.length (addrText digits) =
      some (values.map (fun v => 16 * v.1 + v.2)) := by
  induction h with
  | nil => rfl
  | @cons d v ds vs hdv hrest ih =>
    cases hrest with
    | nil => simp [addrText, hwaddrFrom, hdv.1, hdv.2]
    | @cons d' v' ds' vs' hdv' hrest' =>
      have htext : addrText (d :: d' :: ds') = d.1 :: d.2 :: 58 :: addrText (d' :: ds') := rfl
      rw [htext, List.length_cons, hwaddrFrom, hdv.1, hdv.2]
      simp only [List.length_cons, Nat.add_eq_zero_iff, one_ne_zero, and_false, if_false]
      rw [List.length_cons] at ih
      rw [ih]
      rfl

theorem ne_zero_of_hex2num {c v : UInt8} (h : hex2num c = some v) : c ≠ 0 := by
  rintro rfl
  cases h

theorem addrText_length {digits : List (UInt8 × UInt8)} (hne : digits ≠ []) :
    (addrText digits).length + 1 = 3 * digits.length := by
  induction digits with
  | nil => exact absurd rfl hne
  | cons d rest ih =>
    cases rest with
    | nil => rfl
    | cons d' rest' =>
      have htext : addrText (d :: d' :: rest') = d.1 :: d.2 :: 58 :: addrText (d' :: rest') := rfl
      have hrest := ih (List.cons_ne_nil d' rest')
      rw [htext]
      simp only [List.length_cons] at hrest ⊢
      omega

theorem addrText_ne_zero {digits : List (UInt8 × UInt8)} (h : ∀ d ∈ digits, d.1 ≠ 0 ∧ d.2 ≠ 0) :
    ∀ c ∈ addrText digits, c ≠ 0 := by
  induction digits with
  | nil => exact fun c hc => absurd hc List.not_mem_nil
  | cons d rest ih =>
    obtain ⟨hhi, hlo⟩ := h d List.mem_cons_self
    have hrest := ih (fun d' hd' => h d' (List.mem_cons_of_mem d hd'))
    cases rest with
    | nil =>
      intro c hc
      have hc : c = d.1 ∨ c = d.2 := by simpa [addrText] using hc
      rcases hc with rfl | rfl
      · exact hhi
      · exact hlo
    | cons d' rest' =>
      intro c hc
      have htext : addrText (d :: d' :: rest') = d.1 :: d.2 :: 58 :: addrText (d' :: rest') := rfl
      rw [htext] at hc
      rcases List.mem_cons.mp hc with rfl | hc
      · exact hhi
      · rcases List.mem_cons.mp hc with rfl | hc
        · exact hlo
        · rcases List.mem_cons.mp hc with rfl | hc
          · decide
          · exact hrest c hc

/-- A command with the text of an address, in any case, is about this address. -/
theorem address_addrText {digits values : List (UInt8 × UInt8)} (hlen : digits.length = 6)
    (h : List.Forall₂ (fun d v => hex2num d.1 = some v.1 ∧ hex2num d.2 = some v.2) digits values) :
    address (addrText digits) =
      some (Vector.ofFn (fun q : Fin 6 => (values.map (fun v => 16 * v.1 + v.2)).getD q 0)) := by
  have hdigits : ∀ d ∈ digits, d.1 ≠ 0 ∧ d.2 ≠ 0 := by
    refine ((List.forall₂_and_left digits values).mp (h.imp (fun d v hdv => ⟨?_, hdv⟩))).1
    exact ⟨ne_zero_of_hex2num hdv.1, ne_zero_of_hex2num hdv.2⟩
  have hwhole : cString (addrText digits) = addrText digits := by
    rw [cString, List.takeWhile_eq_self_iff]
    intro c hc
    simpa using addrText_ne_zero hdigits c hc
  have hsize : (addrText digits).length = 17 := by
    have := addrText_length (List.ne_nil_of_length_pos (by omega : 0 < digits.length))
    omega
  have hread := hwaddrFrom_addrText digits values h
  rw [hlen] at hread
  rw [address, hwhole, if_pos hsize, hwaddr_aton, hread]
  rfl

/-- For every sequence of commands and frames: no address is on the list twice; an address
is on it exactly if the last command about it was a `BLACKLIST`, where commands about an
address have its text in any case and are answered with OK; commands that fail leave the
list alone; and a frame of at least 24 bytes is dropped exactly if it is no beacon and
its sender is on the list. -/
theorem blacklist_state_machine (events : List Event) :
    let hapd := events.foldl handle ({} : Hapd)
    hapd.blacklisted_macs_list.Nodup ∧
    (∀ mac, mac ∈ hapd.blacklisted_macs_list ↔
      lastWrite kindAt mac events = some .blacklist) ∧
    (∀ digits values : List (UInt8 × UInt8), digits.length = 6 →
      List.Forall₂ (fun d v => hex2num d.1 = some v.1 ∧ hex2num d.2 = some v.2) digits values →
      address (addrText digits) =
        some (Vector.ofFn (fun q : Fin 6 => (values.map (fun v => 16 * v.1 + v.2)).getD q 0))) ∧
    (∀ kind arg mac, address arg = some mac → (command hapd kind arg).2 = .ok) ∧
    (∀ kind arg, (command hapd kind arg).2 = .fail →
      (command hapd kind arg).1.blacklisted_macs_list = hapd.blacklisted_macs_list) ∧
    ∀ buf, 24 ≤ buf.length →
      (ieee802_11_mgmt hapd buf = .rejected ↔
        stype buf ≠ 8 ∧ sourceAddress buf ∈ hapd.blacklisted_macs_list) := by
  intro hapd
  have hstart : Sound {} := ⟨List.nodup_nil, fun _ => rfl⟩
  obtain ⟨hsound, hview⟩ := view_run handle listed listing (fun _ e h => Sound.handle h e)
    (fun _ e mac h => listed_handle h e mac) hstart events
  refine ⟨hsound.nodup, ?_, fun _ _ => address_addrText, ?_, ?_,
    fun buf hlen => rejected_iff hsound hlen⟩
  · intro mac
    have hlisted := hview mac
    have hmap : lastWrite listing mac events =
        (lastWrite kindAt mac events).map (fun kind => decide (kind = .blacklist)) :=
      lastWrite_map _ mac events
    rw [hmap] at hlisted
    unfold listed at hlisted
    cases hlast : lastWrite kindAt mac events with
    | none =>
      rw [hlast] at hlisted
      simpa using hlisted
    | some kind =>
      rw [hlast] at hlisted
      simpa using hlisted
  · intro kind arg mac haddr
    have hlist := command_list hapd kind arg
    rw [haddr] at hlist
    exact hlist.1
  · intro kind arg hfail
    have hlist := command_list hapd kind arg
    rw [address_of_fail hfail] at hlist
    exact hlist

end Nxwlan.ClientBlacklist
