import Nxwlan.BitWords
import Nxwlan.ClientBlacklist

/-!
Association identifiers of hostapd. `hostapd_get_aid` takes the first clear bit of
`sta_aid` for a station without an AID, and `ap_free_sta` clears the bit of a station
that leaves. The command `NEW_STA` injects a station: it calls the handlers of an
authentication, an association and its acknowledgement itself, and the last of them
writes 1 into the AID of the station, whatever stood there.
-/
namespace Nxwlan.AssocIds

open BitWords
open Base64 (Bytes)
open ClientBlacklist (Mac hwaddr_aton)

inductive AuthAlg where
  | open_system | shared_key | ft | other
  deriving DecidableEq

/-- `sta_info`; `auth` is the flag `WLAN_STA_AUTH`. -/
structure Sta where
  addr : Mac
  aid : ℕ := 0
  auth : Bool := false
  auth_alg : AuthAlg := .open_system

/-- `allows alg` says that `auth_algs` or the key management has the algorithm. -/
structure Conf where
  own_addr : Mac
  max_num_sta : ℕ
  max_listen_interval : ℕ
  allows : AuthAlg → Bool

/-- `sta_aid` has `AID_WORDS` words. -/
structure Hapd where
  sta_list : List Sta := []
  sta_aid : Vector (BitVec 32) 63 := Vector.replicate 63 0

inductive Acl where
  | reject | pending | accept
  deriving DecidableEq

/-- What the rest of the access point answers while a frame or a command is handled:
countermeasures, `hostapd_allowed_address`, memory for a station, the VLAN, whether
`auth_shared_key` sets the flag, `check_assoc_ies`, and `hostapd_sta_add`. -/
structure Env where
  tkip_countermeasures : Bool := false
  allowed_address : Acl := .accept
  memory : Bool := true
  vlan_valid : Bool := true
  key_ok : Bool := true
  check_assoc_ies : Bool := true
  sta_add : Bool := true

def ap_get_sta (hapd : Hapd) (addr : Mac) : Option Sta :=
  hapd.sta_list.find? (fun sta => sta.addr = addr)

/-- A write through the pointer to the station with the address `addr`. -/
def writeSta (hapd : Hapd) (addr : Mac) (f : Sta → Sta) : Hapd :=
  { hapd with sta_list :=
      hapd.sta_list.map (fun sta => if sta.addr = addr then f sta else sta) }

/-- `ap_sta_add`; a new station goes to the front of the list. -/
def ap_sta_add (conf : Conf) (hapd : Hapd) (addr : Mac) (env : Env) : Option Hapd :=
  if (ap_get_sta hapd addr).isSome then some hapd
  else if conf.max_num_sta ≤ hapd.sta_list.length then none
  else if env.memory then some { hapd with sta_list := { addr } :: hapd.sta_list }
  else none

def ap_free_sta (hapd : Hapd) (addr : Mac) : Hapd :=
  match ap_get_sta hapd addr with
  | none => hapd
  | some sta =>
      { sta_list := hapd.sta_list.eraseP (fun sta => sta.addr = addr)
        sta_aid :=
          if 0 < sta.aid then clearBit hapd.sta_aid ((sta.aid - 1) / 32) ((sta.aid - 1) % 32)
          else hapd.sta_aid }

structure AuthFrame where
  sa : Mac
  short : Bool := false
  auth_alg : AuthAlg
  auth_transaction : ℕ

/-- The tests of `handle_auth` in front of `ap_sta_add`. -/
def authAllowed (conf : Conf) (frame : AuthFrame) (env : Env) : Bool :=
  !frame.short && !env.tkip_countermeasures && conf.allows frame.auth_alg &&
    decide (frame.auth_transaction = 1 ∨
      (frame.auth_alg = .shared_key ∧ frame.auth_transaction = 3)) &&
    decide (frame.sa ≠ conf.own_addr) && decide (env.allowed_address = .accept)

/-- `handle_auth`; an injected frame differs in the reply only. -/
def handle_auth (conf : Conf) (hapd : Hapd) (frame : AuthFrame) (env : Env) : Hapd :=
  if authAllowed conf frame env then
    match ap_sta_add conf hapd frame.sa env with
    | none => hapd
    | some hapd =>
        if env.vlan_valid then
          writeSta hapd frame.sa (fun sta =>
            match frame.auth_alg with
            | .open_system => { sta with auth := true, auth_alg := .open_system }
            | .shared_key => { sta with auth := sta.auth || env.key_ok, auth_alg := .shared_key }
            | .ft => { sta with auth_alg := .ft }
            | .other => sta)
        else hapd
  else hapd

/-- `none` for -1. -/
def hostapd_get_aid (hapd : Hapd) (sta : Sta) : Option Hapd :=
  if 0 < sta.aid then some hapd
  else
    match firstClear hapd.sta_aid with
    | none => none
    | some (i, j) =>
        let aid : ℕ := i * 32 + j + 1
        if 2007 < aid then none
        else
          let hapd := writeSta hapd sta.addr (fun sta => { sta with aid })
          some { hapd with sta_aid := setBit hapd.sta_aid i j }

/-- An association or reassociation request. -/
structure AssocFrame where
  sa : Mac
  short : Bool := false
  listen_interval : ℕ

/-- `handle_assoc`; an injected frame differs in the reply only. -/
def handle_assoc (conf : Conf) (hapd : Hapd) (frame : AssocFrame) (env : Env) : Hapd :=
  if frame.short then hapd
  else
    match ap_get_sta hapd frame.sa with
    | none => hapd
    | some sta =>
        if sta.auth = false ∧ sta.auth_alg ≠ .ft then hapd
        else if env.tkip_countermeasures then hapd
        else if conf.max_listen_interval < frame.listen_interval then hapd
        else if env.check_assoc_ies then (hostapd_get_aid hapd sta).getD hapd
        else hapd

/-- The acknowledgement of a response with `status`; `success` says that the status is
`WLAN_STATUS_SUCCESS`. -/
structure AssocCb where
  da : Mac
  short : Bool := false
  ok : Bool
  success : Bool

def handle_assoc_cb (hapd : Hapd) (cb : AssocCb) (cli : Bool) (env : Env) : Hapd :=
  if cb.short then hapd
  else
    match ap_get_sta hapd cb.da with
    | none => hapd
    | some _ =>
        if cb.ok && cb.success then
          let hapd :=
            if cli then writeSta hapd cb.da (fun sta => { sta with aid := 1, auth := true })
            else hapd
          if env.sta_add then hapd
          else writeSta hapd cb.da (fun sta => { sta with auth := false })
        else hapd

def injectedAuth (addr : Mac) : AuthFrame :=
  { sa := addr, auth_alg := .open_system, auth_transaction := 1 }

def injectedAssoc (addr : Mac) : AssocFrame := { sa := addr, listen_interval := 0 }

def injectedCb (addr : Mac) : AssocCb := { da := addr, ok := true, success := true }

/-- The three calls of `hostapd_ctrl_iface_new_sta`. -/
def inject (conf : Conf) (hapd : Hapd) (addr : Mac) (env : Env) : Hapd :=
  let hapd := handle_auth conf hapd (injectedAuth addr) env
  let hapd := handle_assoc conf hapd (injectedAssoc addr) env
  handle_assoc_cb hapd (injectedCb addr) true env

def hostapd_ctrl_iface_new_sta (conf : Conf) (hapd : Hapd) (txtaddr : Bytes) (env : Env) : Hapd :=
  match hwaddr_aton txtaddr with
  | none => hapd
  | some addr => if (ap_get_sta hapd addr).isSome then hapd else inject conf hapd addr env

/-- `newSta` is the command; `add` is a station added for another reason, and `flags` any
other change of a station's flags. -/
inductive Event where
  | auth (frame : AuthFrame) (env : Env)
  | assoc (frame : AssocFrame) (env : Env)
  | assocCb (cb : AssocCb) (env : Env)
  | newSta (txtaddr : Bytes) (env : Env)
  | freeSta (addr : Mac)
  | add (addr : Mac) (env : Env)
  | flags (addr : Mac) (auth : Bool) (auth_alg : AuthAlg)

def handle (conf : Conf) (hapd : Hapd) : Event → Hapd
  | .auth frame env => handle_auth conf hapd frame env
  | .assoc frame env => handle_assoc conf hapd frame env
  | .assocCb cb env => handle_assoc_cb hapd cb false env
  | .newSta txtaddr env => hostapd_ctrl_iface_new_sta conf hapd txtaddr env
  | .freeSta addr => ap_free_sta hapd addr
  | .add addr env => (ap_sta_add conf hapd addr env).getD hapd
  | .flags addr auth auth_alg => writeSta hapd addr (fun sta => { sta with auth, auth_alg })

def run (conf : Conf) (events : List Event) : Hapd := events.foldl (handle conf) {}

/-- The stations with a non-zero AID have different ones, and the bits that are set are
those of the AIDs in use. -/
structure AidsUnique (hapd : Hapd) : Prop where
  distinct : ∀ a ∈ hapd.sta_list, ∀ b ∈ hapd.sta_list,
    a.aid ≠ 0 → a.aid = b.aid → a.addr = b.addr
  bits : ∀ n, bit hapd.sta_aid n = true ↔ ∃ sta ∈ hapd.sta_list, sta.aid = n + 1

/-- An injection that adds a station does so while AID 1 is free, and the station is not
turned away: its VLAN is valid and `check_assoc_ies` accepts the injected elements. -/
def AtFirstAid (conf : Conf) (hapd : Hapd) : Event → Prop
  | .newSta txtaddr env =>
      ∀ addr, hwaddr_aton txtaddr = some addr → ap_get_sta hapd addr = none →
        authAllowed conf (injectedAuth addr) env = true →
        hapd.sta_list.length < conf.max_num_sta → env.memory = true →
        bit hapd.sta_aid 0 = false ∧ env.vlan_valid = true ∧ env.check_assoc_ies = true
  | _ => True

variable {conf : Conf} {hapd hapd' : Hapd} {addr : Mac} {sta : Sta} {env : Env}

def addrs (hapd : Hapd) : List Mac := hapd.sta_list.map (·.addr)

def aidAt (hapd : Hapd) (addr : Mac) : Option ℕ := (ap_get_sta hapd addr).map (·.aid)

theorem addr_of_get (h : ap_get_sta hapd addr = some sta) : sta.addr = addr := by
  simpa using List.find?_some h

theorem get_eq_none_iff : ap_get_sta hapd addr = none ↔ addr ∉ addrs hapd := by
  simp [ap_get_sta, addrs, List.find?_eq_none]

/-- A list without an address twice is given by what is found in it. -/
theorem get_of_mem (hnodup : (addrs hapd).Nodup) (h : sta ∈ hapd.sta_list) :
    ap_get_sta hapd sta.addr = some sta := by
  unfold addrs at hnodup
  unfold ap_get_sta
  revert hnodup h
  induction hapd.sta_list with
  | nil => exact fun _ h => absurd h List.not_mem_nil
  | cons first rest ih =>
    intro hnodup h
    rw [List.map_cons, List.nodup_cons] at hnodup
    rcases List.mem_cons.mp h with rfl | hrest
    · simp
    · have hne : first.addr ≠ sta.addr := by
        intro heq
        exact hnodup.1 (heq ▸ List.mem_map_of_mem hrest)
      rw [List.find?_cons_of_neg (by simpa using hne)]
      exact ih hnodup.2 hrest

theorem exists_aid_iff (hnodup : (addrs hapd).Nodup) (aid : ℕ) :
    (∃ sta ∈ hapd.sta_list, sta.aid = aid) ↔ ∃ addr, aidAt hapd addr = some aid := by
  constructor
  · rintro ⟨sta, hmem, rfl⟩
    exact ⟨sta.addr, by rw [aidAt, get_of_mem hnodup hmem, Option.map_some]⟩
  · rintro ⟨addr, haid⟩
    obtain ⟨sta, hget, rfl⟩ := Option.map_eq_some_iff.mp haid
    exact ⟨sta, List.mem_of_find?_eq_some hget, rfl⟩

/-- No address is in the list twice, and the AIDs are unique. -/
structure Sound (hapd : Hapd) : Prop where
  nodup : (addrs hapd).Nodup
  distinct : ∀ a b aid, aid ≠ 0 → aidAt hapd a = some aid → aidAt hapd b = some aid → a = b
  bits : ∀ n, bit hapd.sta_aid n = true ↔ ∃ a, aidAt hapd a = some (n + 1)

theorem sound_iff : Sound hapd ↔ (addrs hapd).Nodup ∧ AidsUnique hapd := by
  constructor
  · intro h
    refine ⟨h.nodup, ?_, ?_⟩
    · intro a ha b hb hne heq
      apply h.distinct a.addr b.addr a.aid hne
      · rw [aidAt, get_of_mem h.nodup ha, Option.map_some]
      · rw [aidAt, get_of_mem h.nodup hb, Option.map_some, heq]
    · intro n
      rw [exists_aid_iff h.nodup]
      exact h.bits n
  · rintro ⟨hnodup, h⟩
    refine ⟨hnodup, ?_, ?_⟩
    · intro a b aid hne ha hb
      obtain ⟨sta, hget, rfl⟩ := Option.map_eq_some_iff.mp ha
      obtain ⟨sta', hget', heq⟩ := Option.map_eq_some_iff.mp hb
      rw [← addr_of_get hget, ← addr_of_get hget']
      exact h.distinct sta (List.mem_of_find?_eq_some hget) sta'
        (List.mem_of_find?_eq_some hget') hne heq.symm
    · intro n
      rw [← exists_aid_iff hnodup]
      exact h.bits n

theorem addrs_writeSta {f : Sta → Sta} (hf : ∀ sta, (f sta).addr = sta.addr) :
    addrs (writeSta hapd addr f) = addrs hapd := by
  rw [addrs, addrs, writeSta, List.map_map]
  apply List.map_congr_left
  intro sta _
  by_cases hsta : sta.addr = addr
  · simp [hsta, hf]
  · simp [hsta]

theorem get_writeSta {f : Sta → Sta} (hf : ∀ sta, (f sta).addr = sta.addr) (a : Mac) :
    ap_get_sta (writeSta hapd addr f) a =
      (ap_get_sta hapd a).map (fun sta => if a = addr then f sta else sta) := by
  unfold ap_get_sta writeSta
  induction hapd.sta_list with
  | nil => rfl
  | cons first rest ih =>
    have haddr : (if first.addr = addr then f first else first).addr = first.addr := by
      split <;> simp [hf]
    rw [List.map_cons, List.find?_cons, List.find?_cons, haddr]
    by_cases ha : first.addr = a
    · subst ha
      simp
    · simp only [ha, decide_false]
      exact ih

/-- The step leaves the AIDs in use and the bits alone. -/
structure SameAids (hapd hapd' : Hapd) : Prop where
  nodup : (addrs hapd).Nodup → (addrs hapd').Nodup
  aids : ∀ a aid, aid ≠ 0 → (aidAt hapd' a = some aid ↔ aidAt hapd a = some aid)
  words : hapd'.sta_aid = hapd.sta_aid

theorem SameAids.refl (hapd : Hapd) : SameAids hapd hapd := ⟨id, fun _ _ _ => Iff.rfl, rfl⟩

theorem SameAids.trans {hapd'' : Hapd} (h : SameAids hapd hapd') (h' : SameAids hapd' hapd'') :
    SameAids hapd hapd'' :=
  ⟨fun hnodup => h'.nodup (h.nodup hnodup),
    fun a aid hne => (h'.aids a aid hne).trans (h.aids a aid hne), h'.words.trans h.words⟩

theorem SameAids.sound (h : SameAids hapd hapd') (hsound : Sound hapd) : Sound hapd' := by
  refine ⟨h.nodup hsound.nodup, ?_, ?_⟩
  · intro a b aid hne ha hb
    exact hsound.distinct a b aid hne ((h.aids a aid hne).mp ha) ((h.aids b aid hne).mp hb)
  · intro n
    rw [h.words, hsound.bits n]
    exact exists_congr (fun a => (h.aids a (n + 1) (Nat.succ_ne_zero n)).symm)

theorem aidAt_writeSta {f : Sta → Sta} (hf : ∀ sta, (f sta).addr = sta.addr)
    (haid : ∀ sta, (f sta).aid = sta.aid) (a : Mac) :
    aidAt (writeSta hapd addr f) a = aidAt hapd a := by
  rw [aidAt, aidAt, get_writeSta hf, Option.map_map]
  congr 1
  funext sta
  by_cases ha : a = addr
  · simp [ha, haid]
  · simp [ha]

theorem sameAids_writeSta {f : Sta → Sta} (hf : ∀ sta, (f sta).addr = sta.addr)
    (haid : ∀ sta, (f sta).aid = sta.aid) : SameAids hapd (writeSta hapd addr f) :=
  ⟨fun hnodup => by rwa [addrs_writeSta hf], fun a _ _ => by rw [aidAt_writeSta hf haid], rfl⟩

theorem sameAids_add (h : ap_sta_add conf hapd addr env = some hapd') : SameAids hapd hapd' := by
  unfold ap_sta_add at h
  split at h
  · cases h
    exact SameAids.refl hapd
  · rename_i hnew
    split at h
    · cases h
    · split at h
      · cases h
        have hnone : ap_get_sta hapd addr = none := by simpa using hnew
        refine ⟨fun hnodup => List.nodup_cons.mpr ⟨get_eq_none_iff.mp hnone, hnodup⟩, ?_, rfl⟩
        intro a aid hne
        by_cases ha : addr = a
        · -- the new station has no AID
          subst ha
          rw [aidAt, aidAt, hnone]
          simp [ap_get_sta, hne.symm]
        · simp [aidAt, ap_get_sta, ha]
      · cases h

theorem sameAids_auth (frame : AuthFrame) :
    SameAids hapd (handle_auth conf hapd frame env) := by
  unfold handle_auth
  split
  · split
    · exact SameAids.refl hapd
    · rename_i hadd
      split
      · refine (sameAids_add hadd).trans (sameAids_writeSta ?_ ?_)
        · intro sta
          split <;> rfl
        · intro sta
          split <;> rfl
      · exact sameAids_add hadd
  · exact SameAids.refl hapd

/-- The station gets the AID of the bit `n`, which was clear. -/
structure Assigned (hapd hapd' : Hapd) (addr : Mac) (n : ℕ) : Prop where
  nodup : addrs hapd' = addrs hapd
  clear : bit hapd.sta_aid n = false
  before : aidAt hapd addr = some 0
  aids : ∀ a, aidAt hapd' a = if a = addr then some (n + 1) else aidAt hapd a
  bits : ∀ m, bit hapd'.sta_aid m = true ↔ m = n ∨ bit hapd.sta_aid m = true

theorem Assigned.sound {n : ℕ} (h : Assigned hapd hapd' addr n) (hsound : Sound hapd) :
    Sound hapd' := by
  -- nobody had the AID, as its bit was clear
  have hfresh : ∀ a, aidAt hapd a ≠ some (n + 1) := by
    intro a ha
    have hset := (hsound.bits n).mpr ⟨a, ha⟩
    rw [h.clear] at hset
    cases hset
  refine ⟨by rw [h.nodup]; exact hsound.nodup, ?_, ?_⟩
  · intro a b aid hne ha hb
    rw [h.aids] at ha hb
    by_cases haddr : a = addr
    · by_cases hbaddr : b = addr
      · rw [haddr, hbaddr]
      · rw [if_pos haddr, Option.some.injEq] at ha
        rw [if_neg hbaddr, ← ha] at hb
        exact absurd hb (hfresh b)
    · rw [if_neg haddr] at ha
      by_cases hbaddr : b = addr
      · rw [if_pos hbaddr, Option.some.injEq] at hb
        rw [← hb] at ha
        exact absurd ha (hfresh a)
      · rw [if_neg hbaddr] at hb
        exact hsound.distinct a b aid hne ha hb
  · intro m
    rw [h.bits, hsound.bits]
    constructor
    · rintro (rfl | ⟨a, ha⟩)
      · exact ⟨addr, by rw [h.aids, if_pos rfl]⟩
      · refine ⟨a, ?_⟩
        have hne : a ≠ addr := by
          rintro rfl
          rw [h.before] at ha
          cases ha
        rw [h.aids, if_neg hne]
        exact ha
    · rintro ⟨a, ha⟩
      rw [h.aids] at ha
      by_cases haddr : a = addr
      · rw [if_pos haddr, Option.some.injEq] at ha
        exact Or.inl (by omega)
      · rw [if_neg haddr] at ha
        exact Or.inr ⟨a, ha⟩

theorem aidAt_writeAid (aid : ℕ) (f : Sta → Sta) (hf : ∀ sta, (f sta).addr = sta.addr)
    (haid : ∀ sta, (f sta).aid = aid) (hsome : (ap_get_sta hapd addr).isSome) (a : Mac) :
    aidAt (writeSta hapd addr f) a = if a = addr then some aid else aidAt hapd a := by
  rw [aidAt, get_writeSta hf]
  by_cases ha : a = addr
  · subst ha
    obtain ⟨sta, hget⟩ := Option.isSome_iff_exists.mp hsome
    simp [hget, haid]
  · simp [ha, aidAt]

theorem get_aid_cases (hget : ap_get_sta hapd sta.addr = some sta)
    (h : hostapd_get_aid hapd sta = some hapd') :
    hapd' = hapd ∨ ∃ n, Assigned hapd hapd' sta.addr n := by
  unfold hostapd_get_aid at h
  split at h
  · exact Or.inl (Option.some.inj h).symm
  · rename_i hzero
    split at h
    · cases h
    · rename_i i j hclear
      dsimp only at h
      split at h
      · cases h
      · cases h
        refine Or.inr ⟨i * 32 + j, addrs_writeSta (fun _ => rfl), bit_of_firstClear hclear, ?_, ?_,
          fun m => bit_setBit i.isLt j.isLt m⟩
        · rw [aidAt, hget, Option.map_some]
          congr 1
          omega
        · intro a
          exact aidAt_writeAid (i * 32 + j + 1) (fun sta => { sta with aid := i * 32 + j + 1 })
            (fun _ => rfl) (fun _ => rfl) (by rw [hget]; rfl) a

theorem assoc_cases (conf : Conf) (hapd : Hapd) (frame : AssocFrame) (env : Env) :
    handle_assoc conf hapd frame env = hapd ∨
      ∃ n, Assigned hapd (handle_assoc conf hapd frame env) frame.sa n := by
  unfold handle_assoc
  split
  · exact Or.inl rfl
  · split
    · exact Or.inl rfl
    · rename_i sta hget
      have haddr := addr_of_get hget
      split
      · exact Or.inl rfl
      · split
        · exact Or.inl rfl
        · split
          · exact Or.inl rfl
          · split
            · cases haid : hostapd_get_aid hapd sta with
              | none => exact Or.inl rfl
              | some hapd' =>
                rw [← haddr] at hget ⊢
                exact get_aid_cases hget haid
            · exact Or.inl rfl

theorem Sound.assoc (h : Sound hapd) (frame : AssocFrame) :
    Sound (handle_assoc conf hapd frame env) := by
  rcases assoc_cases conf hapd frame env with heq | ⟨n, hassigned⟩
  · rw [heq]
    exact h
  · exact hassigned.sound h

theorem get_eraseP (hnodup : (addrs hapd).Nodup) (a : Mac) :
    (hapd.sta_list.eraseP (fun sta => sta.addr = addr)).find? (fun sta => sta.addr = a) =
      if a = addr then none else ap_get_sta hapd a := by
  unfold addrs at hnodup
  unfold ap_get_sta
  revert hnodup
  induction hapd.sta_list with
  | nil => simp
  | cons first rest ih =>
    intro hnodup
    rw [List.map_cons, List.nodup_cons] at hnodup
    by_cases hfirst : first.addr = addr
    · rw [List.eraseP_cons_of_pos (by simpa using hfirst)]
      by_cases ha : a = addr
      · -- the address is not in the rest again
        subst ha
        rw [if_pos rfl, List.find?_eq_none]
        intro sta hsta hsame
        apply hnodup.1
        rw [hfirst, ← of_decide_eq_true hsame]
        exact List.mem_map_of_mem hsta
      · rw [if_neg ha, List.find?_cons_of_neg (by simpa [hfirst] using Ne.symm ha)]
    · rw [List.eraseP_cons_of_neg (by simpa using hfirst)]
      by_cases ha : first.addr = a
      · have hne : a ≠ addr := fun heq => hfirst (ha.trans heq)
        rw [List.find?_cons_of_pos (by simpa using ha), List.find?_cons_of_pos (by simpa using ha),
          if_neg hne]
      · rw [List.find?_cons_of_neg (by simpa using ha), List.find?_cons_of_neg (by simpa using ha)]
        exact ih hnodup.2

theorem addrs_freeSta (hnodup : (addrs hapd).Nodup) : (addrs (ap_free_sta hapd addr)).Nodup := by
  unfold ap_free_sta
  split
  · exact hnodup
  · exact hnodup.sublist (List.eraseP_sublist.map _)

/-- The bit of an AID that is given back. -/
theorem bit_freed (words : Vector (BitVec 32) 63) (aid n : ℕ) :
    bit (if 0 < aid then clearBit words ((aid - 1) / 32) ((aid - 1) % 32) else words) n = true ↔
      n + 1 ≠ aid ∧ bit words n = true := by
  by_cases hpos : 0 < aid
  · rw [if_pos hpos, bit_clearBit (Nat.mod_lt _ (by decide))]
    have hplace : (aid - 1) / 32 * 32 + (aid - 1) % 32 = aid - 1 := by omega
    rw [hplace]
    exact and_congr_left (fun _ => by omega)
  · rw [if_neg hpos]
    exact ⟨fun hset => ⟨by omega, hset⟩, fun hset => hset.2⟩

theorem Sound.freeSta (h : Sound hapd) (addr : Mac) : Sound (ap_free_sta hapd addr) := by
  have hnodup : (addrs (ap_free_sta hapd addr)).Nodup := addrs_freeSta h.nodup
  unfold ap_free_sta at hnodup ⊢
  split
  · exact h
  · rename_i sta hget
    rw [hget] at hnodup
    have haids : ∀ words a, aidAt
        { sta_list := hapd.sta_list.eraseP (fun sta => sta.addr = addr), sta_aid := words } a =
          if a = addr then none else aidAt hapd a := by
      intro words a
      rw [aidAt, ap_get_sta, get_eraseP h.nodup]
      split
      · rfl
      · rfl
    have hsta : aidAt hapd addr = some sta.aid := by rw [aidAt, hget, Option.map_some]
    refine ⟨hnodup, ?_, ?_⟩
    · intro a b aid hne ha hb
      rw [haids] at ha hb
      split at ha
      · cases ha
      · split at hb
        · cases hb
        · exact h.distinct a b aid hne ha hb
    · intro n
      rw [bit_freed, h.bits]
      constructor
      · rintro ⟨hne, a, ha⟩
        refine ⟨a, ?_⟩
        have haddr : a ≠ addr := by
          rintro rfl
          rw [hsta, Option.some.injEq] at ha
          exact hne ha.symm
        rw [haids, if_neg haddr]
        exact ha
      · rintro ⟨a, ha⟩
        rw [haids] at ha
        split at ha
        · cases ha
        · rename_i haddr
          refine ⟨?_, a, ha⟩
          -- the AID of the station that leaves is nobody else's
          intro heq
          rw [← heq] at hsta
          exact haddr (h.distinct a addr (n + 1) (Nat.succ_ne_zero n) ha hsta)

theorem sameAids_assoc_cb (cb : AssocCb) : SameAids hapd (handle_assoc_cb hapd cb false env) := by
  unfold handle_assoc_cb
  split
  · exact SameAids.refl hapd
  · split
    · exact SameAids.refl hapd
    · split
      · dsimp only
        split
        · exact SameAids.refl hapd
        · exact sameAids_writeSta (fun _ => rfl) (fun _ => rfl)
      · exact SameAids.refl hapd

/-- The last call of an injection: the station, if there is one, has the AID 1 after it. -/
theorem injectedCb_cases (hsome : (ap_get_sta hapd addr).isSome) :
    let hapd' := handle_assoc_cb hapd (injectedCb addr) true env
    addrs hapd' = addrs hapd ∧ hapd'.sta_aid = hapd.sta_aid ∧
      ∀ a, aidAt hapd' a = if a = addr then some 1 else aidAt hapd a := by
  intro hapd'
  obtain ⟨sta, hget⟩ := Option.isSome_iff_exists.mp hsome
  let written := writeSta hapd addr (fun sta => { sta with aid := 1, auth := true })
  let off : Sta → Sta := fun sta => { sta with auth := false }
  have hoff : ∀ sta, (off sta).addr = sta.addr := fun _ => rfl
  have haddrs : addrs written = addrs hapd := addrs_writeSta (fun _ => rfl)
  have haids : ∀ a, aidAt written a = if a = addr then some 1 else aidAt hapd a :=
    aidAt_writeAid 1 _ (fun _ => rfl) (fun _ => rfl) hsome
  have hapd'_eq : hapd' = if env.sta_add then written else writeSta written addr off := by
    change handle_assoc_cb hapd (injectedCb addr) true env = _
    simp only [handle_assoc_cb, injectedCb, hget]
    rfl
  rw [hapd'_eq]
  split
  · exact ⟨haddrs, rfl, haids⟩
  · refine ⟨?_, rfl, ?_⟩
    · rw [addrs_writeSta hoff]
      exact haddrs
    · intro a
      rw [aidAt_writeSta hoff (fun _ => rfl)]
      exact haids a

/-- An injection for a new address that gets as far as adding the station. -/
def Adds (conf : Conf) (hapd : Hapd) (addr : Mac) (env : Env) : Prop :=
  authAllowed conf (injectedAuth addr) env = true ∧
    hapd.sta_list.length < conf.max_num_sta ∧ env.memory = true

theorem inject_of_not_adds (hnew : ap_get_sta hapd addr = none) (h : ¬Adds conf hapd addr env) :
    inject conf hapd addr env = hapd := by
  have hauth : handle_auth conf hapd (injectedAuth addr) env = hapd := by
    unfold handle_auth
    split
    · rename_i hallowed
      have hadd : ap_sta_add conf hapd (injectedAuth addr).sa env = none := by
        change ap_sta_add conf hapd addr env = none
        rw [ap_sta_add, hnew]
        by_cases hfull : conf.max_num_sta ≤ hapd.sta_list.length
        · simp [hfull]
        · have hmemory : ¬env.memory = true := fun hmem => h ⟨hallowed, by omega, hmem⟩
          simp [hmemory]
      rw [hadd]
    · rfl
  have hassoc : handle_assoc conf hapd (injectedAssoc addr) env = hapd := by
    simp [handle_assoc, injectedAssoc, hnew]
  simp [inject, hauth, hassoc, handle_assoc_cb, injectedCb, hnew]

/-- After the injected authentication the station is there without an AID, and marked as
authenticated if its VLAN is valid. -/
theorem get_injectedAuth (hnew : ap_get_sta hapd addr = none) (h : Adds conf hapd addr env)
    (a : Mac) :
    ap_get_sta (handle_auth conf hapd (injectedAuth addr) env) a =
      if a = addr then some { addr, auth := env.vlan_valid } else ap_get_sta hapd a := by
  obtain ⟨hallowed, hroom, hmemory⟩ := h
  have hadd : ap_sta_add conf hapd addr env =
      some { hapd with sta_list := { addr } :: hapd.sta_list } := by
    simp [ap_sta_add, hnew, Nat.not_le.mpr hroom, hmemory]
  have hadded : ap_get_sta { hapd with sta_list := { addr } :: hapd.sta_list } a =
      if a = addr then some { addr } else ap_get_sta hapd a := by
    by_cases ha : a = addr
    · simp [ha, ap_get_sta]
    · simp [ha, Ne.symm ha, ap_get_sta]
  rw [handle_auth, if_pos hallowed]
  change ap_get_sta (match ap_sta_add conf hapd addr env with | none => hapd | some hapd => _) a = _
  rw [hadd]
  cases hvlan : env.vlan_valid with
  | false =>
    simp only [Bool.false_eq_true, if_false]
    exact hadded
  | true =>
    simp only [if_true]
    rw [get_writeSta (fun _ => by rfl), hadded]
    by_cases ha : a = addr
    · simp [ha, injectedAuth]
    · simp [ha, injectedAuth]

/-- What an injection that adds its station does to the AIDs. -/
theorem aidAt_inject (hnew : ap_get_sta hapd addr = none) (h : Adds conf hapd addr env) (a : Mac) :
    aidAt (inject conf hapd addr env) a = if a = addr then some 1 else aidAt hapd a := by
  have hget := get_injectedAuth hnew h
  have hassoc : ∀ a, (a ≠ addr → aidAt (handle_assoc conf
      (handle_auth conf hapd (injectedAuth addr) env) (injectedAssoc addr) env) a = aidAt hapd a) ∧
      (aidAt (handle_assoc conf (handle_auth conf hapd (injectedAuth addr) env)
        (injectedAssoc addr) env) addr).isSome := by
    intro a
    rcases assoc_cases conf (handle_auth conf hapd (injectedAuth addr) env) (injectedAssoc addr) env
      with heq | ⟨n, hassigned⟩
    · rw [heq]
      refine ⟨fun ha => ?_, ?_⟩
      · rw [aidAt, hget, if_neg ha, aidAt]
      · rw [aidAt, hget, if_pos rfl]
        rfl
    · change Assigned _ _ addr n at hassigned
      refine ⟨fun ha => ?_, ?_⟩
      · rw [hassigned.aids, if_neg ha, aidAt, hget, if_neg ha, aidAt]
      · rw [hassigned.aids, if_pos rfl]
        rfl
  have hsome := (hassoc a).2
  rw [aidAt, Option.isSome_map] at hsome
  rw [inject, (injectedCb_cases hsome).2.2]
  by_cases ha : a = addr
  · rw [if_pos ha, if_pos ha]
  · rw [if_neg ha, if_neg ha]
    exact (hassoc a).1 ha

/-- Where the injected association is turned away, no bit is set. -/
theorem injectedAssoc_rejected (hnew : ap_get_sta hapd addr = none) (h : Adds conf hapd addr env)
    (hno : ¬(env.vlan_valid = true ∧ env.check_assoc_ies = true)) :
    (inject conf hapd addr env).sta_aid = hapd.sta_aid := by
  have hget := get_injectedAuth hnew h addr
  rw [if_pos rfl] at hget
  have hassoc : handle_assoc conf (handle_auth conf hapd (injectedAuth addr) env)
      (injectedAssoc addr) env = handle_auth conf hapd (injectedAuth addr) env := by
    simp only [handle_assoc, injectedAssoc, hget]
    cases hvlan : env.vlan_valid with
    | false => simp
    | true =>
      have hies : env.check_assoc_ies = false := by
        rw [Bool.eq_false_iff]
        exact fun hies => hno ⟨hvlan, hies⟩
      simp [hies]
  have hsome : (ap_get_sta (handle_auth conf hapd (injectedAuth addr) env) addr).isSome := by
    rw [hget]
    rfl
  rw [inject, hassoc, (injectedCb_cases hsome).2.1]
  exact (sameAids_auth (injectedAuth addr)).words

/-- Where AID 1 is free and the association accepted, the station has AID 1 before it is
written. -/
theorem Sound.inject (h : Sound hapd) (hnew : ap_get_sta hapd addr = none)
    (hadds : Adds conf hapd addr env) (hfree : bit hapd.sta_aid 0 = false)
    (hvlan : env.vlan_valid = true) (hies : env.check_assoc_ies = true) :
    Sound (inject conf hapd addr env) := by
  let first := handle_auth conf hapd (injectedAuth addr) env
  have hsame : SameAids hapd first := sameAids_auth (injectedAuth addr)
  have hget : ap_get_sta first addr = some { addr, auth := env.vlan_valid } := by
    have hget := get_injectedAuth hnew hadds addr
    rwa [if_pos rfl] at hget
  have hsome : (ap_get_sta first addr).isSome := by
    rw [hget]
    rfl
  have hclear : firstClear first.sta_aid = some (0, 0) := by
    rw [hsame.words]
    exact firstClear_zero hfree
  have htkip : env.tkip_countermeasures = false := by
    have hallowed := hadds.1
    simp only [authAllowed, Bool.and_eq_true, Bool.not_eq_true'] at hallowed
    exact hallowed.1.1.1.1.2
  have hassoc : aidAt (handle_assoc conf first (injectedAssoc addr) env) addr = some 1 := by
    simp only [handle_assoc, injectedAssoc, hget, hvlan, htkip, hies, hostapd_get_aid, hclear]
    exact (aidAt_writeAid 1 (fun sta => { sta with aid := 1 }) (fun _ => rfl) (fun _ => rfl) hsome
      addr).trans (if_pos rfl)
  have hsound : Sound (handle_assoc conf first (injectedAssoc addr) env) :=
    (hsame.sound h).assoc (injectedAssoc addr)
  have hsome' := congrArg Option.isSome hassoc
  rw [aidAt, Option.isSome_map] at hsome'
  have hcb := @injectedCb_cases _ addr env hsome'
  obtain ⟨haddrs, hwords, haids⟩ := hcb
  refine SameAids.sound ⟨fun hnodup => ?_, ?_, hwords⟩ hsound
  · rw [AssocIds.inject, haddrs]
    exact hnodup
  · intro a aid _
    rw [AssocIds.inject, haids]
    by_cases ha : a = addr
    · rw [if_pos ha, ha]
      rw [hassoc]
    · rw [if_neg ha]

/-- An injection that breaks the condition breaks the AIDs. -/
theorem adds_at_first_aid (h : Sound hapd) (hnew : ap_get_sta hapd addr = none)
    (hadds : Adds conf hapd addr env) (hunique : AidsUnique (inject conf hapd addr env))
    (hnodup : (addrs (inject conf hapd addr env)).Nodup) :
    bit hapd.sta_aid 0 = false ∧ env.vlan_valid = true ∧ env.check_assoc_ies = true := by
  have hafter : Sound (inject conf hapd addr env) := sound_iff.mpr ⟨hnodup, hunique⟩
  have haids := aidAt_inject hnew hadds
  have hinjected : aidAt (inject conf hapd addr env) addr = some 1 := by rw [haids, if_pos rfl]
  have hfree : bit hapd.sta_aid 0 = false := by
    rw [Bool.eq_false_iff]
    intro hset
    -- the station that has AID 1 keeps it beside the injected one
    obtain ⟨a, ha⟩ := (h.bits 0).mp hset
    have hne : a ≠ addr := by
      rintro rfl
      rw [aidAt, hnew] at ha
      cases ha
    have hkept : aidAt (inject conf hapd addr env) a = some 1 := by
      rw [haids, if_neg hne]
      exact ha
    exact hne (hafter.distinct a addr 1 one_ne_zero hkept hinjected)
  refine ⟨hfree, ?_⟩
  by_contra hno
  have hset := (hafter.bits 0).mpr ⟨addr, hinjected⟩
  rw [injectedAssoc_rejected hnew hadds hno, hfree] at hset
  cases hset

theorem addrs_inject (hnodup : (addrs hapd).Nodup) :
    (addrs (inject conf hapd addr env)).Nodup := by
  have hsame : SameAids hapd (handle_auth conf hapd (injectedAuth addr) env) :=
    sameAids_auth (injectedAuth addr)
  have hfirst := hsame.nodup hnodup
  have hassoc : (addrs (handle_assoc conf (handle_auth conf hapd (injectedAuth addr) env)
      (injectedAssoc addr) env)).Nodup := by
    rcases assoc_cases conf (handle_auth conf hapd (injectedAuth addr) env) (injectedAssoc addr) env
      with heq | ⟨n, hassigned⟩
    · rw [heq]
      exact hfirst
    · rw [hassigned.nodup]
      exact hfirst
  rw [inject]
  cases hget : ap_get_sta (handle_assoc conf (handle_auth conf hapd (injectedAuth addr) env)
      (injectedAssoc addr) env) addr with
  | none =>
    simp only [handle_assoc_cb, injectedCb, hget]
    exact hassoc
  | some sta =>
    rw [(injectedCb_cases (by rw [hget]; rfl)).1]
    exact hassoc

/-- From a sound state a step keeps the AIDs unique exactly if it meets the condition. -/
theorem handle_sound_iff (h : Sound hapd) (e : Event) :
    (AtFirstAid conf hapd e → Sound (handle conf hapd e)) ∧
      (AidsUnique (handle conf hapd e) → AtFirstAid conf hapd e) := by
  cases e with
  | auth frame env => exact ⟨fun _ => (sameAids_auth frame).sound h, fun _ => trivial⟩
  | assoc frame env => exact ⟨fun _ => h.assoc frame, fun _ => trivial⟩
  | assocCb cb env => exact ⟨fun _ => (sameAids_assoc_cb cb).sound h, fun _ => trivial⟩
  | freeSta addr => exact ⟨fun _ => h.freeSta addr, fun _ => trivial⟩
  | flags addr auth alg =>
    refine ⟨fun _ => SameAids.sound (sameAids_writeSta ?_ ?_) h, fun _ => trivial⟩
    · exact fun _ => rfl
    · exact fun _ => rfl
  | add addr env =>
    refine ⟨fun _ => ?_, fun _ => trivial⟩
    rw [handle]
    cases hadd : ap_sta_add conf hapd addr env with
    | none => exact h
    | some hapd' => exact (sameAids_add hadd).sound h
  | newSta txtaddr env =>
    simp only [handle, hostapd_ctrl_iface_new_sta, AtFirstAid]
    cases haddr : hwaddr_aton txtaddr with
    | none => exact ⟨fun _ => h, fun _ addr hno => by cases hno⟩
    | some addr =>
      by_cases hnew : ap_get_sta hapd addr = none
      · by_cases hadds : Adds conf hapd addr env
        · simp only [hnew, Option.isSome_none, Bool.false_eq_true, if_false]
          constructor
          · intro hmeets
            obtain ⟨hfree, hvlan, hies⟩ := hmeets addr rfl hnew hadds.1 hadds.2.1 hadds.2.2
            exact h.inject hnew hadds hfree hvlan hies
          · intro hunique addr' heq _ _ _ _
            cases heq
            exact adds_at_first_aid h hnew hadds hunique (addrs_inject h.nodup)
        · simp only [hnew, Option.isSome_none, Bool.false_eq_true, if_false]
          rw [inject_of_not_adds hnew hadds]
          refine ⟨fun _ => h, fun _ addr' heq _ hallowed hroom hmemory => ?_⟩
          cases heq
          exact absurd ⟨hallowed, hroom, hmemory⟩ hadds
      · have hsome : (ap_get_sta hapd addr).isSome = true := Option.isSome_iff_ne_none.mpr hnew
        simp only [hsome, if_true]
        refine ⟨fun _ => h, fun _ addr' heq hnew' _ _ _ => ?_⟩
        cases heq
        exact absurd hnew' hnew

theorem run_append (conf : Conf) (pre : List Event) (e : Event) :
    run conf (pre ++ [e]) = handle conf (run conf pre) e := by
  rw [run, run, List.foldl_append]
  rfl

theorem sound_start : Sound {} := by
  refine ⟨List.nodup_nil, ?_, ?_⟩
  · intro a b aid _ ha
    cases ha
  · intro n
    constructor
    · intro hset
      rw [bit, Vector.getElem?_replicate] at hset
      split at hset
      · simp at hset
      · cases hset
    · rintro ⟨a, ha⟩
      cases ha

/-- For every run: the AIDs are unique and the bits exact in each state reached if and only if
each `NEW_STA` that adds a station does so while AID 1 is free and has it accepted. -/
theorem aids_unique_iff (conf : Conf) (events : List Event) :
    (∀ pre, pre <+: events → AidsUnique (run conf pre)) ↔
      ∀ pre e, pre ++ [e] <+: events → AtFirstAid conf (run conf pre) e := by
  constructor
  · intro hunique pre e hpre
    have hpart : pre <+: pre ++ [e] := List.prefix_append pre [e]
    have hsound : ∀ pre, pre <+: events → Sound (run conf pre) := by
      intro pre
      induction pre using List.reverseRecOn with
      | nil => exact fun _ => sound_start
      | append_singleton pre e ih =>
        intro hpre
        have hstep := ih ((List.prefix_append pre [e]).trans hpre)
        have hnext := hunique _ hpre
        rw [run_append] at hnext ⊢
        have hmeets : AtFirstAid conf (run conf pre) e := (handle_sound_iff hstep e).2 hnext
        exact (handle_sound_iff hstep e).1 hmeets
    have hnext := hunique _ hpre
    rw [run_append] at hnext
    exact (handle_sound_iff (hsound pre (hpart.trans hpre)) e).2 hnext
  · intro hmeets pre hpre
    have hsound : Sound (run conf pre) := by
      induction pre using List.reverseRecOn with
      | nil => exact sound_start
      | append_singleton pre e ih =>
        rw [run_append]
        exact (handle_sound_iff (ih ((List.prefix_append pre [e]).trans hpre)) e).1
          (hmeets pre e hpre)
    exact (sound_iff.mp hsound).2

def openConf : Conf :=
  { own_addr := Vector.replicate 6 2, max_num_sta := 2007, max_listen_interval := 65535,
    allows := fun alg => decide (alg = .open_system) }

/-- A station associates and has AID 1; then `NEW_STA 00:00:00:00:00:00` injects another
one. -/
def associateInject : List Event :=
  [.auth { sa := Vector.replicate 6 4, auth_alg := .open_system, auth_transaction := 1 } {},
   .assoc { sa := Vector.replicate 6 4, listen_interval := 10 } {},
   .newSta "00:00:00:00:00:00".toUTF8.toList {}]

theorem injected_twin :
    ¬∀ (conf : Conf) (events : List Event), AidsUnique (run conf events) := by
  intro hall
  have hunique := (hall openConf associateInject).distinct
  revert hunique
  decide +kernel

end Nxwlan.AssocIds
