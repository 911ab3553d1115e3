import Nxwlan.VapIsolation

/-!
Which VAPs a frame of the own radio gets to. Every setup adds an entry for the
radio port of its kind to a table with exact keys, and the switch rejects all
of them but the first: the frames of hwsim0 go to the tunnel of the local VAP
that was set up first, and those of the monitor interface to that of the first
remote VAP. The table has 32 entries, so that even the first VAP of a kind may
come too late.
-/
namespace Nxwlan.VapReach

open ByteFields SwitchParser P4Switch ExactTables SwitchWiring SwitchForwarding Vaps VapIsolation

/-- The radio port that the VAPs of a kind serve. -/
def radioPort : Role → ℕ
  | .localVap => 0
  | .remoteVap => 1

/-- The entries that a setup adds in front of the one for its radio port. -/
def entriesBefore : Role → ℕ
  | .localVap => 0
  | .remoteVap => 1

/-- How many kinds of VAPs there are among the setups. -/
def kinds (roles : List Role) : ℕ :=
  (if .localVap ∈ roles then 1 else 0) + if .remoteVap ∈ roles then 1 else 0

theorem radioPort_lt (role : Role) : radioPort role < 2 := by
  cases role <;> decide

theorem radioPort_injective {r role : Role} (h : radioPort r = radioPort role) : r = role := by
  cases r <;> cases role <;> first | rfl | cases h

section Setups

variable {t : Table ℕ Action 32} {n : ℕ} {roles : List Role}

/-- The entry for the radio port is added if there is none and there is room. -/
theorem lookup_forward_self (role : Role) (hn : 2 ≤ n) (hfresh : n ∉ t.entries) :
    (forward role n t).entries.lookup (radioPort role) =
      (t.entries.lookup (radioPort role)).or
        (if t.count + entriesBefore role < 32 then some (.send_to_port n) else none) := by
  cases role with
  | localVap =>
    simp only [forward, radioPort, entriesBefore]
    rw [Table.lookup_add_of_ne _ _ (by omega), Table.lookup_add_self]
    rfl
  | remoteVap =>
    simp only [forward, radioPort, entriesBefore]
    rw [Table.lookup_add_self, Table.lookup_add_of_ne _ _ (by omega), Table.count_add,
      if_neg hfresh]
    congr 1
    exact if_congr (by omega) rfl rfl

theorem lookup_forward_other {r role : Role} (hr : r ≠ role) (hn : 2 ≤ n) :
    (forward role n t).entries.lookup (radioPort r) = t.entries.lookup (radioPort r) := by
  have hlt := radioPort_lt r
  have hne : radioPort r ≠ radioPort role := fun heq => hr (radioPort_injective heq)
  cases role with
  | localVap =>
    change radioPort r ≠ 0 at hne
    simp only [forward]
    rw [Table.lookup_add_of_ne _ _ (by omega), Table.lookup_add_of_ne _ _ hne]
  | remoteVap =>
    change radioPort r ≠ 1 at hne
    simp only [forward]
    rw [Table.lookup_add_of_ne _ _ hne, Table.lookup_add_of_ne _ _ (by omega)]

theorem count_forward_eq (role : Role) (hn : 2 ≤ n) (hfresh : n ∉ t.entries) :
    (forward role n t).count =
      min 32 (t.count + 1 + if radioPort role ∈ t.entries then 0 else 1) := by
  have hbound : t.count ≤ 32 := t.bounded
  cases role with
  | localVap =>
    have hnew : n ∉ (t.add 0 (.send_to_port n)).entries := by
      rwa [Table.mem_add_of_ne _ _ (by omega)]
    simp only [forward, radioPort, Table.count_add, hnew, if_false]
    by_cases hmem : 0 ∈ t.entries
    · simp only [hmem, if_true]
    · simp only [hmem, if_false]
      omega
  | remoteVap =>
    have hkey : 1 ∈ (t.add n (.send_to_port 1)).entries ↔ 1 ∈ t.entries :=
      Table.mem_add_of_ne _ _ (by omega)
    simp only [forward, radioPort, Table.count_add, hkey, hfresh, if_false]
    by_cases hmem : 1 ∈ t.entries
    · simp only [hmem, if_true]
    · simp only [hmem, if_false]
      omega

/-- The table after the setups: the number of its entries, and for each radio port the
entry of the first setup of its kind, if that found room. -/
structure Radio (roles : List Role) (t : Table ℕ Action 32) : Prop where
  count : t.count = min 32 (roles.length + kinds roles)
  entry : ∀ role, t.entries.lookup (radioPort role) =
    if role ∈ roles ∧ roles.idxOf role + 2 ≤ 32 - entriesBefore role
    then some (.send_to_port (roles.idxOf role + 2)) else none

theorem one_le_kinds {role : Role} (h : role ∈ roles) : 1 ≤ kinds roles := by
  cases role with
  | localVap => simp [kinds, h]
  | remoteVap => simp [kinds, h]

theorem kinds_append_of_mem {role : Role} (h : role ∈ roles) :
    kinds (roles ++ [role]) = kinds roles := by
  cases role with
  | localVap => simp [kinds, h]
  | remoteVap => simp [kinds, h]

theorem kinds_append_of_not_mem {role : Role} (h : role ∉ roles) :
    kinds (roles ++ [role]) = kinds roles + 1 := by
  cases role with
  | localVap =>
    simp only [kinds, List.mem_append, List.mem_singleton, h, reduceCtorEq, or_false, or_true,
      if_true, if_false]
    omega
  | remoteVap =>
    simp only [kinds, List.mem_append, List.mem_singleton, h, reduceCtorEq, or_false, or_true,
      if_true, if_false]

/-- As long as a kind is missing, the others have at most one entry for a radio port. -/
theorem kinds_of_not_mem {role : Role} (h : role ∉ roles) :
    kinds roles = if roles.length = 0 then 0 else 1 := by
  cases roles with
  | nil => rfl
  | cons r roles =>
    rw [List.mem_cons, not_or] at h
    cases role with
    | localVap =>
      cases r with
      | localVap => exact absurd rfl h.1
      | remoteVap => simp [kinds, h.2]
    | remoteVap =>
      cases r with
      | localVap => simp [kinds, h.2]
      | remoteVap => exact absurd rfl h.1

/-- A kind that has been set up without getting an entry has found the table full. -/
theorem Radio.full (h : Radio roles t) {role : Role} (hmem : role ∈ roles)
    (hnone : t.entries.lookup (radioPort role) = none) : t.count = 32 := by
  have hidx : roles.idxOf role < roles.length := List.idxOf_lt_length_of_mem hmem
  have hkinds := one_le_kinds hmem
  have hlate : ¬ roles.idxOf role + 2 ≤ 32 - entriesBefore role := by
    intro hle
    rw [h.entry, if_pos ⟨hmem, hle⟩] at hnone
    simp at hnone
  have hbefore : entriesBefore role ≤ 1 := by
    cases role <;> decide
  rw [h.count]
  omega

/-- One more setup. -/
theorem Radio.forward (h : Radio roles t) (hw : Wires roles (roles.length + 2) t) (role : Role) :
    Radio (roles ++ [role]) (SwitchWiring.forward role (roles.length + 2) t) := by
  have hfresh := new_port_free hw
  have hcount := h.count
  have habsent : role ∉ roles → t.entries.lookup (radioPort role) = none := by
    intro hno
    rw [h.entry, if_neg (fun hand => hno hand.1)]
  refine ⟨?_, fun r => ?_⟩
  · rw [count_forward_eq role (by omega) hfresh, List.length_append, List.length_singleton]
    by_cases hmem : role ∈ roles
    · rw [kinds_append_of_mem hmem]
      split
      · omega
      · rename_i hkey
        have := h.full hmem (AList.lookup_eq_none.mpr hkey)
        omega
    · rw [kinds_append_of_not_mem hmem, if_neg (AList.lookup_eq_none.mp (habsent hmem))]
      omega
  · by_cases hr : r = role
    · subst hr
      rw [lookup_forward_self r (by omega) hfresh]
      by_cases hmem : r ∈ roles
      · rw [List.idxOf_append_of_mem hmem]
        have hmem' : r ∈ roles ++ [r] := by simp
        cases hlook : t.entries.lookup (radioPort r) with
        | none =>
          have hfull := h.full hmem hlook
          rw [h.entry] at hlook
          simp only [hmem, true_and] at hlook
          simp only [hmem', true_and]
          rw [hlook, Option.none_or, if_neg (by omega)]
        | some a =>
          rw [h.entry] at hlook
          simp only [hmem, true_and] at hlook
          simp only [hmem', true_and]
          rw [hlook, Option.some_or]
      · have hidx : (roles ++ [r]).idxOf r = roles.length := by
          rw [List.idxOf_append_of_notMem hmem]
          simp
        have hkinds := kinds_of_not_mem hmem
        have hbefore : entriesBefore r ≤ 1 := by
          cases r <;> decide
        have hiff : t.count + entriesBefore r < 32 ↔
            r ∈ roles ++ [r] ∧ roles.length + 2 ≤ 32 - entriesBefore r := by
          simp only [List.mem_append, List.mem_singleton, or_true, true_and]
          split at hkinds
          · omega
          · omega
        rw [habsent hmem, Option.none_or, hidx]
        simp only [hiff]
    · rw [lookup_forward_other hr (by omega), h.entry]
      have hmem : r ∈ roles ++ [role] ↔ r ∈ roles := by simp [hr]
      by_cases hold : r ∈ roles
      · rw [List.idxOf_append_of_mem hold]
        simp only [hmem]
      · rw [if_neg (fun hand => hold hand.1), if_neg (fun hand => hold (hmem.mp hand.1))]

theorem programmed_radio {m : P4SwitchManager} (h : Programmed roles m) :
    Radio roles m.switch.table_wire_ports := by
  induction h with
  | started => exact ⟨rfl, fun role => by cases role <;> rfl⟩
  | setup hprev role ifaceName ih =>
    have hw := programmed_wiring hprev
    rw [setup_forward hw role ifaceName]
    exact ih.forward hw.wires role

theorem roleOf_mem {role : Role} {q : ℕ} (h : roleOf roles q = some role) : role ∈ roles := by
  unfold roleOf at h
  split at h
  · exact List.mem_of_getElem? h
  · simp at h

/-- The first port of a kind is that of the first setup of this kind. -/
theorem first_iff {role : Role} {q : ℕ} (hq : roleOf roles q = some role) :
    (∀ q', roleOf roles q' = some role → q ≤ q') ↔ q = roles.idxOf role + 2 := by
  have hfirst : ∀ q', roleOf roles q' = some role → roles.idxOf role + 2 ≤ q' := by
    intro q' hq'
    unfold roleOf at hq'
    split at hq'
    · obtain ⟨hlt, hget⟩ := List.getElem?_eq_some_iff.mp hq'
      by_contra hlate
      have hbefore : q' - 2 < roles.findIdx (· == role) := by
        show q' - 2 < roles.idxOf role
        omega
      have hne := List.not_of_lt_findIdx hbefore
      simp [hget] at hne
    · simp at hq'
  have hmem := roleOf_mem hq
  have hown : roleOf roles (roles.idxOf role + 2) = some role := by
    rw [roleOf, if_pos (by omega), Nat.add_sub_cancel]
    exact List.getElem?_idxOf hmem
  constructor
  · intro hleast
    have hle := hleast _ hown
    have hge := hfirst q hq
    omega
  · rintro rfl q' hq'
    exact hfirst q' hq'

/-- The radio port leads to a VAP that was set up first of its kind, and early enough. -/
theorem Radio.lookup_iff (h : Radio roles t) {role : Role} {q : ℕ}
    (hq : roleOf roles q = some role) :
    t.entries.lookup (radioPort role) = some (.send_to_port q) ↔
      (∀ q', roleOf roles q' = some role → q ≤ q') ∧ q ≤ 32 - entriesBefore role := by
  have hmem := roleOf_mem hq
  rw [first_iff hq, h.entry]
  constructor
  · intro hlook
    split at hlook
    · rename_i hroom
      simp only [Option.some.injEq, Action.send_to_port.injEq] at hlook
      exact ⟨hlook.symm, by omega⟩
    · simp at hlook
  · rintro ⟨rfl, hroom⟩
    rw [if_pos ⟨hmem, hroom⟩]

end Setups

/-- A frame of a port that parses as radiotap and 802.11 and that no drop table takes out. -/
def Passes (port : ℕ) (frame : Bytes) : Prop :=
  ∃ pkt, start (arriving port frame) = some pkt ∧ pkt.radiotap.isSome = true ∧
    ¬ Blocked port pkt.dot11_fc_metadata.type pkt.dot11_fc_metadata.subtype
      pkt.radiotap_metadata.rx

/-- A null data frame as the monitor interface receives it, with the RX flags field. -/
def sampleReceived : Bytes := [0, 0, 8, 0, 0, 0x40, 0, 0, 72, 1] ++ List.replicate 22 5

theorem sampleFrame_passes : Passes 0 sampleFrame :=
  ⟨(start (arriving 0 sampleFrame)).get (by decide), (Option.some_get _).symm, by decide,
    by decide⟩

/-- Neither radio port has all its frames dropped. -/
theorem exists_passes (role : Role) : ∃ frame, Passes (radioPort role) frame := by
  cases role with
  | localVap => exact ⟨sampleFrame, sampleFrame_passes⟩
  | remoteVap =>
    exact ⟨sampleReceived, (start (arriving 1 sampleReceived)).get (by decide),
      (Option.some_get _).symm, by decide, by decide⟩

/-- A frame that passes goes where the entry of its port leads. -/
theorem passes_sent_iff {roles : List Role} {m : P4SwitchManager} {port : ℕ} {frame : Bytes}
    (hw : Wiring roles m) (hpass : Passes port frame) (q : ℕ) :
    (∃ out, process m.switch port frame = .sent q out) ↔
      m.switch.table_wire_ports.entries.lookup port = some (.send_to_port q) := by
  obtain ⟨pkt, hparse, hvalid, hfree⟩ := hpass
  obtain ⟨inner, r, fc, -, hport, hrec⟩ := start_recognised hparse hvalid
  have hsent := process_recognised hw hparse hvalid (by rw [hrec.control]; rfl)
    (by rw [hrec.standard, hport]) q
  simp only [hsent, hfree, not_false_eq_true, and_true, exists_and_left, exists_eq]

/-- Which VAPs the radio reaches. In every state of an access point, all frames of a
radio port that pass the drop tables get to every VAP of its kind exactly if
no VAP of this kind was set up before it and it is among the first that the
forwarding table has room for. -/
theorem radio_reaches_iff_first (hostname : String) (events : List Event) (role : Role) :
    (∀ q ∈ portsOf (run hostname events) role, ∀ frame, Passes (radioPort role) frame →
        ∃ out, process (run hostname events).p4SwitchManager.switch (radioPort role) frame =
          .sent q out) ↔
      ∀ q ∈ portsOf (run hostname events) role,
        (∀ q', Owned hostname events role q' → q ≤ q') ∧ q ≤ 32 - entriesBefore role := by
  obtain ⟨roles, hprog, hroles⟩ := run_programmed hostname events
  have hw := programmed_wiring hprog
  refine forall₂_congr fun q hq => ?_
  have hown : roleOf roles q = some role := (hroles role q).mp ⟨events, [], by simp, hq⟩
  have hlook := (programmed_radio hprog).lookup_iff hown
  simp only [hroles]
  rw [← hlook]
  constructor
  · intro hall
    obtain ⟨frame, hpass⟩ := exists_passes role
    exact (passes_sent_iff hw hpass q).mp (hall frame hpass)
  · intro hentry frame hpass
    exact (passes_sent_iff hw hpass q).mpr hentry

/-- The answer of a neighbor that completes the local VAP for it. -/
def answerOf (peer : String) : Config where
  peer := peer
  local_tunnel_id := 1000
  remote_tunnel_id := some ['1', '0', '0', '0']
  local_ip_address := peer
  remote_ip_address := "10.0.0.1"
  sport := 5001
  dport := some ['5', '0', '0', '1']
  local_session_id := 1000
  remote_session_id := some ['1', '0', '0', '0']

/-- With the local VAPs of two neighbors completed, a frame of hwsim0 goes to the first
one only. -/
theorem second_vap_unreached :
    let m := run "10.0.0.1"
      [.newLink "10.0.0.2", .newLink "10.0.0.3",
        .message (.remote_vap_create_completed (answerOf "10.0.0.2")) "l2tpeth0",
        .message (.remote_vap_create_completed (answerOf "10.0.0.3")) "l2tpeth1"]
    portsOf m .localVap = [2, 3] ∧ Passes (radioPort .localVap) sampleFrame ∧
      (∃ out, process m.p4SwitchManager.switch (radioPort .localVap) sampleFrame = .sent 2 out) ∧
      ¬ ∃ out, process m.p4SwitchManager.switch (radioPort .localVap) sampleFrame = .sent 3 out := by
  have hsent : ∃ out, process (run "10.0.0.1"
      [.newLink "10.0.0.2", .newLink "10.0.0.3",
        .message (.remote_vap_create_completed (answerOf "10.0.0.2")) "l2tpeth0",
        .message (.remote_vap_create_completed (answerOf "10.0.0.3")) "l2tpeth1"]
      ).p4SwitchManager.switch (radioPort .localVap) sampleFrame = .sent 2 out := ⟨_, rfl⟩
  refine ⟨by decide, sampleFrame_passes, hsent, ?_⟩
  rintro ⟨out, hout⟩
  obtain ⟨out', hout'⟩ := hsent
  rw [hout] at hout'
  cases hout'

end Nxwlan.VapReach
