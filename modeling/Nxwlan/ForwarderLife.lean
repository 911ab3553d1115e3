import Nxwlan.ThreadSteps

/-!
Which exceptions close the forwarder. Each of its stages reads some fields of the frame
and an entry of the table; the forwarder lives on exactly where these are there, can be
read and go through the operation that follows.
-/
namespace Nxwlan.ForwarderLife

open JsonFrames AgentState Forwarder ForwarderStages Rescans AgentThreads ThreadSteps
open Base64 (Bytes)

variable {p : Platform} {me : Identity} {out : Outside} {s s' : Sys} {a : Agent} {cache : FwdCache}
  {f : Frame} {nb : Bool} {name : String} {entry : Neighbor}

/-- The filters can read the time to live and, unless it is up, compare the message number
and find the receiver. -/
def Filterable (p : Platform) (me : Identity) (cache : FwdCache) (f : Frame) : Prop :=
  ∃ ttl, (field f.ttl).bind Json.toInt = .ok ttl ∧
    (1 < ttl → ∃ old, seen p cache f = .ok old ∧ (old = false → ∃ mine, addressed me f = .ok mine))

/-- The log line can print both names. -/
def Printable (f : Frame) : Prop :=
  ∃ lasthop host, f.lasthop = some lasthop ∧ lasthop.printable = .ok () ∧
    f.host = some host ∧ host.printable = .ok ()

/-- The last hop can be looked up and, if it is known, its keys go with the frame. -/
def Decodable (p : Platform) (me : Identity) (a : Agent) (nb : Bool) (f : Frame) : Prop :=
  match lasthopEntry f a.globalNeighborList with
  | .error _ => False
  | .ok none => True
  | .ok (some (name, entry)) =>
      ∃ plain ok, attempt p entry.encryptionKey entry.encryptionIV
          (verificationKey me name entry) f = .ok (plain, ok) ∧
        (ok = false → nb = true →
          ∃ old, attemptOld p (verificationKey me name entry) entry f = .ok old)

/-- The loss can be counted: the neighbor is still there, and can be removed if its fifth
loss in a row is not followed by a search. -/
def Countable (out : Outside) (a : Agent) (name : String) : Prop :=
  ∃ entry, a.globalNeighborList.lookup name = some entry ∧
    (5 ≤ entry.lostMessages + 1 → entry.freq = 0 → Removable out a name)

/-- The neighbor is still there, and a search for its key goes through. -/
def Searchable (out : Outside) (a : Agent) (name : String) : Prop :=
  ∃ entry, a.globalNeighborList.lookup name = some entry ∧
    Rescannable out a entry.freq entry.ssid name entry.encryptionKey

/-- The frame can be encrypted, counted as a success of its last hop and remembered. -/
def Sendable (a : Agent) (nb : Bool) (name : String) (sendKey sendIv : Bytes) (f : Frame) : Prop :=
  aesAccepts sendKey sendIv = true ∧
    (nb = true → (a.globalNeighborList.lookup name).isSome = true) ∧
    (∃ host key, f.host = some host ∧ host.dictKey = .ok key) ∧ f.id.isSome = true

/-- Nothing that the forwarder does next raises an exception. -/
def Lives (p : Platform) (me : Identity) (out : Outside) (s : Sys) : Prop :=
  match s.forwarder with
  | .idle => ∀ arrival ∈ s.arrived[s.log.length]?, Filterable p me s.cache arrival.frame
  | .await f [] => Printable f
  | .decode f nb => Decodable p me s.agent nb f
  | .again f name entry => ∃ plain ok, attempt p entry.encryptionKey entry.encryptionIV
      (verificationKey me name entry) f = .ok (plain, ok) ∧
        (ok = false → Countable out s.agent name)
  | .scan name => Searchable out s.agent name
  | .send f nb d sendKey sendIv => Sendable s.agent nb d.lasthop sendKey sendIv f
  | _ => True

theorem filterFrame_raised_iff :
    (∀ e, filterFrame p me cache f ≠ .error (.raised e)) ↔ Filterable p me cache f := by
  unfold filterFrame Filterable
  cases httl : (field f.ttl).bind Json.toInt with
  | error e => simp
  | ok ttl =>
    dsimp only
    by_cases hup : ttl - 1 ≤ 0
    · simp only [hup, if_true]
      refine iff_of_true (by simp) ⟨ttl, rfl, ?_⟩
      intro hlt
      omega
    · simp only [hup, if_false, Except.ok.injEq, exists_eq_left']
      have hlt : 1 < ttl := by omega
      simp only [hlt, true_implies]
      cases hseen : seen p cache f with
      | error e => simp
      | ok old =>
        cases old with
        | true => simp
        | false =>
          cases haddr : addressed me f with
          | error e => simp
          | ok mine =>
            cases mine with
            | true => simp
            | false => simp

theorem mark_ok_iff (me : Identity) (a : Agent) : (∃ r, mark me f a = .ok r) ↔ Printable f := by
  unfold mark Printable
  cases hlast : f.lasthop with
  | none => simp [field, bind, Except.bind]
  | some lasthop =>
    cases hprint : lasthop.printable with
    | error e => simp [field, bind, Except.bind, hprint]
    | ok u =>
      cases hhost : f.host with
      | none => simp [field, bind, Except.bind, hprint]
      | some host =>
        cases hprint' : host.printable with
        | error e => simp [field, bind, Except.bind, hprint, hprint']
        | ok u' =>
          simp only [field, bind, Except.bind, hprint, hprint', pure, Except.pure]
          refine iff_of_true ?_ ⟨lasthop, host, rfl, hprint, rfl, hprint'⟩
          split
          · exact ⟨_, rfl⟩
          · exact ⟨_, rfl⟩

theorem firstDecode_raised_iff :
    (∀ e b, firstDecode p me a nb f ≠ .stop b (.raised e)) ↔ Decodable p me a nb f := by
  unfold firstDecode Decodable
  rcases lasthopEntry f a.globalNeighborList with e | _ | ⟨name, entry⟩
  · simp
  · simp
  · dsimp only
    rcases attempt p entry.encryptionKey entry.encryptionIV (verificationKey me name entry) f with
      e | ⟨plain, ok⟩
    · simp
    · cases ok with
      | true => simp
      | false =>
        cases nb with
        | false => simp
        | true =>
          rcases attemptOld p (verificationKey me name entry) entry f with e | ⟨old, ok⟩
          · simp
          · cases ok with
            | true => simp
            | false => simp

theorem countLoss_raised_iff :
    (∀ e b, countLoss out a name ≠ .stop b (.raised e)) ↔ Countable out a name := by
  unfold countLoss Countable
  cases hlook : a.globalNeighborList.lookup name with
  | none => simp
  | some entry =>
    simp only [Option.some.injEq, exists_eq_left']
    by_cases hfive : entry.lostMessages + 1 ≥ 5
    · simp only [hfive, if_true, true_implies]
      by_cases hfreq : entry.freq = 0
      · have hsome : ((Agent.putNeighbor a name { entry with
            lostMessages := 0, rxStatsLost := entry.rxStatsLost + 1 }).globalNeighborList.lookup
              name).isSome = true := by
          rw [lookup_putNeighbor]
          rfl
        have hleft := onAPLeft_ok_iff out (Agent.putNeighbor a name { entry with
          lostMessages := 0, rxStatsLost := entry.rxStatsLost + 1 }) name hsome
        have hsame : Removable out (Agent.putNeighbor a name { entry with
            lostMessages := 0, rxStatsLost := entry.rxStatsLost + 1 }) name ↔
              Removable out a name := Iff.rfl
        simp only [hfreq, ne_eq, not_true_eq_false, if_false, true_implies]
        rw [← hsame, ← hleft, hfreq]
        rcases onAPLeft out _ name with ⟨b, e | u⟩
        · simp
        · simp
      · simp [hfreq]
    · simp [hfive]

theorem rescanStep_raised_iff (me : Identity) :
    (∀ e, (rescanStep out me a name).2 ≠ .raised e) ↔ Searchable out a name := by
  unfold rescanStep Searchable
  cases hlook : a.globalNeighborList.lookup name with
  | none => simp
  | some entry =>
    simp only [Option.some.injEq, exists_eq_left']
    rw [← rescan_neighbor_ok_iff out me entry.freq entry.ssid hlook]
    rcases rescan_neighbor out me a entry.freq entry.ssid name 10 with ⟨b, e | found⟩
    · simp
    · simp

theorem remember_ok_iff (cache : FwdCache) : (∃ cache', remember cache f = .ok cache') ↔
    (∃ host key, f.host = some host ∧ host.dictKey = .ok key) ∧ f.id.isSome = true := by
  unfold remember
  cases hhost : f.host with
  | none => simp [field, bind, Except.bind]
  | some host =>
    cases hkey : host.dictKey with
    | error e => simp [field, bind, Except.bind, hkey]
    | ok key =>
      cases hid : f.id with
      | none => simp [field, bind, Except.bind, hkey]
      | some id => simp [field, bind, Except.bind, hkey, pure, Except.pure]

theorem sendOn_raised_iff (d : Decoded) {sendKey sendIv : Bytes} :
    (∀ e, (sendOn p me a cache nb d sendKey sendIv f).stop ≠ some (.raised e)) ↔
      Sendable a nb d.lasthop sendKey sendIv f := by
  unfold sendOn Sendable
  by_cases haes : aesAccepts sendKey sendIv = true
  · have hcount : (∃ b, (if nb then countSuccess a d.lasthop else .ok a) = .ok b) ↔
        (nb = true → (a.globalNeighborList.lookup d.lasthop).isSome = true) := by
      cases nb with
      | false => simp
      | true =>
        unfold countSuccess
        cases a.globalNeighborList.lookup d.lasthop with
        | none => simp
        | some entry => simp
    rw [← remember_ok_iff cache, ← hcount]
    simp only [haes, if_true, true_and]
    cases (if nb then countSuccess a d.lasthop else .ok a) with
    | error e => simp
    | ok b =>
      cases remember cache f with
      | error e => simp
      | ok cache' => simp
  · simp [haes]

theorem finish_closed_iff (r : Sys) (stop : Option Stop) :
    (r.finish stop).forwarder ≠ .closed ↔ ∀ e, stop ≠ some (.raised e) := by
  unfold Sys.finish
  dsimp only
  split
  · simp
  · rename_i hnot
    exact iff_of_true (by simp) hnot

/-- The forwarder lives on over a step exactly where nothing raises. -/
theorem lives_iff (h : Forwarded p me out s s') : s'.forwarder ≠ .closed ↔ Lives p me out s := by
  unfold Lives
  cases h with
  | drop hstage hnext hfilter =>
    rw [finish_closed_iff, hstage]
    simp [hnext, ← filterFrame_raised_iff, hfilter]
  | take hstage hnext hfilter =>
    rw [hstage]
    simp [hnext, ← filterFrame_raised_iff, hfilter]
  | markRaises hstage hmark =>
    rw [finish_closed_iff, hstage]
    simp [← mark_ok_iff me s.agent, hmark]
  | marked hstage hmark =>
    rw [hstage]
    simp [← mark_ok_iff me s.agent, hmark]
  | decodeStops hstage hfirst =>
    rw [finish_closed_iff, hstage]
    dsimp only
    rw [← firstDecode_raised_iff, hfirst]
    simp
  | decoded hstage hfirst
  | retries hstage hfirst =>
    rw [hstage]
    simp [← firstDecode_raised_iff, hfirst]
  | againRaises hstage hthird =>
    rw [finish_closed_iff, hstage]
    simp [hthird]
  | againDecoded hstage hthird =>
    rw [hstage]
    simp [hthird]
  | lost hstage hloss hthird =>
    rw [finish_closed_iff, hstage]
    simp [hthird, ← countLoss_raised_iff, hloss]
  | rescans hstage hloss hthird =>
    rw [hstage]
    simp [hthird, ← countLoss_raised_iff, hloss]
  | scanned hstage =>
    rw [finish_closed_iff, hstage]
    simp [← rescanStep_raised_iff me]
  | sent hstage =>
    rw [finish_closed_iff, hstage]
    exact sendOn_raised_iff _
  | wait hstage
  | retryWait hstage
  | retried hstage
  | rescanWait hstage
  | rescanned hstage
  | readKeys hstage =>
    rw [hstage]
    simp

end Nxwlan.ForwarderLife
