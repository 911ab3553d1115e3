import Nxwlan.AgentThreads

/-!
A channel switch of the agent. `ChannelSwitchGuardThread.run` polls the clock until the last
key change is further back than the guard and the next one further ahead, then lets the
connector switch and the agent take over the result. The time of the last key change is
read once, before the first poll.
-/
namespace Nxwlan.ChannelSwitch

open PyText AgentState AgentThreads

inductive SwitchError where
  | unsupportedChannel (channel : ℤ)
  | keyError
  | indexError
  | unknownFrequency (freq : ℤ)
  deriving DecidableEq

/-- The assignments of `initializeChannelToFrequencyArray`, in their order. -/
def channelFrequencies : List (ℕ × ℤ) :=
  [(36, 5180), (38, 5190), (40, 5200), (42, 5210), (44, 5220), (46, 5230), (48, 5240), (52, 5260),
    (54, 5270), (56, 5280), (58, 5290), (60, 5300), (62, 5310), (64, 5320), (100, 5500),
    (102, 5510), (104, 5520), (106, 5530), (108, 5540), (110, 5550), (112, 5560), (114, 5570),
    (116, 5580), (118, 5590), (120, 5600), (122, 5610), (124, 5620), (126, 5630), (128, 5640),
    (132, 5660), (134, 5670), (136, 5680), (138, 5690), (140, 5700), (142, 5710), (144, 5720),
    (149, 5745), (151, 5755), (153, 5765), (155, 5775), (157, 5785), (159, 5795), (161, 5805),
    (165, 5825), (183, 4915), (184, 4920), (185, 4925), (187, 4935), (188, 4940), (189, 4945),
    (192, 4960), (196, 4980), (1, 2412), (2, 2417), (3, 2422), (4, 2427), (5, 2432), (6, 2437),
    (7, 2442), (8, 2447), (9, 2452), (10, 2457), (11, 2462), (12, 2467), (13, 2472), (14, 2484)]

def ch_to_freq : List ℤ :=
  channelFrequencies.foldl (fun freqs entry => freqs.set entry.1 entry.2) (List.replicate 200 0)

/-- Negative channels count from the end of the array; behind it the frequency is 0. -/
def translateChannelToFrequency (channel : ℤ) : ℤ :=
  let index := if channel < 0 then channel + ch_to_freq.length else channel
  if index < 0 then 0 else ch_to_freq.getD index.toNat 0

def translateFrequencyToChannel (freq : ℤ) : Except SwitchError ℤ :=
  match ch_to_freq.idxOf? freq with
  | some ch => .ok ch
  | none => .error (.unknownFrequency freq)

structure Radio where
  channel : ℤ
  freq : ℤ
  deriving DecidableEq

/-- What a channel switch reads and writes: the agent's radio and that of its connector. -/
structure Switching where
  hostname : String
  globalNeighborList : NeighborList
  gates : Gates
  radio : Radio
  connector : Radio

/-- `ret.split('\n')[1]` of the output of hostapd_cli. -/
def replyOf (printed : Text) : Option Text := (printed.splitOn '\n')[1]?

/-- `LinuxConnector.setChannel`. -/
def connectorSetChannel (printed : Text) (freq : ℤ) (s : Switching) :
    Except SwitchError (Text × Switching) :=
  match replyOf printed with
  | none => .error .indexError
  | some ret =>
    if ret = "OK".toList then
      match translateFrequencyToChannel freq with
      | .error e => .error e
      | .ok channel => .ok (ret, { s with connector := ⟨channel, freq⟩ })
    else .ok (ret, s)

def setChannelFinished (ret : Text) (new old : Radio) (s : Switching) : Switching :=
  if ret = "OK".toList then { s with radio := new } else { s with radio := old }

/-- The two times that a poll reads, in whole seconds, on a clock that never goes back and
advances by at most one second from poll to poll. -/
structure PollClock where
  first : ℕ → ℤ
  second : ℕ → ℤ
  first_le : ∀ n, first n ≤ second n
  second_le : ∀ n, second n ≤ first (n + 1)
  advance : ∀ n, first (n + 1) ≤ first n + 1

/-- The test of a poll. -/
def PollClock.inWindow (clock : PollClock) (lastKCM guard kcmInter : ℤ) (n : ℕ) : Prop :=
  clock.first n - lastKCM > guard ∧ clock.second n - lastKCM < kcmInter - guard

instance (clock : PollClock) (lastKCM guard kcmInter : ℤ) (n : ℕ) :
    Decidable (clock.inWindow lastKCM guard kcmInter n) := inferInstanceAs (Decidable (_ ∧ _))

/-- The loop of the guard from poll `n` on, for at most `polls` more; `none` while it has not
returned. -/
def guardRun {S : Type} (clock : PollClock) (lastKCM guard kcmInter : ℤ)
    (callback : S → Except SwitchError (Text × S)) (finisher : Text → S → S) (s : S) :
    ℕ → ℕ → Option (Except SwitchError S)
  | 0, _ => none
  | polls + 1, n =>
      if clock.inWindow lastKCM guard kcmInter n then
        some ((callback s).map (fun ret => finisher ret.1 ret.2))
      else guardRun clock lastKCM guard kcmInter callback finisher s polls (n + 1)

def channelSwitchGuard : ℤ := 2

/-- `ResFiAgent.setChannel`; `none` while it waits for a gate or for the guard. -/
def setChannel (clock : PollClock) (printed : Text) (polls : ℕ) (channel : ℤ) (s : Switching) :
    Option (Except SwitchError Switching) :=
  let freq := translateChannelToFrequency channel
  if freq ≠ 0 then
    if s.gates.processingChangeKeysEvent && s.gates.sendingUserCtrlMessageEvent &&
        s.gates.processingNeighborUpdateEvent then
      match s.globalNeighborList.lookup s.hostname with
      | none => some (.error .keyError)
      | some own =>
        let finisher := fun ret s' => setChannelFinished ret ⟨channel, freq⟩ s.radio s'
        (guardRun clock own.timestampLastKCM channelSwitchGuard keyChangeInterval
          (connectorSetChannel printed freq) finisher s polls 0).map
            (fun result => result.map (fun s' => { s' with radio := ⟨channel, freq⟩ }))
    else none
  else some (.error (.unsupportedChannel channel))

/-! The guard. -/

section Guard

variable {S : Type} {clock : PollClock} {lastKCM guard kcmInter : ℤ}
  {callback : S → Except SwitchError (Text × S)} {finisher : Text → S → S} {s : S}

/-- What the loop returns once a poll falls into the window. -/
theorem guardRun_eq {polls n : ℕ} {result : Except SwitchError S}
    (h : guardRun clock lastKCM guard kcmInter callback finisher s polls n = some result) :
    result = (callback s).map (fun ret => finisher ret.1 ret.2) ∧
      ∃ m, n ≤ m ∧ clock.inWindow lastKCM guard kcmInter m := by
  induction polls generalizing n with
  | zero => cases h
  | succ polls ih =>
    rw [guardRun] at h
    split at h
    · rename_i hwindow
      exact ⟨(Option.some.inj h).symm, n, le_refl n, hwindow⟩
    · obtain ⟨hresult, m, hm, hwindow⟩ := ih h
      exact ⟨hresult, m, by omega, hwindow⟩

theorem guardRun_of_inWindow {n m : ℕ} (hm : n ≤ m)
    (hwindow : clock.inWindow lastKCM guard kcmInter m) :
    ∃ polls, guardRun clock lastKCM guard kcmInter callback finisher s polls n =
      some ((callback s).map (fun ret => finisher ret.1 ret.2)) := by
  induction hm using Nat.decreasingInduction with
  | self => exact ⟨1, by rw [guardRun, if_pos hwindow]⟩
  | of_succ n hn ih =>
    by_cases hnow : clock.inWindow lastKCM guard kcmInter n
    · exact ⟨1, by rw [guardRun, if_pos hnow]⟩
    · obtain ⟨polls, hpolls⟩ := ih
      exact ⟨polls + 1, by rw [guardRun, if_neg hnow, hpolls]⟩

theorem PollClock.second_zero_le (clock : PollClock) (n : ℕ) : clock.second 0 ≤ clock.second n := by
  induction n with
  | zero => exact le_refl _
  | succ n ih => exact ih.trans ((clock.second_le n).trans (clock.first_le (n + 1)))

/-- The clock cannot step over a window of more than two seconds that is still ahead. -/
theorem PollClock.exists_inWindow (hinter : kcmInter > 2 * guard + 2)
    (hlate : ∃ n, clock.first n > lastKCM + guard)
    (hearly : clock.second 0 < lastKCM + kcmInter - guard) :
    ∃ n, clock.inWindow lastKCM guard kcmInter n := by
  classical
  obtain ⟨n, hn, hleast⟩ : ∃ n, clock.first n > lastKCM + guard ∧
      ∀ m < n, ¬ clock.first m > lastKCM + guard :=
    ⟨Nat.find hlate, Nat.find_spec hlate, fun m hm => Nat.find_min hlate hm⟩
  refine ⟨n, by omega, ?_⟩
  cases n with
  | zero => omega
  | succ n =>
    have hbefore := hleast n (Nat.lt_succ_self n)
    have hstep := clock.advance n
    have hnext := clock.advance (n + 1)
    have hsecond := clock.second_le (n + 1)
    omega

end Guard

/-- The guard returns when the clock gets past the guard time of the last key change, and the
guard time of the next one has not begun at the first poll. -/
theorem guard_returns_iff {S : Type} (clock : PollClock) (lastKCM guard kcmInter : ℤ)
    (callback : S → Except SwitchError (Text × S)) (finisher : Text → S → S) (s : S)
    (hinter : kcmInter > 2 * guard + 2) :
    (∃ polls, guardRun clock lastKCM guard kcmInter callback finisher s polls 0 =
      some ((callback s).map (fun ret => finisher ret.1 ret.2))) ↔
    (∃ n, clock.first n > lastKCM + guard) ∧ clock.second 0 < lastKCM + kcmInter - guard := by
  constructor
  · rintro ⟨polls, hpolls⟩
    obtain ⟨-, m, -, hfirst, hsecond⟩ := guardRun_eq hpolls
    have hzero := clock.second_zero_le m
    exact ⟨⟨m, by omega⟩, by omega⟩
  · rintro ⟨hlate, hearly⟩
    obtain ⟨m, hwindow⟩ := PollClock.exists_inWindow hinter hlate hearly
    exact guardRun_of_inWindow (Nat.zero_le m) hwindow

/-- A clock that advances by one second from poll to poll. -/
def tickingClock (start : ℤ) : PollClock where
  first n := start + n
  second n := start + n
  first_le n := le_refl _
  second_le n := by omega
  advance n := by omega

/-- A reply without a radio. -/
def replyOk (s : Unit) : Except SwitchError (Text × Unit) := .ok ("OK".toList, s)

theorem guard_returns_early : ∃ polls, guardRun (tickingClock 0) 0 channelSwitchGuard keyChangeInterval
    replyOk (fun _ s => s) () polls 0 = some (.ok ()) := by
  have hinter : keyChangeInterval > 2 * channelSwitchGuard + 2 := by decide
  refine (guard_returns_iff (tickingClock 0) 0 channelSwitchGuard keyChangeInterval replyOk
    (fun _ s => s) () hinter).mpr ⟨⟨3, ?_⟩, ?_⟩
  · decide
  · decide

/-- Two seconds before the next key change the window has passed, and it does not come back. -/
theorem guard_never_returns : keyChangeInterval > 2 * channelSwitchGuard + 2 ∧
    0 ≤ (tickingClock 5998).first 0 ∧
    ∀ polls, guardRun (tickingClock 5998) 0 channelSwitchGuard keyChangeInterval replyOk
      (fun _ s => s) () polls 0 = none := by
  refine ⟨by decide, by decide, ?_⟩
  intro polls
  rw [Option.eq_none_iff_forall_not_mem]
  intro result hresult
  obtain ⟨-, m, -, -, hsecond⟩ := guardRun_eq hresult
  have hlate : (tickingClock 5998).second m = 5998 + m := rfl
  rw [hlate, channelSwitchGuard, keyChangeInterval] at hsecond
  omega

/-! The radio after a switch. -/

/-- The caller writes the new channel whatever the reply was. -/
theorem setChannel_radio {clock : PollClock} {printed : Text} {polls : ℕ} {channel : ℤ}
    {s after : Switching} (h : setChannel clock printed polls channel s = some (.ok after)) :
    after.radio = ⟨channel, translateChannelToFrequency channel⟩ := by
  unfold setChannel at h
  dsimp only at h
  split at h
  · split at h
    · split at h
      · cases h
      · obtain ⟨result, -, hresult⟩ := Option.map_eq_some_iff.mp h
        cases result with
        | error e => cases hresult
        | ok s' =>
          rw [← Except.ok.inj hresult]
    · cases h
  · cases h

/-- After a switch that returned, the radio follows the reply when the reply is OK, or when the
old channel was asked for. -/
theorem channel_after_switch_iff (clock : PollClock) (printed : Text) (polls : ℕ) (channel : ℤ)
    (s after : Switching) (h : setChannel clock printed polls channel s = some (.ok after)) :
    after.radio = (if replyOf printed = some "OK".toList then
      ⟨channel, translateChannelToFrequency channel⟩ else s.radio) ↔
    replyOf printed = some "OK".toList ∨
      s.radio = ⟨channel, translateChannelToFrequency channel⟩ := by
  rw [setChannel_radio h]
  by_cases hok : replyOf printed = some "OK".toList
  · simp [hok]
  · rw [if_neg hok]
    constructor
    · exact fun hsame => Or.inr hsame.symm
    · exact fun hsame => (hsame.resolve_left hok).symm

/-- An agent on channel 36 whose keys were changed at time 0. -/
def onChannel36 : Switching where
  hostname := "10.0.0.1"
  globalNeighborList := (∅ : NeighborList).insert "10.0.0.1" { timestampLastKCM := 0 }
  gates := {}
  radio := ⟨36, 5180⟩
  connector := ⟨36, 5180⟩

def switchOk : Text := "Selected interface 'ap5'\nOK\n".toList

def switchFailed : Text := "Selected interface 'ap5'\nFAIL\n".toList

theorem channel_after_ok : ({ onChannel36 with radio := ⟨40, 5200⟩, connector := ⟨40, 5200⟩ } :
    Switching).radio = (if replyOf switchOk = some "OK".toList then
      ⟨40, translateChannelToFrequency 40⟩ else onChannel36.radio) := by
  refine (channel_after_switch_iff (tickingClock 10) switchOk 1 40 onChannel36
    { onChannel36 with radio := ⟨40, 5200⟩, connector := ⟨40, 5200⟩ } rfl).mpr (Or.inl ?_)
  decide

/-- The switch fails and the connector stays on channel 36, but the agent does not. -/
theorem channel_after_failure : replyOf switchFailed = some "FAIL".toList ∧
    setChannel (tickingClock 10) switchFailed 1 40 onChannel36 =
      some (.ok { onChannel36 with radio := ⟨40, 5200⟩ }) ∧ onChannel36.radio ≠ ⟨40, 5200⟩ :=
  ⟨by decide, rfl, by decide⟩

end Nxwlan.ChannelSwitch
