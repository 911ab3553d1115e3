import Nxwlan.ReceiveLoop
import Nxwlan.PublishedFrames
import Nxwlan.ParsedScans

/-!
What a key change message does to the neighbor table. The membership test is
made for the originator of the frame, the update and the rescan for the address
in the text. Whatever happens, only the entry of that address can change; when
it is not the originator's, it almost always does.
-/
namespace Nxwlan.KeyChanges

open JsonFrames AgentState Forwarder Messaging PyText Rescans ReceiveLoop
open Base64 (Bytes)
open ProbeRequests (Ended)

variable {p : Platform} {world : World} {me : Identity} {a a₁ : Agent} {f : Frame} {text : Text}
  {host ip ssid : String} {freq : ℤ} {e : Neighbor}

theorem entryAt_str (name : String) (list : NeighborList) :
    entryAt (some (.str name)) list =
      .ok ((list.lookup name).map (fun entry => (name, entry))) := rfl

/-- A message that cannot be taken apart, or whose originator is not known, leaves
the table alone. -/
theorem handleKcm_idle (hhost : f.host = some (.str host))
    (h : (∃ err, parseKcm text = .error err) ∨ a.globalNeighborList.lookup host = none) :
    (handleKcm world me a f text).agent.globalNeighborList = a.globalNeighborList := by
  unfold handleKcm
  cases hparse : parseKcm text with
  | error err => rfl
  | ok parts =>
    obtain ⟨freq, ssid, ip⟩ := parts
    have hnone : a.globalNeighborList.lookup host = none := by
      rcases h with ⟨err, herr⟩ | hnone
      · rw [hparse] at herr
        cases herr
      · exact hnone
    simp [hhost, entryAt_str, Agent.setNeighborUpdate, hnone]

/-- An address that is not in the table ends the thread, with the table as it was. -/
theorem handleKcm_unknown (world : World) (me : Identity)
    (hparse : parseKcm text = .ok (freq, ssid, ip))
    (hhost : f.host = some (.str host)) (hsome : (a.globalNeighborList.lookup host).isSome = true)
    (hip : a.globalNeighborList.lookup ip = none) :
    (handleKcm world me a f text).agent.globalNeighborList = a.globalNeighborList ∧
      ∃ err, (handleKcm world me a f text).ended = .raised err := by
  obtain ⟨e, he⟩ := Option.isSome_iff_exists.mp hsome
  have hentry : entryAt f.host (Agent.setNeighborUpdate a false).globalNeighborList =
      .ok (some (host, e)) := by
    simp [hhost, entryAt_str, Agent.setNeighborUpdate, he]
  have hlook : (Agent.setNeighborUpdate a false).globalNeighborList.lookup
      (kcmEntry world.now freq ssid ip).ipAddress = none := hip
  simp only [handleKcm, hparse, hentry, parse_existing_neighbor, hlook]
  by_cases hcarries : (kcmEntry world.now freq ssid ip).carriesUpdate
  · simp [hcarries, Agent.setNeighborUpdate]
  · obtain ⟨⟨err, herr⟩, htable⟩ := rescan_neighbor_unknown world.outside me
      (Agent.setNeighborUpdate a false) freq ssid ip hip
    have hstart : { Agent.setNeighborUpdate a false with
        globalNeighborList := (Agent.setNeighborUpdate a false).globalNeighborList } =
        Agent.setNeighborUpdate a false := rfl
    simp only [hcarries, Bool.false_eq_true, if_false, hstart]
    rcases hrun : rescan_neighbor world.outside me (Agent.setNeighborUpdate a false) freq ssid ip 10
      with ⟨b, r⟩
    rw [hrun] at herr htable
    obtain rfl : r = .error err := herr
    exact ⟨htable, err, rfl⟩

/-- The agent that the rescan of a known address starts from. -/
def kcmUpdated (world : World) (a : Agent) (freq : ℤ) (ssid ip : String) (e : Neighbor) : Agent :=
  Agent.putNeighbor (Agent.setNeighborUpdate a false) ip
    (e.update (kcmEntry world.now freq ssid ip))

/-- The address is in the table: its entry is updated and rescanned. -/
theorem handleKcm_known (hparse : parseKcm text = .ok (freq, ssid, ip))
    (hhost : f.host = some (.str host)) (hsome : (a.globalNeighborList.lookup host).isSome = true)
    (hip : a.globalNeighborList.lookup ip = some e) :
    (handleKcm world me a f text).agent.globalNeighborList =
        (rescan_neighbor world.outside me (kcmUpdated world a freq ssid ip e) freq ssid ip
          10).1.globalNeighborList ∧
      ((handleKcm world me a f text).ended = .returned ↔
        ∃ b, (rescan_neighbor world.outside me (kcmUpdated world a freq ssid ip e) freq ssid ip
          10).2 = .ok b) ∧
      ((handleKcm world me a f text).ended = .returned →
        (handleKcm world me a f text).agent.gates.processingNeighborUpdateEvent = true) := by
  obtain ⟨e', he'⟩ := Option.isSome_iff_exists.mp hsome
  have hentry : entryAt f.host (Agent.setNeighborUpdate a false).globalNeighborList =
      .ok (some (host, e')) := by
    simp [hhost, entryAt_str, Agent.setNeighborUpdate, he']
  have hlook : (Agent.setNeighborUpdate a false).globalNeighborList.lookup
      (kcmEntry world.now freq ssid ip).ipAddress = some e := hip
  have hstart : { Agent.setNeighborUpdate a false with
      globalNeighborList := (Agent.setNeighborUpdate a false).globalNeighborList.insert
        (kcmEntry world.now freq ssid ip).ipAddress
        (e.update (kcmEntry world.now freq ssid ip)) } = kcmUpdated world a freq ssid ip e := rfl
  simp only [handleKcm, hparse, hentry, parse_existing_neighbor, hlook, hstart]
  rcases hrun : rescan_neighbor world.outside me (kcmUpdated world a freq ssid ip e) freq ssid ip 10
    with ⟨b, r⟩
  cases r with
  | error err => simp
  | ok r => simp [Agent.setNeighborUpdate]

/-- Only the entry of the address in the text can change. -/
theorem handleKcm_others (hhost : f.host = some (.str host))
    (hparse : parseKcm text = .ok (freq, ssid, ip)) {n : String} (hn : n ≠ ip) :
    (handleKcm world me a f text).agent.globalNeighborList.lookup n =
      a.globalNeighborList.lookup n := by
  cases hsome : a.globalNeighborList.lookup host with
  | none => rw [handleKcm_idle hhost (Or.inr hsome)]
  | some e' =>
    have hknown : (a.globalNeighborList.lookup host).isSome = true := by rw [hsome]; rfl
    cases hip : a.globalNeighborList.lookup ip with
    | none => rw [(handleKcm_unknown world me hparse hhost hknown hip).1]
    | some e =>
      rw [(handleKcm_known hparse hhost hknown hip).1, rescan_neighbor_others _ _ _ _ _ _ _ _ hn]
      · exact (EntryOnly.putNeighbor ip (Agent.setNeighborUpdate a false) _).others n hn
      · rw [kcmUpdated, lookup_putNeighbor]
        rfl

/-- Two neighbors; the one that sends is "10.0.0.2". -/
def twoNeighbors : Agent :=
  { PublishedFrames.sampleAgent with
    globalNeighborList := PublishedFrames.sampleAgent.globalNeighborList.insert "10.0.0.3"
      { ipAddress := "10.0.0.3", encryptionKey := PublishedFrames.sampleKey,
        encryptionIV := PublishedFrames.sampleKey, freq := 2412, timestampLastKCM := 0 }
    frontend := [("10.0.0.2", .fwd), ("10.0.0.3", .fwd)] }

def quietReceive : World where
  now := 0
  kcmWait := some
  sendWait := some
  loads _ := none
  freshKeys := (PublishedFrames.sampleKey, PublishedFrames.sampleKey)
  rx_cb _ _ := true
  outside := PublishedFrames.quietOutside

/-- A key change message of "10.0.0.2" with the text `text`, as the forwarder hands
it on. -/
def kcmFrame (text : String) : Frame :=
  { initialFrame listPlatform PublishedFrames.sampleIdentity "10.0.0.1" PublishedFrames.sampleKey
      PublishedFrames.sampleKey 1 1 "ctrl" "kcm" broadcast (asciiBytes text.toList) with
    host := some (.str "10.0.0.2") }

end Nxwlan.KeyChanges
