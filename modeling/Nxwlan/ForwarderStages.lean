import Nxwlan.PublishedFrames

/-!
The pass of the forwarder cut at its waits and at its reading of the agent's
key. Each piece is one step of the thread; put together again with the waits in
between, the pieces are the pass of `initForwardingTTL`.
-/
namespace Nxwlan.ForwarderStages

open JsonFrames AgentState Forwarder
open Base64 (Bytes)

variable {p : Platform} {me : Identity} {w : Waits} {a : Agent} {cache : FwdCache}

/-- What the decryptions in front of the second wait lead to. -/
inductive First where
  | stop (a : Agent) (s : Stop)
  | decoded (d : Decoded)
  | retry (name : String) (entry : Neighbor)

def firstDecode (p : Platform) (me : Identity) (a : Agent) (isNeighborMessage : Bool)
    (f : Frame) : First :=
  match lasthopEntry f a.globalNeighborList with
  | .error e => .stop a (.raised e)
  | .ok none => .stop a .unknownLasthop
  | .ok (some (name, entry)) =>
      match attempt p entry.encryptionKey entry.encryptionIV (verificationKey me name entry) f with
      | .error e => .stop a (.raised e)
      | .ok (plain, true) => .decoded ⟨name, entry.encryptionKey, entry.encryptionIV, plain⟩
      | .ok (_, false) =>
          if isNeighborMessage then
            match attemptOld p (verificationKey me name entry) entry f with
            | .error e => .stop a (.raised e)
            | .ok (plain, true) =>
                .decoded ⟨name, entry.encryptionKey, entry.encryptionIV, plain⟩
            | .ok (_, false) => .retry name entry
          else .stop (Agent.releaseSenders a) .ownUndecodable

theorem decodeStage_eq (nb : Bool) (f : Frame) :
    decodeStage p me w a nb f =
      match firstDecode p me a nb f with
      | .stop a s => (a, .error s)
      | .decoded d => (a, .ok d)
      | .retry name entry => retryStage p me w a f name entry := by
  unfold decodeStage firstDecode
  rcases lasthopEntry f a.globalNeighborList with e | _ | ⟨name, entry⟩
  · rfl
  · rfl
  · dsimp only
    rcases attempt p entry.encryptionKey entry.encryptionIV (verificationKey me name entry) f with
      e | ⟨plain, ok⟩
    · rfl
    · cases ok with
      | true => rfl
      | false =>
        cases nb with
        | false => rfl
        | true =>
          simp only [if_true]
          rcases attemptOld p (verificationKey me name entry) entry f with e | ⟨old, ok⟩
          · rfl
          · cases ok with
            | true => rfl
            | false => rfl

/-- What a third failed decryption leads to: the pass ends, or a rescan follows. -/
inductive Loss where
  | stop (a : Agent) (s : Stop)
  | rescan (a : Agent)

def countLoss (out : Outside) (a : Agent) (name : String) : Loss :=
  match a.globalNeighborList.lookup name with
  | none => .stop a (.raised .keyError)
  | some entry =>
      if entry.lostMessages + 1 ≥ 5 then
        let entry := { entry with lostMessages := 0, rxStatsLost := entry.rxStatsLost + 1 }
        let a := Agent.putNeighbor a name entry
        if entry.freq ≠ 0 then .rescan a
        else
          match onAPLeft out a name with
          | (a, .error e) => .stop a (.raised e)
          | (a, .ok ()) => .stop (Agent.setNeighborMessage a true) .removed
      else
        let entry := { entry with
          lostMessages := entry.lostMessages + 1, rxStatsLost := entry.rxStatsLost + 1 }
        .stop (Agent.setNeighborMessage (Agent.putNeighbor a name entry) true) .lost

theorem loseMessage_eq (name : String) :
    loseMessage me w a name =
      match countLoss w.outside a name with
      | .stop a s => (a, s)
      | .rescan a => rescanLasthop me w a name := by
  unfold loseMessage countLoss
  cases a.globalNeighborList.lookup name with
  | none => rfl
  | some entry =>
    dsimp only
    split
    · split
      · rfl
      · generalize hleft : onAPLeft w.outside _ name = left
        obtain ⟨b, r⟩ := left
        cases r with
        | error e => rfl
        | ok u => rfl
    · rfl

/-- The rescan itself, once the neighbor update event is cleared. -/
def rescanStep (out : Outside) (me : Identity) (a : Agent) (name : String) : Agent × Stop :=
  match a.globalNeighborList.lookup name with
  | none => (a, .raised .keyError)
  | some entry =>
      match rescan_neighbor out me a entry.freq entry.ssid name 10 with
      | (a, .error e) => (a, .raised e)
      | (a, .ok _) => (Agent.setNeighborUpdate a true, .rescanned)

theorem rescanLasthop_eq (name : String) :
    rescanLasthop me w a name =
      match w.rescan (Agent.setNeighborMessage a true) with
      | none => (Agent.setNeighborMessage a true, .blocked)
      | some a => rescanStep w.outside me (Agent.setNeighborUpdate a false) name := rfl

/-- Key and vector that a decoded frame is sent on with. -/
def publicationKeys (a : Agent) (d : Decoded) : Bytes × Bytes :=
  if d.lasthop = "old_keys" then (d.key, d.iv) else (a.key, a.iv)

/-- The rest of the pass once these have been read. -/
def sendOn (p : Platform) (me : Identity) (a : Agent) (cache : FwdCache)
    (isNeighborMessage : Bool) (d : Decoded) (sendKey sendIv : Bytes) (f : Frame) : Outcome :=
  if aesAccepts sendKey sendIv then
    match (if isNeighborMessage then countSuccess a d.lasthop else .ok a) with
    | .error e => { agent := a, cache := cache, stop := some (.raised e) }
    | .ok a =>
        let g := republished p me sendKey sendIv d.plain f
        match remember cache f with
        | .error e =>
            { agent := a, cache := cache, published := some g, stop := some (.raised e) }
        | .ok cache =>
            { agent := if isNeighborMessage then a else Agent.releaseSenders a
              cache := cache, published := some g }
  else { agent := a, cache := cache, stop := some (.raised .valueError) }

theorem publish_eq (nb : Bool) (d : Decoded) (f : Frame) :
    publish p me a cache nb d f =
      sendOn p me a cache nb d (publicationKeys a d).1 (publicationKeys a d).2 f := by
  have hkey : (publicationKeys a d).1 = if d.lasthop = "old_keys" then d.key else a.key := by
    unfold publicationKeys
    split
    · rfl
    · rfl
  have hiv : (publicationKeys a d).2 = if d.lasthop = "old_keys" then d.iv else a.iv := by
    unfold publicationKeys
    split
    · rfl
    · rfl
  rw [hkey, hiv]
  rfl

/-- The third decryption and what follows it. -/
def againStage (p : Platform) (me : Identity) (w : Waits) (a : Agent) (f : Frame) (name : String)
    (entry : Neighbor) : Agent × Except Stop Decoded :=
  match attempt p entry.encryptionKey entry.encryptionIV (verificationKey me name entry) f with
  | .error e => (a, .error (.raised e))
  | .ok (plain, true) => (a, .ok ⟨name, entry.encryptionKey, entry.encryptionIV, plain⟩)
  | .ok (_, false) =>
      match countLoss w.outside a name with
      | .stop a s => (a, .error s)
      | .rescan a =>
          match w.rescan (Agent.setNeighborMessage a true) with
          | none => (Agent.setNeighborMessage a true, .error .blocked)
          | some a =>
              let rescan := rescanStep w.outside me (Agent.setNeighborUpdate a false) name
              (rescan.1, .error rescan.2)

/-- The pass of `initForwardingTTL` is its pieces with the waits in between. -/
theorem initForwardingTTL_eq (f : Frame) :
    initForwardingTTL p me w a cache f =
      match filterFrame p me cache f with
      | .error s => { agent := a, cache := cache, stop := some s }
      | .ok f =>
          match w.gate a with
          | none => { agent := a, cache := cache, stop := some .blocked }
          | some a =>
              match mark me f a with
              | .error e => { agent := a, cache := cache, stop := some (.raised e) }
              | .ok (nb, a) =>
                  match (match firstDecode p me a nb f with
                    | .stop a s => (a, .error s)
                    | .decoded d => (a, .ok d)
                    | .retry name entry =>
                        match w.retry (Agent.setNeighborMessage a true) with
                        | none => (Agent.setNeighborMessage a true, .error .blocked)
                        | some a =>
                            againStage p me w (Agent.setNeighborMessage a false) f name entry :
                      Agent × Except Stop Decoded) with
                  | (a, .error s) => { agent := a, cache := cache, stop := some s }
                  | (a, .ok d) =>
                      sendOn p me a cache nb d (publicationKeys a d).1 (publicationKeys a d).2 f := by
  have hretry : ∀ (a : Agent) (f : Frame) (name : String) (entry : Neighbor),
      retryStage p me w a f name entry =
        match w.retry (Agent.setNeighborMessage a true) with
        | none => (Agent.setNeighborMessage a true, .error .blocked)
        | some a => againStage p me w (Agent.setNeighborMessage a false) f name entry := by
    intro a f name entry
    unfold retryStage
    cases w.retry (Agent.setNeighborMessage a true) with
    | none => rfl
    | some b =>
      simp only [againStage, loseMessage_eq, rescanLasthop_eq]
      rcases attempt p entry.encryptionKey entry.encryptionIV (verificationKey me name entry) f with
        e | ⟨plain, ok⟩
      · rfl
      · cases ok with
        | true => rfl
        | false =>
          dsimp only
          cases countLoss w.outside (Agent.setNeighborMessage b false) name with
          | stop c s => rfl
          | rescan c =>
            dsimp only
            cases w.rescan (Agent.setNeighborMessage c true) with
            | none => rfl
            | some c => rfl
  unfold initForwardingTTL
  cases filterFrame p me cache f with
  | error s => rfl
  | ok f =>
    dsimp only
    cases w.gate a with
    | none => rfl
    | some a =>
      dsimp only
      rcases mark me f a with e | ⟨nb, a⟩
      · rfl
      · dsimp only
        rw [decodeStage_eq]
        cases firstDecode p me a nb f with
        | stop a s => rfl
        | decoded d => exact publish_eq nb d f
        | retry name entry =>
          dsimp only
          rw [hretry]
          cases w.retry (Agent.setNeighborMessage a true) with
          | none => rfl
          | some a =>
            dsimp only
            rcases againStage p me w (Agent.setNeighborMessage a false) f name entry with
              ⟨b, s | d⟩
            · rfl
            · exact publish_eq nb d f

end Nxwlan.ForwarderStages
