import Nxwlan.ForwarderRuns
import Nxwlan.ParsedScans

/-!
When the forwarder survives a run of well-formed frames while the other threads
add, change and remove neighbors at its waits. The last hop is looked up once
before the decryptions; only a frame that none of them verifies leads to further
lookups, after waits in which the entry may have gone. A log line in front of them
prints the names of the frame, and raises for one with letters beyond ASCII.
-/
namespace Nxwlan.ForwarderSurvival

open JsonFrames AgentState Forwarder Messaging PublishedFrames ForwarderRuns Rescans SoundTables
open ParsedScans (silentAir silentOutside parse_complete)
open Base64 (Bytes)

variable {p : Platform} {me : Identity} {w : Waits} {a a₁ a₂ : Agent} {cache : FwdCache}
  {f : Frame} {name : String} {e : Neighbor}

def Ascii (s : String) : Prop := s.toList.all (fun c => c.toNat < 128) = true

/-- All fields that the forwarder reads are there and well typed, and the message is
base64. A neighbor puts its own name in as the last hop. -/
structure WellFormed (me : Identity) (f : Frame) : Prop where
  host : ∃ h, f.host = some (.str h)
  lasthop : ∃ l, f.lasthop = some (.str l) ∧ l ≠ "Error" ∧
    (f.host ≠ some (.str me.hostname) → l ≠ me.hostname ∧ l ≠ "old_keys")
  id : ∃ i, f.id = some (.int i)
  receiver : ∃ r, f.receiver = some (.str r)
  ttl : ∃ t, f.ttl = some (.int t)
  msg : ∃ b, encodedMsg f = .ok b
  sig : ∃ s, f.sig = some s

/-- The filters drop a well-formed frame or let it through, and never raise. -/
theorem filterFrame_wellFormed (hf : WellFormed me f) (cache : FwdCache) :
    (∃ s, filterFrame p me cache f = .error s ∧ Stop.isFinal s = false) ∨
      ∃ t, filterFrame p me cache f = .ok { f with ttl := some (.int (t - 1)) } := by
  obtain ⟨t, ht⟩ := hf.ttl
  obtain ⟨h, hh⟩ := hf.host
  obtain ⟨i, hi⟩ := hf.id
  obtain ⟨r, hr⟩ := hf.receiver
  have hseen : ∃ b, seen p cache f = .ok b := by
    unfold seen
    simp only [hh, field, Except.bind, Json.dictKey]
    cases cache.lookup (.str h) with
    | none => exact ⟨false, rfl⟩
    | some last => exact ⟨_, by rw [hi]; rfl⟩
  have haddr : ∃ b, addressed me f = .ok b := by
    unfold addressed
    simp only [hh, hr, field]
    split
    · exact ⟨true, rfl⟩
    · exact ⟨_, rfl⟩
  obtain ⟨b, hb⟩ := hseen
  obtain ⟨c, hc⟩ := haddr
  unfold filterFrame
  simp only [ht, field, Except.bind, Json.toInt, hb, hc]
  by_cases hpos : t - 1 ≤ 0
  · exact Or.inl ⟨.expired, by simp [hpos], rfl⟩
  · simp only [hpos, if_false]
    cases b with
    | true => exact Or.inl ⟨.duplicate, rfl, rfl⟩
    | false =>
      cases c with
      | false => exact Or.inl ⟨.notForMe, rfl, rfl⟩
      | true => exact Or.inr ⟨t, rfl⟩

theorem WellFormed.withTtl (hf : WellFormed me f) (t : ℤ) :
    WellFormed me { f with ttl := some (.int t) } :=
  ⟨hf.host, hf.lasthop, hf.id, hf.receiver, ⟨t, rfl⟩, hf.msg, hf.sig⟩

/-- The agent while it handles a frame: a neighbor's clears the event. -/
def marked (me : Identity) (f : Frame) (a : Agent) : Agent :=
  if foreign me f then Agent.setNeighborMessage a false else a

/-- The names that the log line in front of the decryptions prints are ASCII. -/
def Printable (f : Frame) : Prop :=
  ∀ name, f.host = some (.str name) ∨ f.lasthop = some (.str name) → Ascii name

theorem mark_wellFormed (hf : WellFormed me f) (hprint : Printable f) (a : Agent) :
    mark me f a = .ok (foreign me f, marked me f a) := by
  obtain ⟨h, hh⟩ := hf.host
  obtain ⟨l, hl, -⟩ := hf.lasthop
  have hascii : Ascii h := hprint h (Or.inl hh)
  have hlascii : Ascii l := hprint l (Or.inr hl)
  unfold Ascii at hascii hlascii
  unfold mark marked foreign
  simp only [hl, hh, field, bind, Except.bind, pure, Except.pure, Json.printable, hascii, hlascii,
    if_true, Option.any_some]
  cases hown : (Json.str h).isStr me.hostname with
  | true => rfl
  | false => rfl

/-- A name that cannot be printed raises. -/
theorem mark_unprintable (hf : WellFormed me f) (hprint : ¬ Printable f) (a : Agent) :
    ∃ e, mark me f a = .error e := by
  obtain ⟨h, hh⟩ := hf.host
  obtain ⟨l, hl, -⟩ := hf.lasthop
  unfold mark
  simp only [hl, hh, field, bind, Except.bind, Json.printable]
  by_cases hlascii : Ascii l
  · by_cases hascii : Ascii h
    · refine absurd ?_ hprint
      rintro name (hname | hname)
      · rw [hh] at hname
        cases hname
        exact hascii
      · rw [hl] at hname
        cases hname
        exact hlascii
    · unfold Ascii at hlascii hascii
      simp [hlascii, hascii]
  · unfold Ascii at hlascii
    simp [hlascii]

theorem foreign_iff (hf : WellFormed me f) :
    foreign me f = true ↔ f.host ≠ some (.str me.hostname) := by
  obtain ⟨h, hh⟩ := hf.host
  rw [foreign, hh, Option.any_some, Bool.not_eq_true', Bool.eq_false_iff, ne_eq, Json.isStr_iff]
  simp

/-- The key for the signatures of a last hop in a sound table is there. -/
theorem verificationKey_sound (hs : Sound me a) (hlook : a.globalNeighborList.lookup name = some e)
    (herr : name ≠ "Error") : ∃ pub, verificationKey me name e = some pub := by
  unfold verificationKey
  split
  · rename_i hn
    exact Option.isSome_iff_exists.mp (hs.keyed name e ⟨hn.1, hn.2, herr⟩ hlook)
  · exact ⟨_, rfl⟩

theorem attempt_wellFormed {key iv : Bytes} (hf : WellFormed me f) (haes : aesAccepts key iv = true)
    (pub : RsaPublicKey) : ∃ plain ok, attempt p key iv (some pub) f = .ok (plain, ok) := by
  obtain ⟨enc, henc⟩ := hf.msg
  obtain ⟨sig, hsig⟩ := hf.sig
  exact ⟨_, _, attempt_readable haes henc hsig⟩

theorem attemptOld_wellFormed (hf : WellFormed me f) (hsized : Sized e) (pub : RsaPublicKey) :
    ∃ plain ok, attemptOld p (some pub) e f = .ok (plain, ok) := by
  unfold attemptOld
  split
  · rename_i key iv hkey hiv
    exact attempt_wellFormed hf (hsized.old key iv hkey hiv) pub
  · exact ⟨_, _, rfl⟩

/-- None of the decryptions with the keys of the entry verifies. -/
def Undecodable (p : Platform) (me : Identity) (name : String) (e : Neighbor) (f : Frame) : Prop :=
  (∃ plain, attempt p e.encryptionKey e.encryptionIV (verificationKey me name e) f =
    .ok (plain, false)) ∧
  ∃ plain, attemptOld p (verificationKey me name e) e f = .ok (plain, false)

/-- What the first two decryptions of a well-formed frame come to. -/
theorem decodeStage_wellFormed (hf : WellFormed me f) (hs : Sound me a)
    (hl : f.lasthop = some (.str name)) (nb : Bool) :
    (a.globalNeighborList.lookup name = none ∧
      decodeStage p me w a nb f = (a, .error .unknownLasthop)) ∨
    ∃ e, a.globalNeighborList.lookup name = some e ∧
      ((∃ plain, decodeStage p me w a nb f =
          (a, .ok ⟨name, e.encryptionKey, e.encryptionIV, plain⟩) ∧
          ¬ Undecodable p me name e f) ∨
        (nb = false ∧ decodeStage p me w a nb f =
          (Agent.releaseSenders a, .error .ownUndecodable)) ∨
        (nb = true ∧ Undecodable p me name e f ∧
          decodeStage p me w a nb f = retryStage p me w a f name e)) := by
  obtain ⟨l, hl', herr, -⟩ := hf.lasthop
  obtain rfl : name = l := by
    rw [hl] at hl'
    simpa using hl'
  have hentry : lasthopEntry f a.globalNeighborList =
      .ok ((a.globalNeighborList.lookup name).map (fun entry => (name, entry))) := by
    simp [lasthopEntry, hl, field, Except.bind, Json.dictKey]
  unfold decodeStage
  rw [hentry]
  cases hlook : a.globalNeighborList.lookup name with
  | none => exact Or.inl ⟨rfl, rfl⟩
  | some e =>
    refine Or.inr ⟨e, rfl, ?_⟩
    obtain ⟨pub, hpub⟩ := verificationKey_sound hs hlook herr
    have hsized := hs.sized name e herr hlook
    obtain ⟨plain, ok, hfirst⟩ := attempt_wellFormed (p := p) hf hsized.current pub
    obtain ⟨plain', ok', hsecond⟩ := attemptOld_wellFormed (p := p) hf hsized pub
    simp only [Option.map_some, hpub, hfirst, hsecond, Undecodable]
    cases ok with
    | true => exact Or.inl ⟨plain, rfl, by simp⟩
    | false =>
      cases nb with
      | false => exact Or.inr (Or.inl ⟨rfl, rfl⟩)
      | true =>
        cases ok' with
        | true => exact Or.inl ⟨plain', rfl, by simp⟩
        | false => exact Or.inr (Or.inr ⟨rfl, ⟨⟨plain, rfl⟩, plain', rfl⟩, rfl⟩)

/-- A pass that ends in a publication or in an explicit drop. -/
def Settled (o : Outcome) : Prop :=
  (o.published.isSome = true ∧ o.stop = none) ∨
    (o.published = none ∧ ∃ s, o.stop = some s ∧ Stop.isFinal s = false)

/-- A decoded frame is published, and the table stays sound. -/
theorem publish_settled (hf : WellFormed me f) (hs : Sound me a)
    (hlook : a.globalNeighborList.lookup name = some e) (herr : name ≠ "Error") (cache : FwdCache)
    (nb : Bool) (plain : Bytes) :
    Settled (publish p me a cache nb ⟨name, e.encryptionKey, e.encryptionIV, plain⟩ f) ∧
      Sound me
        (publish p me a cache nb ⟨name, e.encryptionKey, e.encryptionIV, plain⟩ f).agent := by
  obtain ⟨h, hh⟩ := hf.host
  obtain ⟨i, hi⟩ := hf.id
  have hrem : remember cache f = .ok (cache.insert (.str h) (.int i)) := by
    simp [remember, hh, hi, field, Json.dictKey, bind, Except.bind, pure, Except.pure]
  have haes : aesAccepts (if name = "old_keys" then e.encryptionKey else a.key)
      (if name = "old_keys" then e.encryptionIV else a.iv) = true := by
    split
    · exact (hs.sized name e herr hlook).current
    · exact hs.own
  cases nb with
  | true =>
    simp only [publish, haes, if_true, countSuccess, hlook, hrem]
    exact ⟨Or.inl ⟨rfl, rfl⟩, hs.recount hlook rfl rfl rfl rfl rfl⟩
  | false =>
    simp only [publish, haes, if_true, Bool.false_eq_true, if_false, hrem]
    exact ⟨Or.inl ⟨rfl, rfl⟩, hs.congr rfl rfl rfl rfl⟩

/-- The agent once the fifth loss in a row has been counted. -/
def countedLoss (a : Agent) (name : String) (e : Neighbor) : Agent :=
  Agent.putNeighbor a name { e with lostMessages := 0, rxStatsLost := e.rxStatsLost + 1 }

/-- A frame that cannot be decrypted is coped with: its last hop is still in the table
and, if this was the fifth loss in a row, can be rescanned after the next waits,
or removed if its frequency is not known. -/
def LossHandled (w : Waits) (a : Agent) (name : String) : Prop :=
  ∃ e, a.globalNeighborList.lookup name = some e ∧ (5 ≤ e.lostMessages + 1 →
    (e.freq ≠ 0 → ∃ b e', w.rescan (Agent.setNeighborMessage (countedLoss a name e) true) =
        some b ∧ b.globalNeighborList.lookup name = some e' ∧
        Rescannable w.outside b e'.freq e'.ssid name e'.encryptionKey) ∧
    (e.freq = 0 → ∀ ns ∈ a.globalAppList, w.outside.linkFailure_cb ns name = true))

theorem rescanLasthop_final_iff {b : Agent}
    (hwait : w.rescan (Agent.setNeighborMessage a true) = some b) :
    Stop.isFinal (rescanLasthop me w a name).2 = false ↔
      ∃ e', b.globalNeighborList.lookup name = some e' ∧
        Rescannable w.outside b e'.freq e'.ssid name e'.encryptionKey := by
  unfold rescanLasthop
  simp only [hwait]
  cases hlook : b.globalNeighborList.lookup name with
  | none =>
    have hnone : (Agent.setNeighborUpdate b false).globalNeighborList.lookup name = none := hlook
    simp [hnone, Stop.isFinal]
  | some e' =>
    have hsome : (Agent.setNeighborUpdate b false).globalNeighborList.lookup name = some e' := hlook
    have hok := rescan_neighbor_ok_iff w.outside me e'.freq e'.ssid hsome
    have hsame : Rescannable w.outside (Agent.setNeighborUpdate b false) e'.freq e'.ssid name
        e'.encryptionKey ↔ Rescannable w.outside b e'.freq e'.ssid name e'.encryptionKey := Iff.rfl
    simp only [hsome, Option.some.injEq, exists_eq_left']
    rw [← hsame, ← hok]
    rcases hrun : rescan_neighbor w.outside me (Agent.setNeighborUpdate b false) e'.freq e'.ssid
      name 10 with ⟨c, r⟩
    cases r with
    | error err => simp [Stop.isFinal]
    | ok r => simp [Stop.isFinal]

theorem loseMessage_some (hlook : a.globalNeighborList.lookup name = some e) :
    loseMessage me w a name =
      if e.lostMessages + 1 ≥ 5 then
        if e.freq ≠ 0 then rescanLasthop me w (countedLoss a name e) name
        else match onAPLeft w.outside (countedLoss a name e) name with
          | (b, .error err) => (b, .raised err)
          | (b, .ok ()) => (Agent.setNeighborMessage b true, .removed)
      else (Agent.setNeighborMessage (Agent.putNeighbor a name { e with
        lostMessages := e.lostMessages + 1, rxStatsLost := e.rxStatsLost + 1 }) true, .lost) := by
  simp only [loseMessage, hlook]
  rfl

theorem loseMessage_final_iff (hs : Sound me a) (hname : NeighborName me name)
    (hwait : ∀ b, ∃ c, w.rescan b = some c) :
    Stop.isFinal (loseMessage me w a name).2 = false ↔ LossHandled w a name := by
  unfold LossHandled
  cases hlook : a.globalNeighborList.lookup name with
  | none => simp [loseMessage, hlook, Stop.isFinal]
  | some e =>
    rw [loseMessage_some hlook]
    simp only [Option.some.injEq, exists_eq_left']
    by_cases hfive : e.lostMessages + 1 ≥ 5
    · simp only [hfive, if_true, true_implies]
      by_cases hfreq : e.freq = 0
      · have hconn := hs.connected name e hname hlook
        have hsome : ((countedLoss a name e).globalNeighborList.lookup name).isSome = true := by
          rw [countedLoss, lookup_putNeighbor]
          rfl
        have hrem := onAPLeft_ok_iff w.outside (countedLoss a name e) name hsome
        have hcb : Removable w.outside (countedLoss a name e) name ↔
            ∀ ns ∈ a.globalAppList, w.outside.linkFailure_cb ns name = true :=
          ⟨fun h => h.2, fun h => ⟨hconn, h⟩⟩
        rw [hcb] at hrem
        simp only [hfreq, ne_eq, not_true_eq_false, if_false, false_implies, true_and, true_implies]
        rw [← hrem]
        rcases onAPLeft w.outside (countedLoss a name e) name with ⟨b, r⟩
        cases r with
        | error err => simp [Stop.isFinal]
        | ok u => simp [Stop.isFinal]
      · obtain ⟨b, hb⟩ := hwait (Agent.setNeighborMessage (countedLoss a name e) true)
        simp only [ne_eq, hfreq, not_false_eq_true, if_true, true_implies, false_implies, and_true]
        rw [rescanLasthop_final_iff hb, hb]
        simp
    · simp only [hfive, if_false, false_implies, iff_true]
      rfl

/-- The stages after a loss keep the table sound. -/
theorem loseMessage_sound (hs : Sound me a) (hscans : CompleteScans me w.outside)
    (hwait : ∀ b c, Sound me b → w.rescan b = some c → Sound me c) (name : String) :
    Sound me (loseMessage me w a name).1 := by
  cases hlook : a.globalNeighborList.lookup name with
  | none =>
    simp only [loseMessage, hlook]
    exact hs
  | some e =>
    have hcounted : Sound me (countedLoss a name e) := hs.recount hlook rfl rfl rfl rfl rfl
    rw [loseMessage_some hlook]
    split
    · split
      · unfold rescanLasthop
        have hset : Sound me (Agent.setNeighborMessage (countedLoss a name e) true) :=
          hcounted.congr rfl rfl rfl rfl
        split
        · exact hset
        · rename_i b hb
          have hb' : Sound me (Agent.setNeighborUpdate b false) :=
            (hwait _ b hset hb).congr rfl rfl rfl rfl
          dsimp only
          split
          · exact hb'
          · rename_i e' he'
            have hre := hb'.rescan_neighbor w.outside hscans e'.freq e'.ssid name 10
            split
            · rename_i hrun
              rw [hrun] at hre
              exact hre
            · rename_i hrun
              rw [hrun] at hre
              exact hre.congr rfl rfl rfl rfl
      · have hleft := hcounted.onAPLeft w.outside name
        split
        · rename_i hrun
          rw [hrun] at hleft
          exact hleft
        · rename_i hrun
          rw [hrun] at hleft
          exact hleft.congr rfl rfl rfl rfl
    · have hput : Sound me (Agent.putNeighbor a name { e with
          lostMessages := e.lostMessages + 1, rxStatsLost := e.rxStatsLost + 1 }) :=
        hs.recount hlook rfl rfl rfl rfl rfl
      exact hput.congr rfl rfl rfl rfl

/-- The waits return, and what happens in them keeps the table sound. -/
structure SoundWaits (me : Identity) (w : Waits) : Prop where
  gate : ∀ a, Sound me a → ∃ b, w.gate a = some b ∧ Sound me b
  retry : ∀ a, Sound me a → ∃ b, w.retry a = some b ∧ Sound me b
  rescan : ∀ a, ∃ b, w.rescan a = some b
  rescan_sound : ∀ a b, Sound me a → w.rescan a = some b → Sound me b
  scans : CompleteScans me w.outside

/-- If none of the decryptions of a neighbor's frame verifies, its last hop is still
known when the waits before the third one return, and the loss is coped with. -/
def StaysKnown (p : Platform) (me : Identity) (w : Waits) (a : Agent) (cache : FwdCache)
    (f : Frame) : Prop :=
  ∀ f' a₁ a₂ name e, filterFrame p me cache f = .ok f' → w.gate a = some a₁ →
    f.host ≠ some (.str me.hostname) → f.lasthop = some (.str name) →
    a₁.globalNeighborList.lookup name = some e → Undecodable p me name e f →
    w.retry (Agent.setNeighborMessage a₁ true) = some a₂ →
    LossHandled w (Agent.setNeighborMessage a₂ false) name

/-- A frame that gets past the filters has names that can be printed, and its last hop stays
known. -/
def Survivable (p : Platform) (me : Identity) (w : Waits) (a : Agent) (cache : FwdCache)
    (f : Frame) : Prop :=
  (∀ f', filterFrame p me cache f = .ok f' → Printable f) ∧ StaysKnown p me w a cache f

theorem settled_stop_iff (b : Agent) (s : Stop) :
    Settled { agent := b, cache := cache, stop := some s } ↔ Stop.isFinal s = false := by
  simp [Settled]

/-- The third decryption repeats the first one and fails like it. -/
theorem retryStage_undecodable (h : Undecodable p me name e f)
    (hwait : w.retry (Agent.setNeighborMessage a true) = some a₂) :
    retryStage p me w a f name e =
      ((loseMessage me w (Agent.setNeighborMessage a₂ false) name).1,
        .error (loseMessage me w (Agent.setNeighborMessage a₂ false) name).2) := by
  obtain ⟨plain, hfirst⟩ := h.1
  simp only [retryStage, hwait, hfirst]

/-- The pass over a well-formed frame that gets through the filters and the first
wait. -/
theorem pass_wellFormed {f' : Frame} {a₁ : Agent} (hf' : WellFormed me f')
    (hprint : Printable f') (hfilter : filterFrame p me cache f = .ok f') (hgate : w.gate a = some a₁) :
    initForwardingTTL p me w a cache f =
      match decodeStage p me w (marked me f' a₁) (foreign me f') f' with
      | (b, .error s) => { agent := b, cache := cache, stop := some s }
      | (b, .ok d) => publish p me b cache (foreign me f') d f' := by
  split
  · rename_i b s hdec
    simp only [initForwardingTTL, hfilter, hgate, mark_wellFormed hf' hprint, hdec]
  · rename_i b d hdec
    simp only [initForwardingTTL, hfilter, hgate, mark_wellFormed hf' hprint, hdec]

/-- A frame with a name that cannot be printed ends the loop. -/
theorem pass_unprintable {f' : Frame} {a₁ : Agent} (hf' : WellFormed me f')
    (hprint : ¬ Printable f') (hfilter : filterFrame p me cache f = .ok f')
    (hgate : w.gate a = some a₁) :
    ∃ e, initForwardingTTL p me w a cache f =
      { agent := a₁, cache := cache, stop := some (.raised e) } := by
  obtain ⟨e, hmark⟩ := mark_unprintable hf' hprint a₁
  exact ⟨e, by simp only [initForwardingTTL, hfilter, hgate, hmark]⟩

/-- One pass over a well-formed frame, from a sound table. -/
theorem pass_settled_iff (hf : WellFormed me f) (hs : Sound me a) (hw : SoundWaits me w)
    (cache : FwdCache) :
    (Settled (initForwardingTTL p me w a cache f) ↔ Survivable p me w a cache f) ∧
      Sound me (initForwardingTTL p me w a cache f).agent := by
  rcases filterFrame_wellFormed (p := p) hf cache with ⟨s, hfilter, hfinal⟩ | ⟨t, hfilter⟩
  · have hpass : initForwardingTTL p me w a cache f =
        { agent := a, cache := cache, stop := some s } := by
      simp only [initForwardingTTL, hfilter]
    rw [hpass, settled_stop_iff]
    have hdropped : ∀ f', filterFrame p me cache f ≠ .ok f' := by
      intro f' hok
      rw [hfilter] at hok
      cases hok
    refine ⟨⟨fun _ => ⟨?_, ?_⟩, fun _ => hfinal⟩, hs⟩
    · intro f' hok
      exact absurd hok (hdropped f')
    · intro f' a₁ a₂ name e hok
      exact absurd hok (hdropped f')
  · obtain ⟨a₁, hgate, hs₁⟩ := hw.gate a hs
    obtain ⟨name, hl, herr, hnames⟩ := hf.lasthop
    have hf' := hf.withTtl (t - 1)
    by_cases hprint : ¬ Printable f
    · obtain ⟨err, hpass⟩ := pass_unprintable hf' hprint hfilter hgate
      rw [hpass, settled_stop_iff]
      exact ⟨iff_of_false (by simp [Stop.isFinal]) (fun h => hprint (h.1 _ hfilter)), hs₁⟩
    rw [not_not] at hprint
    have hsurvives : Survivable p me w a cache f ↔ StaysKnown p me w a cache f :=
      and_iff_right (fun _ _ => hprint)
    rw [hsurvives]
    have hmarked : Sound me (marked me { f with ttl := some (.int (t - 1)) } a₁) := by
      unfold marked
      split
      · exact hs₁.congr rfl rfl rfl rfl
      · exact hs₁
    have htable : (marked me { f with ttl := some (.int (t - 1)) } a₁).globalNeighborList =
        a₁.globalNeighborList := by
      unfold marked
      split
      · rfl
      · rfl
    rw [pass_wellFormed hf' hprint hfilter hgate]
    -- the frame with its ttl counted down is read in the same places as the frame itself
    rcases decodeStage_wellFormed (p := p) (w := w) hf' hmarked hl
        (foreign me { f with ttl := some (.int (t - 1)) }) with
      ⟨hnone, hdecode⟩ | ⟨e, hlook, ⟨plain, hdecode, hok⟩ | ⟨hown, hdecode⟩ | ⟨hnb, hun, hdecode⟩⟩
    · rw [hdecode]
      refine ⟨⟨fun _ => ?_, fun _ => (settled_stop_iff _ _).mpr rfl⟩, hmarked⟩
      intro f' b₁ b₂ name' e' _ hgate' _ hl' hlook'
      obtain rfl : a₁ = b₁ := Option.some.inj (hgate.symm.trans hgate')
      obtain rfl : name = name' := by simpa [hl] using hl'
      rw [htable, hlook'] at hnone
      cases hnone
    · rw [hdecode]
      obtain ⟨hsettled, hsound⟩ := publish_settled (p := p) hf' hmarked hlook herr cache
        (foreign me { f with ttl := some (.int (t - 1)) }) plain
      refine ⟨⟨fun _ => ?_, fun _ => hsettled⟩, hsound⟩
      intro f' b₁ b₂ name' e' _ hgate' _ hl' hlook' hun
      obtain rfl : a₁ = b₁ := Option.some.inj (hgate.symm.trans hgate')
      obtain rfl : name = name' := by simpa [hl] using hl'
      rw [htable, hlook'] at hlook
      obtain rfl := Option.some.inj hlook
      exact absurd hun hok
    · rw [hdecode]
      refine ⟨⟨fun _ => ?_, fun _ => (settled_stop_iff _ _).mpr rfl⟩, hmarked.congr rfl rfl rfl rfl⟩
      intro f' b₁ b₂ name' e' _ _ hhost
      rw [← Bool.not_eq_true, foreign_iff hf'] at hown
      exact absurd hhost hown
    · rw [hdecode]
      have hhost : f.host ≠ some (.str me.hostname) := (foreign_iff hf').mp hnb
      have hname : NeighborName me name := ⟨(hnames hhost).1, (hnames hhost).2, herr⟩
      have hmark₁ : marked me { f with ttl := some (.int (t - 1)) } a₁ =
          Agent.setNeighborMessage a₁ false := by
        rw [marked, if_pos hnb]
      have hs₁' : Sound me (Agent.setNeighborMessage a₁ true) := hs₁.congr rfl rfl rfl rfl
      obtain ⟨a₂, hretry, hs₂⟩ := hw.retry _ hs₁'
      have hs₂' : Sound me (Agent.setNeighborMessage a₂ false) := hs₂.congr rfl rfl rfl rfl
      have hstage := retryStage_undecodable (a := Agent.setNeighborMessage a₁ false) hun hretry
      rw [hmark₁, hstage]
      refine ⟨?_, loseMessage_sound hs₂' hw.scans hw.rescan_sound name⟩
      rw [settled_stop_iff, loseMessage_final_iff hs₂' hname hw.rescan]
      rw [htable] at hlook
      constructor
      · intro h f' b₁ b₂ name' e' _ hgate' _ hl' _ _ hretry'
        obtain rfl : a₁ = b₁ := Option.some.inj (hgate.symm.trans hgate')
        obtain rfl : name = name' := by simpa [hl] using hl'
        obtain rfl : a₂ = b₂ := Option.some.inj (hretry.symm.trans hretry')
        exact h
      · intro h
        exact h _ a₁ a₂ name e hfilter hgate hhost hl hlook hun hretry

/-- `P` holds of every pass of a run, up to one that ends the loop. -/
def AlongRun (p : Platform) (me : Identity) (P : Waits → Agent → FwdCache → Frame → Prop) :
    List Round → Agent → FwdCache → Prop
  | [], _, _ => True
  | r :: rest, a, cache =>
      P r.waits (r.between a) cache r.frame ∧
        ((initForwardingTTL p me r.waits (r.between a) cache r.frame).stop.any Stop.isFinal = false →
          AlongRun p me P rest (initForwardingTTL p me r.waits (r.between a) cache r.frame).agent
            (initForwardingTTL p me r.waits (r.between a) cache r.frame).cache)

/-- One turn of the forwarder's loop with what the other threads do meanwhile: while
it waits for a frame, and at the three places where it waits for events. -/
structure Turn where
  between : List Op
  frame : Frame
  gate : List Op
  retry : List Op
  rescan : List Op
  outside : Outside

def Turn.round (me : Identity) (t : Turn) : Round where
  between := t.between.foldl (Op.apply me)
  frame := t.frame
  waits :=
    { gate := fun a => some (t.gate.foldl (Op.apply me) a)
      retry := fun a => some (t.retry.foldl (Op.apply me) a)
      rescan := fun a => some (t.rescan.foldl (Op.apply me) a)
      outside := t.outside }

/-- The frame is well formed and what comes in by other ways is complete. -/
structure Turn.Proper (me : Identity) (t : Turn) : Prop where
  frame : WellFormed me t.frame
  ops : ∀ op ∈ t.between ++ t.gate ++ t.retry ++ t.rescan, op.Proper me
  scans : CompleteScans me t.outside

theorem Turn.Proper.soundWaits {t : Turn} (h : t.Proper me) : SoundWaits me (t.round me).waits := by
  have hops := h.ops
  simp only [List.mem_append] at hops
  refine ⟨?_, ?_, fun a => ⟨_, rfl⟩, ?_, h.scans⟩
  · intro a hs
    exact ⟨_, rfl, hs.ops t.gate (fun op hop => hops op (by simp [hop]))⟩
  · intro a hs
    exact ⟨_, rfl, hs.ops t.retry (fun op hop => hops op (by simp [hop]))⟩
  · intro a b hs hb
    obtain rfl := Option.some.inj hb
    exact hs.ops t.rescan (fun op hop => hops op (by simp [hop]))

/-- The forwarder survives: in every run of well-formed frames, with any operations of
the other threads at its waits, each frame ends in its publication or in an
explicit drop, if and only if the names of every frame that gets past the filters can be
printed, and the last hop of every frame that could not be decrypted is still known where
the forwarder looks it up again. -/
theorem forwarder_survives_iff (p : Platform) (me : Identity) (turns : List Turn) (a : Agent)
    (cache : FwdCache) (hs : Sound me a) (hturns : ∀ t ∈ turns, t.Proper me) :
    AlongRun p me (fun w a cache f => Settled (initForwardingTTL p me w a cache f))
        (turns.map (Turn.round me)) a cache ↔
      AlongRun p me (Survivable p me) (turns.map (Turn.round me)) a cache := by
  induction turns generalizing a cache with
  | nil => rfl
  | cons t rest ih =>
    have ht := hturns t (by simp)
    have hbetween : Sound me ((t.round me).between a) :=
      hs.ops t.between (fun op hop => ht.ops op (by simp [hop]))
    obtain ⟨hiff, hsound⟩ := pass_settled_iff (p := p) ht.frame hbetween ht.soundWaits cache
    simp only [List.map_cons, AlongRun]
    rw [show (t.round me).frame = t.frame from rfl, hiff]
    refine and_congr_right (fun _ => imp_congr_right (fun _ => ?_))
    exact ih _ _ hsound (fun t' ht' => hturns t' (by simp [ht']))

/-- The agent of the samples, connected to its neighbor. -/
def connectedAgent : Agent := { sampleAgent with frontend := [("10.0.0.2", .fwd)] }

theorem connectedAgent_sound : Sound sampleIdentity connectedAgent := by
  have hempty : Sound sampleIdentity
      { key := sampleKey, iv := sampleKey, frontend := [("10.0.0.2", .fwd)] } := by
    refine ⟨by decide, ?_, ?_, ?_⟩
    all_goals
      intro n e _ hlook
      simp at hlook
  refine (hempty.putNeighbor (n := "10.0.0.2") ?_ ?_ ?_).congr rfl rfl rfl rfl
  · intro _
    refine ⟨by decide, ?_⟩
    intro key iv hkey
    cases hkey
  · intro _
    rfl
  · intro _
    exact List.mem_singleton.mpr rfl

/-- A frame of the neighbor under a key that the agent does not know yet. -/
def strangeFrame : Frame :=
  { sampleFrame with
    msg := some (.str (String.ofList (Base64.encodestring
      (listPlatform.encrypt (List.replicate 16 9) sampleKey [104, 105])))) }

theorem sampleFrame_wellFormed : WellFormed sampleIdentity sampleFrame :=
  ⟨⟨"10.0.0.2", rfl⟩, ⟨"10.0.0.2", rfl, by decide, fun _ => by decide⟩, ⟨1, rfl⟩,
    ⟨broadcast, rfl⟩, ⟨2, rfl⟩, ⟨_, encodedMsg_encoded rfl⟩, ⟨_, rfl⟩⟩

theorem strangeFrame_wellFormed : WellFormed sampleIdentity strangeFrame :=
  { sampleFrame_wellFormed with msg := ⟨_, encodedMsg_encoded rfl⟩ }

/-- The frame arrives; during the waits before the third decryption another thread
does `ops`. -/
def strangeTurn (ops : List Op) : Turn :=
  ⟨[], strangeFrame, [], ops, [], silentOutside⟩

theorem silentOutside_complete : CompleteScans sampleIdentity silentOutside :=
  silentAir.complete rfl rfl rfl quietOutside

/-- The neighbor expires while the forwarder waits for its new key: the lookup of the
loss counter raises, and the loop is left. -/
theorem removed_lasthop_raises :
    Sound sampleIdentity connectedAgent ∧
      (strangeTurn [.onAPLeft quietOutside "10.0.0.2"]).Proper sampleIdentity ∧
      (initForwardingTTL listPlatform sampleIdentity
        ((strangeTurn [.onAPLeft quietOutside "10.0.0.2"]).round sampleIdentity).waits
        connectedAgent ∅ strangeFrame).stop = some (.raised .keyError) := by
  refine ⟨connectedAgent_sound, ⟨strangeFrame_wellFormed, ?_, silentOutside_complete⟩, by decide⟩
  intro op hop
  obtain rfl : op = .onAPLeft quietOutside "10.0.0.2" := by simpa [strangeTurn] using hop
  trivial

/-- What the parser makes of the element of a third agent. -/
def heard : Except PyError Neighbor :=
  ProbeRequests.parse_resfi_ie listPlatform 0
    (ReceiveLoop.hexEncode (sampleKey ++ sampleKey ++ [48] ++ asciiBytes "10.0.0.4".toList))
    32 32 2 (-60) 0 2412 none

/-- A probe request of the third agent comes first. -/
def heardTurn : Turn :=
  { strangeTurn [] with between := [.onAPJoined silentOutside heard.toOption.toList] }

theorem heardTurn_proper : heardTurn.Proper sampleIdentity := by
  refine ⟨strangeFrame_wellFormed, ?_, silentOutside_complete⟩
  intro op hop
  obtain rfl : op = .onAPJoined silentOutside heard.toOption.toList := by
    simpa [heardTurn, strangeTurn] using hop
  intro r hr
  have hparsed : heard = .ok r := by
    cases hheard : heard with
    | error e => simp [hheard, Except.toOption] at hr
    | ok r' =>
      rw [hheard] at hr
      rw [List.mem_singleton.mp hr]
  exact parse_complete rfl hparsed

theorem forwarder_survives_iff_sample :
    AlongRun listPlatform sampleIdentity (Survivable listPlatform sampleIdentity)
      [heardTurn.round sampleIdentity] connectedAgent ∅ := by
  have hproper : ∀ t ∈ [heardTurn], t.Proper sampleIdentity := by
    intro t ht
    obtain rfl := List.mem_singleton.mp ht
    exact heardTurn_proper
  refine (forwarder_survives_iff listPlatform sampleIdentity [heardTurn] connectedAgent ∅
    connectedAgent_sound hproper).mp ⟨Or.inr ⟨rfl, .lost, by decide, rfl⟩, fun _ => trivial⟩

end Nxwlan.ForwarderSurvival
