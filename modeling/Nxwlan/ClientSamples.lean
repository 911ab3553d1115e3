import Nxwlan.ReadinessToServe
import Nxwlan.SlidingWindows

/-!
What the sampling thread of the cran application keeps. As long as no dump fails and each
station that was listed is still reported with its bytes when its turn comes, the thread
goes on for ever, and the table holds the last samples of every client. A failed listing or
a station that left in between ends the thread; a failed dump of one station leaves a
sample of 0 bits behind.
-/
namespace Nxwlan.ClientSamples

open PyText JsonFrames StationDumps ReadinessToServe SlidingWindows

/-- The bits sent to a station as a dump reports them. -/
def txBits (dump : Option Stations) (client_addr : Text) : Option ℚ :=
  match dump with
  | none => none
  | some tmp =>
    match entryOf tmp client_addr "tx bytes".toList with
    | none => none
    | some entry => (readFloat entry.1).map (fun bytes => bytes * 8)

/-- The dump of a step is good enough: there is a listing at the top of a round, and the
station whose turn it is is reported with its bytes. -/
def Reported (place : Place) (dump : Option Stations) : Prop :=
  match place with
  | .top => dump.isSome
  | .sampling (client_addr :: _) => (txBits dump client_addr).isSome
  | _ => True

instance (dump : Option Stations) : (place : Place) → Decidable (Reported place dump)
  | .top => inferInstanceAs (Decidable (dump.isSome = true))
  | .sampling (client_addr :: _) =>
      inferInstanceAs (Decidable ((txBits dump client_addr).isSome = true))
  | .sampling [] => inferInstanceAs (Decidable True)
  | .joining _ _ => inferInstanceAs (Decidable True)
  | .ended => inferInstanceAs (Decidable True)

/-- Every step of a run gets such a dump. -/
def ReportedRun (c : Collector) : List (Option Stations) → Prop
  | [] => True
  | dump :: dumps => Reported c.place dump ∧ ReportedRun (c.step dump) dumps

instance decidableReportedRun (c : Collector) :
    (dumps : List (Option Stations)) → Decidable (ReportedRun c dumps)
  | [] => inferInstanceAs (Decidable True)
  | dump :: dumps =>
      let := decidableReportedRun (c.step dump) dumps
      inferInstanceAs (Decidable (_ ∧ _))

/-- The thread with the stations of the current round and all samples of each client so far. -/
structure Observed where
  collector : Collector := {}
  listed : List Text := []
  samples : Text → List ℚ := fun _ => []

def Observed.step (o : Observed) (dump : Option Stations) : Observed where
  collector := o.collector.step dump
  listed :=
    match o.collector.place with
    | .top => (getMacAddrAssociatedClients dump).getD []
    | _ => o.listed
  samples :=
    match o.collector.place with
    | .sampling (client_addr :: _) => Function.update o.samples client_addr
        (o.samples client_addr ++ (txBits dump client_addr).toList)
    | _ => o.samples

/-- A run from the start of the thread. -/
def observed (dumps : List (Option Stations)) : Observed := dumps.foldl Observed.step {}

/-- The observer leaves the thread alone. -/
theorem collector_observed (dumps : List (Option Stations)) :
    (observed dumps).collector = Collector.run dumps := by
  induction dumps using List.reverseRecOn with
  | nil => rfl
  | append_singleton dumps dump ih =>
    rw [observed, List.foldl_append, Collector.run, List.foldl_append]
    exact congrArg (fun c => c.step dump) ih

/-- The listed stations that the table need not have yet. -/
def joiners : Place → List Text
  | .joining todo _ => todo
  | _ => []

/-- The stations of the round that are still to be met. -/
def upcoming : Place → List Text
  | .joining _ client_addrs => client_addrs
  | .sampling todo => todo
  | _ => []

structure Sound (o : Observed) : Prop where
  alive : o.collector.place ≠ .ended
  kept : ∀ client_addr v, o.collector.tbl.lookup client_addr = some v →
    v = (o.samples client_addr).rtake MOV_AVG_WND
  fresh : ∀ client_addr, client_addr ∉ o.collector.tbl → o.samples client_addr = []
  joined : ∀ client_addr ∈ o.listed,
    client_addr ∈ o.collector.tbl ∨ client_addr ∈ joiners o.collector.place
  waiting : ∀ client_addr ∈ upcoming o.collector.place, client_addr ∈ o.listed

variable {o : Observed} {dump : Option Stations} {client_addr : Text} {bits : ℚ}

theorem sound_start : Sound {} where
  alive := nofun
  kept := nofun
  fresh := fun _ _ => rfl
  joined := nofun
  waiting := nofun

/-- A report with bytes is what the call for the station returns. -/
theorem getMACTxBytesStation_of_txBits (h : txBits dump client_addr = some bits) :
    ∃ bytes, getMACTxBytesStation dump client_addr = .ok (some bytes) ∧ bytes * 8 = bits := by
  cases dump with
  | none => cases h
  | some tmp =>
    rw [txBits] at h
    rw [getMACTxBytesStation]
    cases hentry : entryOf tmp client_addr "tx bytes".toList with
    | none =>
      rw [hentry] at h
      cases h
    | some entry =>
      rw [hentry] at h
      dsimp only at h ⊢
      cases hbytes : readFloat entry.1 with
      | none =>
        rw [hbytes] at h
        cases h
      | some bytes =>
        rw [hbytes] at h
        exact ⟨bytes, rfl, Option.some.inj h⟩

/-! What one step leaves, by the place where the thread stands. -/

section Steps

variable {tmp : Stations} {todo client_addrs : List Text}

theorem step_top (hplace : o.collector.place = .top) :
    o.step (some tmp) = ⟨⟨o.collector.tbl, .joining tmp.keys tmp.keys⟩, tmp.keys, o.samples⟩ := by
  rw [Observed.step, Collector.step, hplace]
  rfl

theorem step_joining_nil (hplace : o.collector.place = .joining [] client_addrs) :
    o.step dump = ⟨⟨o.collector.tbl, .sampling client_addrs⟩, o.listed, o.samples⟩ := by
  rw [Observed.step, Collector.step, hplace]

theorem step_joining_cons
    (hplace : o.collector.place = .joining (client_addr :: todo) client_addrs) :
    o.step dump = ⟨⟨if client_addr ∈ o.collector.tbl then o.collector.tbl
      else o.collector.tbl.insert client_addr [], .joining todo client_addrs⟩,
      o.listed, o.samples⟩ := by
  rw [Observed.step, Collector.step, hplace]

theorem step_sampling_nil (hplace : o.collector.place = .sampling []) :
    o.step dump = ⟨⟨o.collector.tbl, .top⟩, o.listed, o.samples⟩ := by
  rw [Observed.step, Collector.step, hplace]

theorem step_sampling_cons {v : List ℚ}
    (hplace : o.collector.place = .sampling (client_addr :: todo))
    (hbits : txBits dump client_addr = some bits)
    (hv : o.collector.tbl.lookup client_addr = some v) :
    o.step dump = ⟨⟨o.collector.tbl.insert client_addr (push v bits), .sampling todo⟩, o.listed,
      Function.update o.samples client_addr (o.samples client_addr ++ [bits])⟩ := by
  obtain ⟨bytes, hbytes, rfl⟩ := getMACTxBytesStation_of_txBits hbits
  rw [Observed.step, Collector.step, hplace]
  dsimp only
  rw [hbytes, Collector.sample.eq_def, hv, hbits]
  rfl

end Steps

/-- A table that is told a new client forgets nobody. -/
theorem mem_joined (tbl : Table) (client_addr other : Text) :
    other ∈ (if client_addr ∈ tbl then tbl else tbl.insert client_addr []) ↔
      other = client_addr ∨ other ∈ tbl := by
  split
  case isTrue h =>
    constructor
    · exact .inr
    · rintro (rfl | hother)
      · exact h
      · exact hother
  case isFalse h => exact AList.mem_insert _

theorem lookup_joined (tbl : Table) (client_addr other : Text) {v : List ℚ}
    (hv : (if client_addr ∈ tbl then tbl else tbl.insert client_addr []).lookup other = some v) :
    tbl.lookup other = some v ∨ other ∉ tbl ∧ v = [] := by
  split at hv
  case isTrue h => exact .inl hv
  case isFalse h =>
    by_cases hother : other = client_addr
    · subst hother
      rw [AList.lookup_insert] at hv
      exact .inr ⟨h, (Option.some.inj hv).symm⟩
    · rw [AList.lookup_insert_ne hother] at hv
      exact .inl hv

/-- The window of a client takes its next sample. -/
theorem push_rtake (xs : List ℚ) (x : ℚ) :
    push (xs.rtake MOV_AVG_WND) x = (xs ++ [x]).rtake MOV_AVG_WND :=
  rtake_rtake_concat xs x (by decide)

/-- One step with a dump that is good enough. -/
theorem Sound.step (ho : Sound o) (h : Reported o.collector.place dump) : Sound (o.step dump) := by
  cases hplace : o.collector.place with
  | top =>
    rw [hplace] at h
    obtain ⟨tmp, rfl⟩ := Option.isSome_iff_exists.mp h
    rw [step_top hplace]
    exact
      { alive := nofun
        kept := ho.kept
        fresh := ho.fresh
        joined := fun _ hlisted => .inr hlisted
        waiting := fun _ hlisted => hlisted }
  | joining todo client_addrs =>
    cases todo with
    | nil =>
      rw [step_joining_nil hplace]
      have hjoined := ho.joined
      have hwaiting := ho.waiting
      rw [hplace] at hjoined hwaiting
      exact
        { alive := nofun
          kept := ho.kept
          fresh := ho.fresh
          joined := hjoined
          waiting := hwaiting }
    | cons client_addr todo =>
      rw [step_joining_cons hplace]
      have hjoined := ho.joined
      have hwaiting := ho.waiting
      rw [hplace] at hjoined hwaiting
      refine ⟨nofun, ?_, ?_, ?_, hwaiting⟩
      · intro other v hv
        rcases lookup_joined _ _ _ hv with hold | ⟨hnew, rfl⟩
        · exact ho.kept other v hold
        · exact (congrArg (fun xs => xs.rtake MOV_AVG_WND) (ho.fresh other hnew)).symm
      · intro other hother
        exact ho.fresh other (fun hmem => hother ((mem_joined _ _ _).mpr (.inr hmem)))
      · intro other hother
        rcases hjoined other hother with hmem | hmem
        · exact .inl ((mem_joined _ _ _).mpr (.inr hmem))
        · rcases List.mem_cons.mp hmem with rfl | hmem
          · exact .inl ((mem_joined _ _ _).mpr (.inl rfl))
          · exact .inr hmem
  | sampling todo =>
    have hjoined := ho.joined
    have hwaiting := ho.waiting
    rw [hplace] at hjoined hwaiting
    cases todo with
    | nil =>
      rw [step_sampling_nil hplace]
      exact
        { alive := nofun
          kept := ho.kept
          fresh := ho.fresh
          joined := hjoined
          waiting := nofun }
    | cons client_addr todo =>
      rw [hplace] at h
      obtain ⟨bits, hbits⟩ := Option.isSome_iff_exists.mp h
      have hmem : client_addr ∈ o.collector.tbl :=
        (hjoined client_addr (hwaiting client_addr List.mem_cons_self)).resolve_right
          (by simp [joiners])
      obtain ⟨v, hv⟩ := Option.isSome_iff_exists.mp (AList.lookup_isSome.mpr hmem)
      rw [step_sampling_cons hplace hbits hv]
      refine ⟨nofun, ?_, ?_, ?_, ?_⟩
      · intro other w hw
        dsimp only at hw ⊢
        by_cases hother : other = client_addr
        · subst hother
          rw [AList.lookup_insert] at hw
          rw [← Option.some.inj hw, ho.kept other v hv, push_rtake, Function.update_self]
        · rw [AList.lookup_insert_ne hother] at hw
          rw [Function.update_of_ne hother]
          exact ho.kept other w hw
      · intro other hother
        have hne : other ≠ client_addr := fun heq => hother ((AList.mem_insert _).mpr (.inl heq))
        dsimp only
        rw [Function.update_of_ne hne]
        exact ho.fresh other (fun hold => hother ((AList.mem_insert _).mpr (.inr hold)))
      · intro other hother
        exact .inl ((AList.mem_insert _).mpr (.inr ((hjoined other hother).resolve_right
          (by simp [joiners]))))
      · exact fun other hother => hwaiting other (List.mem_cons_of_mem _ hother)
  | ended => exact absurd hplace ho.alive

/-- A whole run. -/
theorem Sound.run (ho : Sound o) {dumps : List (Option Stations)}
    (h : ReportedRun o.collector dumps) : Sound (dumps.foldl Observed.step o) := by
  induction dumps generalizing o with
  | nil => exact ho
  | cons dump dumps ih => exact ih (ho.step h.1) h.2

/-- When every dump succeeds and reports the station that is asked for, the thread never ends,
and after each round the table has the last five samples of every listed station. -/
theorem sampler_survives (dumps : List (Option Stations)) (h : ReportedRun {} dumps) :
    (Collector.run dumps).place ≠ .ended ∧
    ((Collector.run dumps).place = .top → ∀ client_addr ∈ (observed dumps).listed,
      (Collector.run dumps).tbl.lookup client_addr =
        some (((observed dumps).samples client_addr).rtake 5)) := by
  have hsound : Sound (observed dumps) := sound_start.run h
  rw [← collector_observed dumps]
  refine ⟨hsound.alive, ?_⟩
  intro htop client_addr hlisted
  have hjoined := hsound.joined client_addr hlisted
  rw [htop] at hjoined
  have hmem := hjoined.resolve_right (by simp [joiners])
  obtain ⟨v, hv⟩ := Option.isSome_iff_exists.mp (AList.lookup_isSome.mpr hmem)
  rw [hv, hsound.kept client_addr v hv]
  rfl

/-- Six rounds with one station, of five steps each. -/
def sixRounds : List (Option Stations) :=
  ["1000", "2000", "3000", "5000", "8000", "9000"].flatMap
    (fun bytes => List.replicate 5 (oneClient bytes.toList))

/-- The first sample has left the window. -/
theorem sampler_survives_rounds :
    (Collector.run sixRounds).tbl.lookup "b8:a3".toList =
      some [16000, 24000, 40000, 64000, 72000] := by
  have hreported : ReportedRun {} sixRounds := by decide +kernel
  have h := (sampler_survives _ hreported).2 rfl "b8:a3".toList (by decide +kernel)
  rw [h]
  decide +kernel

/-- The steps of one round with one station up to its sample. -/
def listedOnce : List (Option Stations) := List.replicate 3 (oneClient "1000".toList)

/-- A failed listing ends the thread; so does a station that leaves behind the listing; and
where its own dump fails it gets a sample of 0 bits that nobody reported. -/
theorem sampler_dies : (Collector.run [none]).place = .ended ∧
    (Collector.run (listedOnce ++ [some ∅])).place = .ended ∧
    (observed (listedOnce ++ [none, none])).listed = ["b8:a3".toList] ∧
    (Collector.run (listedOnce ++ [none, none])).place = .top ∧
    (observed (listedOnce ++ [none, none])).samples "b8:a3".toList = [] ∧
    (Collector.run (listedOnce ++ [none, none])).tbl.lookup "b8:a3".toList = some [0] := by
  refine ⟨rfl, rfl, rfl, rfl, rfl, ?_⟩
  decide +kernel

end Nxwlan.ClientSamples
