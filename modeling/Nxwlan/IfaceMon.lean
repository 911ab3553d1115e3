import Mathlib.Algebra.BigOperators.Ring.List
import Mathlib.Data.Rat.Floor
import Nxwlan.SlidingWindows

/-!
The traffic of the backhaul interface. The monitor reads the byte counters of the interface
again and again, keeps the differences of the last readings in bits, and publishes their
average and what it leaves of the measured capacity. Both lists are trimmed by the length
of the first. Counters and capacities are Python integers, so `/` rounds down.
-/
namespace Nxwlan.IfaceMon

open SlidingWindows

inductive Failure where
  | keyError
  | typeError
  | indexError
  | zeroDivision
  deriving DecidableEq

/-- What psutil counts at one interface. -/
structure Counters where
  bytes_sent : ℤ
  bytes_recv : ℤ

structure InterfaceMonitor where
  iface : String := "eth0"
  window : ℕ := 10
  max_dl : Option ℤ := none
  max_ul : Option ℤ := none
  lastStats : Option Counters := none
  dl_samples : List ℤ := []
  ul_samples : List ℤ := []
  cur_ul : Option ℤ := none
  cur_dl : Option ℤ := none
  available_dl : Option ℤ := none
  available_ul : Option ℤ := none

/-- `del samples[0]`. -/
def delFirst : List ℤ → Except Failure (List ℤ)
  | [] => .error .indexError
  | _ :: rest => .ok rest

/-- `sum(samples) / len(samples)`. -/
def average (samples : List ℤ) : Except Failure ℤ :=
  if samples.length = 0 then .error .zeroDivision
  else .ok (samples.sum.fdiv samples.length)

/-- `capacity - cur`. -/
def remaining (capacity : Option ℤ) (cur : ℤ) : Except Failure ℤ :=
  match capacity with
  | none => .error .typeError
  | some capacity => .ok (capacity - cur)

namespace InterfaceMonitor

def addSample (m : InterfaceMonitor) (last stats : Counters) : InterfaceMonitor :=
  { m with
    dl_samples := m.dl_samples ++ [(stats.bytes_recv - last.bytes_recv) * 8]
    ul_samples := m.ul_samples ++ [(stats.bytes_sent - last.bytes_sent) * 8]
    lastStats := some stats }

def moveWindow (m : InterfaceMonitor) : Except Failure InterfaceMonitor :=
  if m.window < m.dl_samples.length then do
    let dl_samples ← delFirst m.dl_samples
    let ul_samples ← delFirst m.ul_samples
    pure { m with dl_samples := dl_samples, ul_samples := ul_samples }
  else .ok m

def calculate (m : InterfaceMonitor) : Except Failure InterfaceMonitor := do
  let cur_dl ← average m.dl_samples
  let cur_ul ← average m.ul_samples
  let available_dl ← remaining m.max_dl cur_dl
  let available_ul ← remaining m.max_ul cur_ul
  pure { m with
    cur_dl := some cur_dl, cur_ul := some cur_ul
    available_dl := some available_dl, available_ul := some available_ul }

/-- One reading of the counters of all interfaces. The first one is only kept. -/
def monitor_iface_speed (m : InterfaceMonitor) (stats : String → Option Counters) :
    Except Failure InterfaceMonitor :=
  match stats m.iface, m.lastStats with
  | none, _ => .error .keyError
  | some stats, none => .ok { m with lastStats := some stats }
  | some stats, some last => do
      let m ← (m.addSample last stats).moveWindow
      m.calculate

/-- The loop of the thread, after the capacity was measured. -/
def run (m : InterfaceMonitor) (readings : List (String → Option Counters)) :
    Except Failure InterfaceMonitor :=
  readings.foldlM monitor_iface_speed m

end InterfaceMonitor

/-- The monitor after the capacity was measured. -/
def measured (iface : String) (window : ℕ) (max_dl max_ul : ℤ) : InterfaceMonitor :=
  { iface := iface, window := window, max_dl := some max_dl, max_ul := some max_ul }

/-- The differences of a counter in bits. -/
def bits (counter : List ℤ) : List ℤ := (steps counter).map (fun d => d * 8)

/-- What the monitor holds after the readings `counters`. -/
structure Window (iface : String) (window : ℕ) (max_dl max_ul : ℤ) (counters : List Counters)
    (m : InterfaceMonitor) : Prop where
  iface_eq : m.iface = iface
  window_eq : m.window = window
  max_dl_eq : m.max_dl = some max_dl
  max_ul_eq : m.max_ul = some max_ul
  lastStats_eq : m.lastStats = counters.getLast?
  dl_eq : m.dl_samples = (bits (counters.map Counters.bytes_recv)).rtake window
  ul_eq : m.ul_samples = (bits (counters.map Counters.bytes_sent)).rtake window

/-- The floor of the mean. -/
def meanRate (samples : List ℤ) : ℤ := ⌊(samples.sum : ℚ) / (samples.length : ℚ)⌋

/-- What was published with the last reading. -/
structure Published (max_dl max_ul : ℤ) (m : InterfaceMonitor) : Prop where
  cur_dl_eq : m.cur_dl = some (meanRate m.dl_samples)
  cur_ul_eq : m.cur_ul = some (meanRate m.ul_samples)
  available_dl_eq : m.available_dl = some (max_dl - meanRate m.dl_samples)
  available_ul_eq : m.available_ul = some (max_ul - meanRate m.ul_samples)

variable {iface : String} {window : ℕ} {max_dl max_ul : ℤ} {counters : List Counters}
  {m : InterfaceMonitor} {last stats : Counters} {samples : List ℤ}

section Lists

theorem length_bits (counter : List ℤ) : (bits counter).length = counter.length - 1 := by
  rw [bits, List.length_map, length_steps]

theorem bits_concat {counter : List ℤ} {a : ℤ} (h : counter.getLast? = some a) (b : ℤ) :
    bits (counter ++ [b]) = bits counter ++ [(b - a) * 8] := by
  rw [bits, steps_concat h, List.map_append]
  rfl

/-- The last bits lead from an earlier value of the counter to the latest. -/
theorem sum_rtake_bits {counter : List ℤ} {a b : ℤ} {w : ℕ} (hb : counter.getLast? = some b)
    (ha : counter[counter.length - 1 - min (counter.length - 1) w]? = some a) :
    ((bits counter).rtake w).sum = 8 * (b - a) := by
  have hplace : counter.length - 1 - min (counter.length - 1) w = counter.length - 1 - w := by
    omega
  rw [hplace] at ha
  rw [List.rtake, length_bits, bits, ← List.map_drop, List.sum_map_mul_right, List.map_id',
    sum_drop_steps ha hb, mul_comm]

theorem average_eq (h : samples.length ≠ 0) :
    average samples = .ok (meanRate samples) := by
  have hfloor : meanRate samples = samples.sum / samples.length :=
    Rat.floor_intCast_div_natCast _ _
  rw [average, if_neg h, hfloor, Int.fdiv_eq_ediv_of_nonneg _ (Int.natCast_nonneg _)]

end Lists

theorem delFirst_concat (x : ℤ) : delFirst (samples ++ [x]) = .ok (samples ++ [x]).tail := by
  cases samples <;> rfl

/-- Both lists are as long as each other, so the first one's length decides for both. -/
theorem moveWindow_addSample (hw : 0 < window) (hm : Window iface window max_dl max_ul counters m)
    (hlast : counters.getLast? = some last) (stats : Counters) :
    ∃ m', (m.addSample last stats).moveWindow = .ok m' ∧
      Window iface window max_dl max_ul (counters ++ [stats]) m' := by
  have hdl : bits ((counters ++ [stats]).map Counters.bytes_recv) =
      bits (counters.map Counters.bytes_recv) ++ [(stats.bytes_recv - last.bytes_recv) * 8] := by
    rw [List.map_append]
    exact bits_concat (by rw [List.getLast?_map, hlast]; rfl) _
  have hul : bits ((counters ++ [stats]).map Counters.bytes_sent) =
      bits (counters.map Counters.bytes_sent) ++ [(stats.bytes_sent - last.bytes_sent) * 8] := by
    rw [List.map_append]
    exact bits_concat (by rw [List.getLast?_map, hlast]; rfl) _
  have hsame : ((bits (counters.map Counters.bytes_sent)).rtake window ++
      [(stats.bytes_sent - last.bytes_sent) * 8]).length =
      ((bits (counters.map Counters.bytes_recv)).rtake window ++
        [(stats.bytes_recv - last.bytes_recv) * 8]).length := by
    simp only [List.length_append, length_rtake, length_bits, List.length_map,
      List.length_singleton]
  have hdlTrim := trim_rtake_concat (bits (counters.map Counters.bytes_recv))
    ((stats.bytes_recv - last.bytes_recv) * 8) hw
  have hulTrim := trim_rtake_concat (bits (counters.map Counters.bytes_sent))
    ((stats.bytes_sent - last.bytes_sent) * 8) hw
  rw [← hdl, ← hm.dl_eq] at hdlTrim
  rw [← hul, hsame, ← hm.ul_eq, ← hm.dl_eq] at hulTrim
  have hend : some stats = (counters ++ [stats]).getLast? := List.getLast?_concat.symm
  by_cases hlen : window < (m.dl_samples ++ [(stats.bytes_recv - last.bytes_recv) * 8]).length
  · rw [if_pos hlen] at hdlTrim hulTrim
    have hmove : (m.addSample last stats).moveWindow = .ok { m.addSample last stats with
        dl_samples := (m.addSample last stats).dl_samples.tail
        ul_samples := (m.addSample last stats).ul_samples.tail } := by
      have hlong : (m.addSample last stats).window < (m.addSample last stats).dl_samples.length := by
        rw [← hm.window_eq] at hlen
        exact hlen
      rw [InterfaceMonitor.moveWindow, if_pos hlong, InterfaceMonitor.addSample, delFirst_concat,
        delFirst_concat]
      rfl
    exact ⟨_, hmove, hm.iface_eq, hm.window_eq, hm.max_dl_eq, hm.max_ul_eq, hend, hdlTrim, hulTrim⟩
  · rw [if_neg hlen] at hdlTrim hulTrim
    have hmove : (m.addSample last stats).moveWindow = .ok (m.addSample last stats) := by
      have hshort : ¬ (m.addSample last stats).window <
          (m.addSample last stats).dl_samples.length := by
        rw [← hm.window_eq] at hlen
        exact hlen
      rw [InterfaceMonitor.moveWindow, if_neg hshort]
    exact ⟨_, hmove, hm.iface_eq, hm.window_eq, hm.max_dl_eq, hm.max_ul_eq, hend, hdlTrim, hulTrim⟩

theorem Window.length_dl (hm : Window iface window max_dl max_ul counters m) :
    m.dl_samples.length = min (counters.length - 1) window := by
  rw [hm.dl_eq, length_rtake, length_bits, List.length_map]

theorem Window.length_ul (hm : Window iface window max_dl max_ul counters m) :
    m.ul_samples.length = min (counters.length - 1) window := by
  rw [hm.ul_eq, length_rtake, length_bits, List.length_map]

/-- With two readings there is a sample to average. -/
theorem calculate_published (hw : 0 < window) (hm : Window iface window max_dl max_ul counters m)
    (hlen : 2 ≤ counters.length) : ∃ m', m.calculate = .ok m' ∧
      Window iface window max_dl max_ul counters m' ∧ Published max_dl max_ul m' := by
  have hdl : m.dl_samples.length ≠ 0 := by
    rw [hm.length_dl]
    omega
  have hul : m.ul_samples.length ≠ 0 := by
    rw [hm.length_ul]
    omega
  have hcalc : m.calculate = .ok { m with
      cur_dl := some (meanRate m.dl_samples)
      cur_ul := some (meanRate m.ul_samples)
      available_dl := some (max_dl - meanRate m.dl_samples)
      available_ul := some (max_ul - meanRate m.ul_samples) } := by
    rw [InterfaceMonitor.calculate, average_eq hdl, average_eq hul, hm.max_dl_eq, hm.max_ul_eq]
    rfl
  refine ⟨_, hcalc, ?_, ⟨rfl, rfl, rfl, rfl⟩⟩
  exact ⟨hm.iface_eq, hm.window_eq, hm.max_dl_eq, hm.max_ul_eq, hm.lastStats_eq, hm.dl_eq, hm.ul_eq⟩

/-- One reading more. -/
theorem monitor_step (hw : 0 < window) (hm : Window iface window max_dl max_ul counters m)
    {reading : String → Option Counters} (hreading : reading iface = some stats) :
    ∃ m', m.monitor_iface_speed reading = .ok m' ∧
      Window iface window max_dl max_ul (counters ++ [stats]) m' ∧
      (counters ≠ [] → Published max_dl max_ul m') := by
  cases hlast : counters.getLast? with
  | none =>
    have hnil : counters = [] := List.getLast?_eq_none_iff.mp hlast
    subst hnil
    refine ⟨{ m with lastStats := some stats }, ?_, ?_, fun h => absurd rfl h⟩
    · rw [InterfaceMonitor.monitor_iface_speed, hm.iface_eq, hreading, hm.lastStats_eq]
      rfl
    · exact ⟨hm.iface_eq, hm.window_eq, hm.max_dl_eq, hm.max_ul_eq, rfl, hm.dl_eq, hm.ul_eq⟩
  | some last =>
    obtain ⟨m₁, hmove, hm₁⟩ := moveWindow_addSample hw hm hlast stats
    have hlen : 2 ≤ (counters ++ [stats]).length := by
      have hpos : 0 < counters.length :=
        List.length_pos_of_mem (List.mem_of_getLast? hlast)
      rw [List.length_append, List.length_singleton]
      omega
    obtain ⟨m₂, hcalc, hm₂, hpub⟩ := calculate_published hw hm₁ hlen
    refine ⟨m₂, ?_, hm₂, fun _ => hpub⟩
    rw [InterfaceMonitor.monitor_iface_speed, hm.iface_eq, hreading, hm.lastStats_eq, hlast]
    change ((m.addSample last stats).moveWindow).bind _ = _
    rw [hmove]
    exact hcalc

/-- All readings, from the monitor that has none. -/
theorem run_window (hw : 0 < window) (max_dl max_ul : ℤ) (counters : List Counters)
    (readings : List (String → Option Counters))
    (hread : readings.map (fun stats => stats iface) = counters.map some) :
    ∃ m, (measured iface window max_dl max_ul).run readings = .ok m ∧
      Window iface window max_dl max_ul counters m ∧
      (2 ≤ counters.length → Published max_dl max_ul m) := by
  induction counters using List.reverseRecOn generalizing readings with
  | nil =>
    have hnil : readings = [] := List.map_eq_nil_iff.mp hread
    subst hnil
    have hempty : (bits []).rtake window = [] := List.rtake_nil window
    exact ⟨_, rfl, ⟨rfl, rfl, rfl, rfl, rfl, hempty.symm, hempty.symm⟩, fun h => absurd h (by simp)⟩
  | append_singleton counters stats ih =>
    rw [List.map_append] at hread
    obtain ⟨before, now, hsplit, hbefore, hnow⟩ := List.map_eq_append_iff.mp hread
    obtain ⟨reading, hreading, hstats⟩ := List.map_eq_singleton_iff.mp hnow
    obtain ⟨m, hrun, hm, -⟩ := ih before hbefore
    obtain ⟨m', hstep, hm', hpub⟩ := monitor_step hw hm hstats
    refine ⟨m', ?_, hm', ?_⟩
    · rw [hsplit, hreading, InterfaceMonitor.run, List.foldlM_append]
      change ((measured iface window max_dl max_ul).run before).bind _ = _
      rw [hrun]
      change (m.monitor_iface_speed reading).bind _ = _
      rw [hstep]
      rfl
    · intro hlen
      apply hpub
      rintro rfl
      simp at hlen

/-- The sums span the window, and so does the mean. -/
theorem meanRate_eq {counter : List ℤ} {a b : ℤ} {w : ℕ} (hb : counter.getLast? = some b)
    (ha : counter[counter.length - 1 - min (counter.length - 1) w]? = some a) :
    meanRate ((bits counter).rtake w) =
      ⌊(8 * (b - a) : ℚ) / (min (counter.length - 1) w : ℕ)⌋ := by
  rw [meanRate, sum_rtake_bits hb ha, length_rtake, length_bits]
  push_cast
  rfl

/-- After the last of at least two readings both windows have the differences of the last
readings, their sums span the counters at both ends of the window, and the published rates
are the averages over it. -/
theorem traffic_window (iface : String) (window : ℕ) (hw : 1 ≤ window) (max_dl max_ul : ℤ)
    (counters : List Counters) (hlen : 2 ≤ counters.length)
    (readings : List (String → Option Counters))
    (hread : readings.map (fun stats => stats iface) = counters.map some) :
    ∃ m latest earlier, (measured iface window max_dl max_ul).run readings = .ok m ∧
      counters[counters.length - 1]? = some latest ∧
      counters[counters.length - 1 - min (counters.length - 1) window]? = some earlier ∧
      m.dl_samples.length = min (counters.length - 1) window ∧
      m.ul_samples.length = min (counters.length - 1) window ∧
      m.dl_samples.sum = 8 * (latest.bytes_recv - earlier.bytes_recv) ∧
      m.ul_samples.sum = 8 * (latest.bytes_sent - earlier.bytes_sent) ∧
      m.cur_dl = some ⌊(8 * (latest.bytes_recv - earlier.bytes_recv) : ℚ) /
        (min (counters.length - 1) window : ℕ)⌋ ∧
      m.cur_ul = some ⌊(8 * (latest.bytes_sent - earlier.bytes_sent) : ℚ) /
        (min (counters.length - 1) window : ℕ)⌋ ∧
      m.available_dl = m.cur_dl.map (fun cur_dl => max_dl - cur_dl) ∧
      m.available_ul = m.cur_ul.map (fun cur_ul => max_ul - cur_ul) := by
  obtain ⟨m, hrun, hm, hpub⟩ := run_window hw max_dl max_ul counters readings hread
  have hp := hpub hlen
  have hend : counters.length - 1 < counters.length := by omega
  have hstart : counters.length - 1 - min (counters.length - 1) window < counters.length := by
    omega
  obtain ⟨latest, hlatest⟩ : ∃ latest, counters[counters.length - 1]? = some latest :=
    ⟨_, List.getElem?_eq_getElem hend⟩
  obtain ⟨earlier, hearlier⟩ :
      ∃ earlier, counters[counters.length - 1 - min (counters.length - 1) window]? = some earlier :=
    ⟨_, List.getElem?_eq_getElem hstart⟩
  -- both counters are read off the same two readings
  have hat : ∀ f : Counters → ℤ, (counters.map f).getLast? = some (f latest) ∧
      (counters.map f)[(counters.map f).length - 1 -
        min ((counters.map f).length - 1) window]? = some (f earlier) := by
    intro f
    rw [List.getLast?_map, List.getLast?_eq_getElem?, hlatest, List.length_map, List.getElem?_map,
      hearlier]
    exact ⟨rfl, rfl⟩
  obtain ⟨hrecv, hrecv'⟩ := hat Counters.bytes_recv
  obtain ⟨hsent, hsent'⟩ := hat Counters.bytes_sent
  refine ⟨m, latest, earlier, hrun, hlatest, hearlier, hm.length_dl, hm.length_ul, ?_, ?_, ?_, ?_,
    ?_, ?_⟩
  · rw [hm.dl_eq, sum_rtake_bits hrecv hrecv']
  · rw [hm.ul_eq, sum_rtake_bits hsent hsent']
  · rw [hp.cur_dl_eq, hm.dl_eq, meanRate_eq hrecv hrecv', List.length_map]
  · rw [hp.cur_ul_eq, hm.ul_eq, meanRate_eq hsent hsent', List.length_map]
  · rw [hp.available_dl_eq, hp.cur_dl_eq]
    rfl
  · rw [hp.available_ul_eq, hp.cur_ul_eq]
    rfl

/-- The counter of an interface that is read three times with a window of one sample. -/
def threeReadings : List Counters := [⟨0, 100⟩, ⟨10, 180⟩, ⟨30, 205⟩]

theorem traffic_window_three : ∃ m : InterfaceMonitor,
    (measured "eth0" 1 1000 1000).run (threeReadings.map (fun c _ => some c)) = .ok m ∧
      m.dl_samples.length = 1 ∧ m.dl_samples.sum = 200 := by
  obtain ⟨m, latest, earlier, hrun, hlatest, hearlier, hdl, -, hsum, -⟩ := traffic_window "eth0" 1
    le_rfl 1000 1000 threeReadings (by decide) (threeReadings.map (fun c _ => some c)) rfl
  cases hlatest
  cases hearlier
  exact ⟨m, hrun, hdl, hsum⟩

end Nxwlan.IfaceMon
