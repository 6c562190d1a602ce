import CyreneReactor.Data.Interpolation
import CyreneReactor.Data.Window
import CyreneReactor.Runtime.Telemetry
import Mathlib.Data.List.Induction
import Mathlib.Tactic.Ring

namespace CyreneReactor.Runtime

open Interpolation

/-! The percentiles of a snapshot are in order, and lie within the latencies of the window. -/

/-- A position that is not negative is the index it is cut off to, and a fraction. -/
theorem int_spec {value : Rat} (positive : 0 ≤ value) :
    ∃ index : Nat, int value = index ∧ (index : Rat) ≤ value ∧ value < index + 1 := by
  have numerator : 0 ≤ value.num := Rat.num_nonneg.mpr positive
  have denominator : (0 : Int) < value.den := by exact_mod_cast value.den_pos
  obtain ⟨index, whole⟩ := Int.eq_ofNat_of_zero_le (Int.ediv_nonneg numerator denominator.le)
  have division := Int.mul_ediv_add_emod value.num value.den
  have rest := Int.emod_nonneg value.num denominator.ne'
  have small := Int.emod_lt_of_pos value.num denominator
  have quotient : value = (value.num : Rat) / value.den := (Rat.num_div_den value).symm
  have scale : (0 : Rat) < value.den := by exact_mod_cast value.den_pos
  refine ⟨index, ?_, ?_, ?_⟩
  · rw [int, Int.tdiv_eq_ediv_of_nonneg numerator, whole]
  · rw [quotient, le_div_iff₀ scale]
    have bound : (index : Int) * value.den ≤ value.num := by
      rw [whole] at division
      linarith
    exact_mod_cast bound
  · rw [quotient, div_lt_iff₀ scale]
    have bound : value.num < ((index : Int) + 1) * value.den := by
      rw [whole] at division
      linarith
    exact_mod_cast bound

theorem subscript_of_nonneg (values : List Rat) {index : Nat} (inside : index < values.length) :
    subscript values index = .ok (values.get ⟨index, inside⟩) := by
  have place : ¬ (index : Int) < 0 := by omega
  simp only [subscript, place, if_false, Int.toNat_natCast, List.getElem?_eq_getElem inside,
    List.get_eq_getElem]

/-- Both indices are places of the list. -/
def InRange (samples : List Rat) (p : Rat) : Prop :=
  (0 ≤ lower samples p ∧ lower samples p < samples.length) ∧
    0 ≤ upper samples p ∧ upper samples p < samples.length

section Samples

variable {samples : List Rat} {p q : Rat}

theorem position_nonneg (entries : samples ≠ []) (low : 0 ≤ p) : 0 ≤ position samples p := by
  have length : (1 : Rat) ≤ samples.length := by
    exact_mod_cast List.length_pos_of_ne_nil entries
  have product := mul_nonneg (sub_nonneg.mpr length) low
  unfold position
  linarith

theorem position_mono (entries : samples ≠ []) (further : p ≤ q) :
    position samples p ≤ position samples q := by
  have length : (1 : Rat) ≤ samples.length := by
    exact_mod_cast List.length_pos_of_ne_nil entries
  have product := mul_le_mul_of_nonneg_left further (sub_nonneg.mpr length)
  unfold position
  linarith

theorem position_le (entries : samples ≠ []) (high : p ≤ 100) :
    position samples p ≤ (samples.length : Rat) - 1 := by
  have last := position_mono entries high
  have whole : position samples 100 = (samples.length : Rat) - 1 := by
    unfold position
    ring
  rwa [whole] at last

/-- A percentile is read at its position, which no index leaves. -/
theorem percentile_reads (entries : samples ≠ []) (low : 0 ≤ p) (high : p ≤ 100) :
    InRange samples p ∧ ∃ value index weight, percentile samples p = .ok value ∧
      Reads samples (position samples p) value index weight := by
  have length := List.length_pos_of_ne_nil entries
  obtain ⟨index, truncated, below, above⟩ := int_spec (position_nonneg entries low)
  have inside : index < samples.length := by
    have bound : (index : Rat) ≤ (samples.length : Rat) - 1 := below.trans (position_le entries high)
    have next : (index : Rat) + 1 ≤ samples.length := by linarith
    exact_mod_cast next
  have lower_eq : lower samples p = index := truncated
  have upper_eq : upper samples p = (min (index + 1) (samples.length - 1) : Nat) := by
    unfold upper
    rw [lower_eq]
    omega
  have reach : min (index + 1) (samples.length - 1) < samples.length := by omega
  refine ⟨⟨⟨?_, ?_⟩, ?_, ?_⟩, _, index, position samples p - index, ?_, inside, ?_, ?_, ?_,
    samples.get ⟨index, inside⟩, samples.get ⟨_, reach⟩, ?_, ?_, rfl⟩
  · omega
  · omega
  · omega
  · omega
  · rw [percentile, if_neg entries, lower_eq, upper_eq, subscript_of_nonneg samples inside,
      subscript_of_nonneg samples reach]
    rfl
  · ring
  · linarith
  · linarith
  · exact List.getElem?_eq_getElem inside
  · exact List.getElem?_eq_getElem reach

end Samples

/-- The law of one list. -/
structure PercentileLaw (samples : List Rat) (entries : samples ≠ []) (p q : Rat) : Prop where
  inRange : InRange samples p ∧ InRange samples q
  ordered : ∃ low high, percentile samples p = .ok low ∧ percentile samples q = .ok high ∧
    samples.head entries ≤ low ∧ low ≤ high ∧ high ≤ samples.getLast entries

theorem percentileLaw {samples : List Rat} {p q : Rat} (sorted : samples.Pairwise (· ≤ ·))
    (entries : samples ≠ []) (positive : 0 ≤ p) (further : p ≤ q) (bounded : q ≤ 100) :
    PercentileLaw samples entries p q := by
  obtain ⟨inRange, low, _, _, first, reads⟩ :=
    percentile_reads entries positive (further.trans bounded)
  obtain ⟨inRange', high, _, _, second, reads'⟩ :=
    percentile_reads entries (positive.trans further) bounded
  have between := reads.mono reads' sorted (position_mono entries further)
  exact ⟨⟨inRange, inRange'⟩, low, high, first, second, (reads.bounds sorted entries).1, between,
    (reads'.bounds sorted entries).2⟩

/-- A snapshot is in order, from the least sample of the window to the greatest. -/
def Snapshot.Ordered (snapshot : Snapshot) (samples : List Rat) : Prop :=
  ∃ least ∈ samples, ∃ greatest ∈ samples, (∀ sample ∈ samples, least ≤ sample ∧ sample ≤ greatest) ∧
    least * 1000 ≤ snapshot.latencyP50Ms ∧ snapshot.latencyP50Ms ≤ snapshot.latencyP95Ms ∧
    snapshot.latencyP95Ms ≤ snapshot.latencyP99Ms ∧ snapshot.latencyP99Ms ≤ greatest * 1000

namespace Telemetry

/-- The latencies that are recorded once a call is over. -/
def recordedAfter (recorded : List Rat) : Call → List Rat
  | .trackRequestEnd latencySeconds _ => recorded ++ [latencySeconds]
  | .reset => []
  | .trackRequestStart | .trackTokenGenerated _ => recorded

/-- The latencies recorded since the last reset, in their order. -/
def recorded (calls : List Call) : List Rat := calls.foldl recordedAfter []

/-- The samples of a snapshot: the last 512 recorded latencies. -/
def window (calls : List Call) : List Rat := Window.last maxLatencies (recorded calls)

theorem trackRequestEnd_latencies (telemetry : Telemetry) (latencySeconds : Rat) (success : Bool) :
    (telemetry.trackRequestEnd latencySeconds success).latencies =
      Window.last maxLatencies (telemetry.latencies ++ [latencySeconds]) := by
  rw [trackRequestEnd, append, Window.last, List.length_append, List.length_singleton]

/-- One call keeps the window. -/
theorem answer_latencies {telemetry : Telemetry} {recorded : List Rat}
    (kept : telemetry.latencies = Window.last maxLatencies recorded) (call : Call) :
    (telemetry.answer call).latencies = Window.last maxLatencies (recordedAfter recorded call) := by
  cases call with
  | trackRequestStart | trackTokenGenerated tokens => exact kept
  | trackRequestEnd latencySeconds success =>
      rw [answer, trackRequestEnd_latencies, kept, Window.last_append, recordedAfter]
  | reset => exact (Window.last_nil maxLatencies).symm

theorem after_latencies (calls : List Call) : (after calls).latencies = window calls := by
  induction calls using List.reverseRecOn with
  | nil => exact (Window.last_nil maxLatencies).symm
  | append_singleton calls call ih =>
      have step := answer_latencies ih call
      simpa only [after, window, recorded, List.foldl_append, List.foldl_cons, List.foldl_nil]
        using step

theorem sortedLatencies_spec (telemetry : Telemetry) :
    telemetry.sortedLatencies.Pairwise (· ≤ ·) ∧
      telemetry.sortedLatencies.Perm telemetry.latencies := by
  constructor
  · have transitive : ∀ first second third : Rat, decide (first ≤ second) = true →
        decide (second ≤ third) = true → decide (first ≤ third) = true := by
      intro first second third before after
      rw [decide_eq_true_eq] at before after ⊢
      exact before.trans after
    have total : ∀ first second : Rat,
        (decide (first ≤ second) || decide (second ≤ first)) = true := by
      intro first second
      rw [Bool.or_eq_true, decide_eq_true_eq, decide_eq_true_eq]
      exact le_total first second
    have sorted := List.pairwise_mergeSort transitive total telemetry.latencies
    exact sorted.imp fun before => of_decide_eq_true before
  · exact List.mergeSort_perm _ _

/-- What a snapshot shows of an instance with latencies. -/
theorem snapshot_ordered {telemetry : Telemetry} {samples : List Rat}
    (kept : telemetry.latencies = samples) (entries : samples ≠ []) :
    ∃ snapshot, telemetry.snapshot = .ok snapshot ∧ snapshot.Ordered samples := by
  obtain ⟨sorted, perm⟩ := telemetry.sortedLatencies_spec
  rw [kept] at perm
  have some : telemetry.sortedLatencies ≠ [] := by
    intro none
    rw [none] at perm
    exact entries perm.nil_eq.symm
  obtain ⟨_, p50, p95, first, second, above, middle, _⟩ :=
    percentileLaw (p := 50) (q := 95) sorted some (by norm_num) (by norm_num) (by norm_num)
  obtain ⟨_, p95', p99, second', third, _, late, below⟩ :=
    percentileLaw (p := 95) (q := 99) sorted some (by norm_num) (by norm_num) (by norm_num)
  rw [second, Except.ok.injEq] at second'
  subst second'
  have scale : (0 : Rat) ≤ 1000 := by norm_num
  have shown : telemetry.snapshot = .ok ⟨telemetry.requestsInflight, telemetry.requestsSuccess,
      telemetry.requestsFailed, average telemetry.sortedLatencies * 1000, p50 * 1000, p95 * 1000,
      p99 * 1000, telemetry.tokensTotal⟩ := by
    simp only [snapshot, first, second, third]
    rfl
  refine ⟨_, shown, telemetry.sortedLatencies.head some, ?_,
    telemetry.sortedLatencies.getLast some, ?_, ?_,
    mul_le_mul_of_nonneg_right above scale, mul_le_mul_of_nonneg_right middle scale,
    mul_le_mul_of_nonneg_right late scale, mul_le_mul_of_nonneg_right below scale⟩
  · exact perm.mem_iff.mp (List.head_mem some)
  · exact perm.mem_iff.mp (List.getLast_mem some)
  · intro sample member
    exact mem_bounds sorted some (perm.mem_iff.mpr member)

/-- The percentile law, of lists and of the snapshots of every run. -/
theorem latency_percentiles_are_ordered :
    (∀ (samples : List Rat) (entries : samples ≠ []), samples.Pairwise (· ≤ ·) →
      ∀ p q, 0 ≤ p → p ≤ q → q ≤ 100 → PercentileLaw samples entries p q) ∧
    ∀ calls, window calls ≠ [] →
      ∃ snapshot, (after calls).snapshot = .ok snapshot ∧ snapshot.Ordered (window calls) := by
  constructor
  · intro samples entries sorted p q positive further bounded
    exact percentileLaw sorted entries positive further bounded
  · intro calls entries
    exact snapshot_ordered (after_latencies calls) entries

theorem latency_percentiles_are_ordered_sample :
    PercentileLaw [1, 3] (by simp) 50 95 ∧
      ∃ snapshot, (after [.trackRequestEnd 3 true, .trackRequestEnd 1 false]).snapshot =
        .ok snapshot ∧ snapshot.Ordered [3, 1] := by
  constructor
  · exact latency_percentiles_are_ordered.1 [1, 3] (by simp) (by norm_num) 50 95 (by norm_num)
      (by norm_num) (by norm_num)
  · have samples : window [.trackRequestEnd 3 true, .trackRequestEnd 1 false] = [3, 1] := by rfl
    rw [← samples]
    exact latency_percentiles_are_ordered.2 _ (by rw [samples]; simp)

end Telemetry

end CyreneReactor.Runtime
