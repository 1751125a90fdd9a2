import TelegramServer.Audit.Migration
import TelegramServer.Lib.Grouping
import TelegramServer.Registry.Database
import Mathlib.Data.Rat.Floor
import Mathlib.Algebra.Order.Field.Basic

/-!
The delivery latencies of the dashboard. `DeliveryLatency` summarises them and
`LatencySamples` lists them, each with a query of its own: one groups the deliveries
of a trace, the other keeps the newest of them. What both are about is said once in
`Measured`, in terms of the rows of the log alone.

A duration in seconds is a rational number here; the conversion to `float64` on the way
to Go is left out.
-/

namespace TelegramServer.Adminui

open Go Lib Registry Audit

def hour : ℤ := 3600 * second

/-- `EXTRACT(EPOCH FROM ...)` of a difference of times. -/
def epoch (d : ℤ) : ℚ := d / second

/-! ### The queries -/

/-- What the queries read of a row. -/
structure TraceRow where
  traceID : String
  /-- The column `at`. -/
  time : Time
  appID : Option String

/-- `WHERE stage = ... AND trace_id IS NOT NULL AND at >= ...`. -/
def traceRow (stage : Stage) (since : Time) (row : AuditRow Bytes) : Option TraceRow :=
  match row.cols.traceID with
  | none => none
  | some traceID =>
      if row.cols.stage = some stage.text ∧ since ≤ row.cols.time then
        some ⟨traceID, row.cols.time, row.cols.appID⟩
      else none

/-- The rows of one stage, in the order the scan finds them. -/
def traceRows (planner : Planner) (stage : Stage) (since : Time) (log : List (AuditRow Bytes)) :
    List TraceRow :=
  planner.arrange (log.filterMap (traceRow stage since))

/-- The CTE `recv`, which both queries have. -/
def recv (planner : Planner) (now : Time) (log : List (AuditRow Bytes)) : List (String × Time) :=
  groupBy TraceRow.traceID (fun group => (group.map TraceRow.time).min?)
    (traceRows planner .received (now - 25 * hour) log)

/-- The CTE `deliv` of `DeliveryLatency`. -/
def lastDelivered (planner : Planner) (now : Time) (log : List (AuditRow Bytes)) :
    List (String × Time) :=
  groupBy TraceRow.traceID (fun group => (group.map TraceRow.time).max?)
    (traceRows planner .delivered (now - 24 * hour) log)

/-- The rows of `lat`, before the difference is taken. -/
def pairedLatencies (planner : Planner) (now : Time) (log : List (AuditRow Bytes)) :
    List ((String × Time) × (String × Time)) :=
  (innerJoin Prod.fst Prod.fst (lastDelivered planner now log) (recv planner now log)).filter
    fun p => p.2.2 ≤ p.1.2

/-- The CTE `lat`. -/
def lat (planner : Planner) (now : Time) (log : List (AuditRow Bytes)) : List ℚ :=
  (pairedLatencies planner now log).map fun p => epoch (p.1.2 - p.2.2)

/-- `percentile_cont(fraction) WITHIN GROUP (ORDER BY ...)`, NULL where there is no row. -/
def percentileCont (fraction : ℚ) (l : List ℚ) : Option ℚ :=
  let sorted := sortBy id l
  let pos := fraction * (l.length - 1 : ℚ)
  match sorted[pos.floor.toNat]?, sorted[pos.ceil.toNat]? with
  | some lo, some hi => some (lo + (hi - lo) * (pos - pos.floor))
  | _, _ => none

structure LatencyStats where
  count : ℕ
  p50 : ℚ
  p95 : ℚ
  max : ℚ

/-- The outer `SELECT` of `DeliveryLatency`. -/
def latencyStats (secs : List ℚ) : LatencyStats where
  count := secs.length
  p50 := (percentileCont (1 / 2) secs).getD 0
  p95 := (percentileCont (95 / 100) secs).getD 0
  max := secs.max?.getD 0

def deliveryLatency (planner : Planner) (now : Time) (log : List (AuditRow Bytes)) : LatencyStats :=
  latencyStats (lat planner now log)

structure LatencySample where
  appID : String
  secs : ℚ

/-- The CTE `deliv` of `LatencySamples`. -/
def newestDelivered (planner : Planner) (now : Time) (log : List (AuditRow Bytes)) :
    List TraceRow :=
  distinctOn TraceRow.traceID (newestFirst TraceRow.traceID TraceRow.time
    (traceRows planner .delivered (now - 24 * hour) log))

def joinedSamples (planner : Planner) (now : Time) (log : List (AuditRow Bytes)) :
    List (TraceRow × (String × Time)) :=
  (innerJoin TraceRow.traceID Prod.fst (newestDelivered planner now log)
    (recv planner now log)).filter fun p => p.2.2 ≤ p.1.time

/-- The rows of `LatencySamples` before the limit: `ORDER BY d.delivered_at DESC`. -/
def pairedSamples (planner : Planner) (now : Time) (log : List (AuditRow Bytes)) :
    List (TraceRow × (String × Time)) :=
  descending (fun p => p.1.time) (planner.arrange (joinedSamples planner now log))

def latencySample (p : TraceRow × (String × Time)) : LatencySample where
  appID := p.1.appID.getD ""
  secs := epoch (p.1.time - p.2.2)

/-- `LatencySamples`. A negative `LIMIT` is an error. -/
def latencySamples (planner : Planner) (now : Time) (log : List (AuditRow Bytes)) (limit : ℤ) :
    Option (List LatencySample) :=
  if limit < 0 then none
  else some (((pairedSamples planner now log).take limit.toNat).map latencySample)

/-! ### What is measured -/

/-- The times of the rows of one stage and trace. -/
def stageTimes (log : List (AuditRow Bytes)) (stage : Stage) (since : Time) (traceID : String) :
    Set Time :=
  {t | ∃ row ∈ log, row.cols.stage = some stage.text ∧ row.cols.traceID = some traceID ∧
    since ≤ row.cols.time ∧ row.cols.time = t}

/-- The trace was delivered last at `d` and received first at `r`, and not before that. -/
structure Measured (now : Time) (log : List (AuditRow Bytes)) (traceID : String) (d r : Time) :
    Prop where
  delivered : IsGreatest (stageTimes log .delivered (now - 24 * hour) traceID) d
  received : IsLeast (stageTimes log .received (now - 25 * hour) traceID) r
  ordered : r ≤ d

def Qualifies (now : Time) (log : List (AuditRow Bytes)) (traceID : String) : Prop :=
  ∃ d r, Measured now log traceID d r

/-- The sample is that of the trace. -/
def SampleOf (now : Time) (log : List (AuditRow Bytes)) (traceID : String) (s : LatencySample) :
    Prop :=
  ∃ d r, Measured now log traceID d r ∧ s.secs * 10 ^ 9 = (d - r : ℤ)

/-- Both queries are about the traces that qualify. They may be planned differently. -/
structure SamePopulation (planner planner' : Planner) (now : Time) (log : List (AuditRow Bytes)) :
    Prop where
  /-- A limit that is high enough. -/
  complete : ∀ limit : ℤ, (deliveryLatency planner now log).count ≤ limit → ∃ samples,
    latencySamples planner' now log limit = some samples ∧
      (samples.map LatencySample.secs).Perm (lat planner now log) ∧
      deliveryLatency planner now log = latencyStats (samples.map LatencySample.secs)
  count : (deliveryLatency planner now log).count = (lat planner now log).length
  /-- The maximum is one of the latencies, or 0. -/
  max : (lat planner now log = [] → (deliveryLatency planner now log).max = 0) ∧
    (lat planner now log ≠ [] →
      IsGreatest {x | x ∈ lat planner now log} (deliveryLatency planner now log).max)
  nonneg : ∀ limit samples, latencySamples planner' now log limit = some samples →
    ∀ s ∈ samples, 0 ≤ s.secs
  /-- One sample for each trace that qualifies; those beyond the limit are not newer. -/
  traces : ∀ limit samples, latencySamples planner' now log limit = some samples →
    ∃ kept omitted : List String, (kept ++ omitted).Nodup ∧
      (∀ traceID, traceID ∈ kept ++ omitted ↔ Qualifies now log traceID) ∧
      List.Forall₂ (SampleOf now log) kept samples ∧
      (kept.length : ℤ) = min limit (deliveryLatency planner now log).count ∧
      ∀ t ∈ kept, ∀ t' ∈ omitted, ∀ d r d' r', Measured now log t d r →
        Measured now log t' d' r' → d' ≤ d

section Queries

variable {now since : Time} {log : List (AuditRow Bytes)} {stage : Stage}
  {traceID : String} {d r : Time}

theorem Measured.unique {d' r' : Time} (h : Measured now log traceID d r)
    (h' : Measured now log traceID d' r') : d = d' ∧ r = r' :=
  ⟨h.delivered.unique h'.delivered, h.received.unique h'.received⟩

theorem column_traceRows (planner : Planner) :
    column TraceRow.traceID TraceRow.time (traceRows planner stage since log) traceID =
      stageTimes log stage since traceID := by
  rw [traceRows, column_perm (planner.perm _)]
  ext t
  simp only [column, stageTimes, Set.mem_ofPred_eq, List.mem_filterMap, traceRow]
  constructor
  · rintro ⟨a, ⟨row, hrow, ha⟩, rfl, rfl⟩
    split at ha
    · cases ha
    · next traceID htrace =>
        split at ha
        · next hwhere =>
            obtain rfl := Option.some.inj ha
            exact ⟨row, hrow, hwhere.1, htrace, hwhere.2, rfl⟩
        · cases ha
  · rintro ⟨row, hrow, hstage, htrace, hsince, rfl⟩
    refine ⟨⟨traceID, row.cols.time, row.cols.appID⟩, ⟨row, hrow, ?_⟩, rfl, rfl⟩
    rw [htrace]
    exact if_pos ⟨hstage, hsince⟩

variable {planner planner' : Planner}

theorem mem_recv :
    (traceID, r) ∈ recv planner now log ↔
      IsLeast (stageTimes log .received (now - 25 * hour) traceID) r := by
  rw [recv, mem_groupBy_min, column_traceRows]

theorem mem_lastDelivered :
    (traceID, d) ∈ lastDelivered planner now log ↔
      IsGreatest (stageTimes log .delivered (now - 24 * hour) traceID) d := by
  rw [lastDelivered, mem_groupBy_max, column_traceRows]

theorem exists_mem_newestDelivered (planner : Planner) :
    (∃ row ∈ newestDelivered planner now log, row.traceID = traceID ∧ row.time = d) ↔
      IsGreatest (stageTimes log .delivered (now - 24 * hour) traceID) d := by
  rw [newestDelivered, exists_mem_distinctOn_iff, column_traceRows]

/-- The trace and the two times of a row of `lat`. -/
def latSpan (p : (String × Time) × (String × Time)) : String × Time × Time :=
  (p.1.1, p.1.2, p.2.2)

def sampleSpan (p : TraceRow × (String × Time)) : String × Time × Time :=
  (p.1.traceID, p.1.time, p.2.2)

theorem mem_map_latSpan :
    (traceID, d, r) ∈ (pairedLatencies planner now log).map latSpan ↔
      Measured now log traceID d r := by
  simp only [List.mem_map, pairedLatencies, List.mem_filter, mem_innerJoin, decide_eq_true_eq]
  constructor
  · rintro ⟨⟨⟨t, d'⟩, t', r'⟩, ⟨⟨hd, hr, heq⟩, hle⟩, hspan⟩
    obtain ⟨rfl, rfl, rfl⟩ : t = traceID ∧ d' = d ∧ r' = r := by simpa [latSpan] using hspan
    obtain rfl : t = t' := heq
    exact ⟨mem_lastDelivered.mp hd, mem_recv.mp hr, hle⟩
  · intro h
    exact ⟨((traceID, d), (traceID, r)),
      ⟨⟨mem_lastDelivered.mpr h.delivered, mem_recv.mpr h.received, rfl⟩, h.ordered⟩, rfl⟩

theorem pairedSamples_perm :
    (pairedSamples planner now log).Perm (joinedSamples planner now log) :=
  (descending_perm _ _).trans (planner.perm _)

theorem mem_map_sampleSpan :
    (traceID, d, r) ∈ (pairedSamples planner now log).map sampleSpan ↔
      Measured now log traceID d r := by
  simp only [List.mem_map, pairedSamples_perm.mem_iff, joinedSamples, List.mem_filter,
    mem_innerJoin, decide_eq_true_eq]
  constructor
  · rintro ⟨⟨row, t', r'⟩, ⟨⟨hd, hr, heq⟩, hle⟩, hspan⟩
    obtain ⟨rfl, rfl, rfl⟩ : row.traceID = traceID ∧ row.time = d ∧ r' = r := by
      simpa [sampleSpan] using hspan
    obtain rfl : row.traceID = t' := heq
    exact ⟨(exists_mem_newestDelivered planner).mp ⟨row, hd, rfl, rfl⟩, mem_recv.mp hr, hle⟩
  · intro h
    obtain ⟨row, hrow, rfl, rfl⟩ := (exists_mem_newestDelivered planner).mpr h.delivered
    exact ⟨(row, (row.traceID, r)), ⟨⟨hrow, mem_recv.mpr h.received, rfl⟩, h.ordered⟩, rfl⟩

theorem measured_of_mem {p : TraceRow × (String × Time)} (h : p ∈ pairedSamples planner now log) :
    Measured now log p.1.traceID p.1.time p.2.2 :=
  mem_map_sampleSpan.mp (List.mem_map_of_mem h)

theorem nodup_map_latSpan : ((pairedLatencies planner now log).map latSpan).Nodup := by
  refine List.Nodup.of_map Prod.fst ?_
  rw [List.map_map]
  exact (nodup_innerJoin nodup_groupBy nodup_groupBy).sublist (List.filter_sublist.map _)

theorem nodup_traces : ((pairedSamples planner now log).map fun p => p.1.traceID).Nodup := by
  refine (pairedSamples_perm.map _).nodup_iff.mpr ?_
  exact (nodup_innerJoin nodup_distinctOn nodup_groupBy).sublist (List.filter_sublist.map _)

theorem nodup_map_sampleSpan : ((pairedSamples planner now log).map sampleSpan).Nodup := by
  refine List.Nodup.of_map Prod.fst ?_
  rw [List.map_map]
  exact nodup_traces

/-- The two queries pair the same times. -/
theorem map_sampleSpan_perm (planner planner' : Planner) (now : Time)
    (log : List (AuditRow Bytes)) :
    ((pairedSamples planner' now log).map sampleSpan).Perm
      ((pairedLatencies planner now log).map latSpan) := by
  rw [List.perm_ext_iff_of_nodup nodup_map_sampleSpan nodup_map_latSpan]
  rintro ⟨traceID, d, r⟩
  rw [mem_map_sampleSpan, mem_map_latSpan]

theorem secs_perm :
    (((pairedSamples planner' now log).map latencySample).map LatencySample.secs).Perm
      (lat planner now log) := by
  have hmap := (map_sampleSpan_perm planner planner' now log).map
    fun span => epoch (span.2.1 - span.2.2)
  rw [List.map_map, List.map_map] at hmap
  rw [List.map_map]
  exact hmap

/-- The summary does not depend on the order of the latencies. -/
theorem latencyStats_congr {l l' : List ℚ} (h : l.Perm l') : latencyStats l = latencyStats l' := by
  have hsort : sortBy id l = sortBy id l' := by
    refine List.Perm.eq_of_pairwise (fun a b _ _ => le_antisymm) (pairwise_sortBy id l)
      (pairwise_sortBy id l') ?_
    exact (sortBy_perm id l).trans (h.trans (sortBy_perm id l').symm)
  have hmax : l.max? = l'.max? := by
    ext x
    rw [List.max?_eq_some_iff, List.max?_eq_some_iff]
    simp only [h.mem_iff]
  simp only [latencyStats, percentileCont, hsort, hmax, h.length_eq]

theorem count_deliveryLatency (planner planner' : Planner) (now : Time)
    (log : List (AuditRow Bytes)) :
    (deliveryLatency planner now log).count = (pairedSamples planner' now log).length := by
  have hlength := (map_sampleSpan_perm planner planner' now log).length_eq
  rw [List.length_map, List.length_map] at hlength
  rw [hlength]
  exact List.length_map ..

theorem epoch_nonneg {d : ℤ} (h : 0 ≤ d) : 0 ≤ epoch d :=
  div_nonneg (Int.cast_nonneg h) (by norm_num [second])

theorem epoch_mul (d : ℤ) : epoch d * 10 ^ 9 = d := by
  have hsecond : (second : ℚ) = 10 ^ 9 := by norm_num [second]
  rw [epoch, hsecond]
  exact div_mul_cancel₀ _ (by norm_num)

theorem latencySamples_eq_some {limit : ℤ} {samples : List LatencySample} :
    latencySamples planner now log limit = some samples ↔
      0 ≤ limit ∧
        samples = ((pairedSamples planner now log).take limit.toNat).map latencySample := by
  rw [latencySamples, Option.ite_none_left_eq_some, not_lt, Option.some.injEq, eq_comm]

/-- The rows that are kept were not delivered before those that are not. -/
theorem time_le_of_take_drop {n : ℕ} {p q : TraceRow × (String × Time)}
    (hp : p ∈ (pairedSamples planner now log).take n)
    (hq : q ∈ (pairedSamples planner now log).drop n) : q.1.time ≤ p.1.time := by
  have hsorted := pairwise_le_descending (fun p : TraceRow × (String × Time) => p.1.time)
    (planner.arrange (joinedSamples planner now log))
  rw [← pairedSamples, ← List.take_append_drop n (pairedSamples planner now log),
    List.pairwise_append] at hsorted
  exact hsorted.2.2 p hp q hq

/-- **The latencies that are listed are those that are summarised.** -/
theorem latencySamples_samePopulation (planner planner' : Planner) (now : Time)
    (log : List (AuditRow Bytes)) : SamePopulation planner planner' now log where
  complete := by
    intro limit hlimit
    rw [count_deliveryLatency planner planner'] at hlimit
    have htake : (pairedSamples planner' now log).take limit.toNat =
        pairedSamples planner' now log := List.take_of_length_le (by omega)
    refine ⟨_, latencySamples_eq_some.mpr ⟨le_trans (Int.natCast_nonneg _) hlimit, rfl⟩, ?_, ?_⟩
    · rw [htake]
      exact secs_perm
    · rw [htake]
      exact latencyStats_congr secs_perm.symm
  count := rfl
  max := by
    refine ⟨fun hempty => ?_, fun hne => ?_⟩
    · simp [deliveryLatency, latencyStats, hempty]
    · obtain ⟨m, hm⟩ := Option.isSome_iff_exists.mp (List.isSome_max?_of_ne_nil hne)
      obtain ⟨hmem, hle⟩ := List.max?_eq_some_iff.mp hm
      rw [deliveryLatency, latencyStats, hm]
      exact ⟨hmem, hle⟩
  nonneg := by
    intro limit samples hsamples s hs
    obtain ⟨-, rfl⟩ := latencySamples_eq_some.mp hsamples
    obtain ⟨p, hp, rfl⟩ := List.mem_map.mp hs
    have hmeasured := measured_of_mem (List.mem_of_mem_take hp)
    exact epoch_nonneg (sub_nonneg.mpr hmeasured.ordered)
  traces := by
    intro limit samples hsamples
    obtain ⟨hlimit, rfl⟩ := latencySamples_eq_some.mp hsamples
    refine ⟨((pairedSamples planner' now log).take limit.toNat).map fun p => p.1.traceID,
      ((pairedSamples planner' now log).drop limit.toNat).map fun p => p.1.traceID, ?_⟩
    rw [← List.map_append, List.take_append_drop]
    refine ⟨nodup_traces, fun traceID => ?_, ?_, ?_, ?_⟩
    · constructor
      · intro hmem
        obtain ⟨p, hp, rfl⟩ := List.mem_map.mp hmem
        exact ⟨_, _, measured_of_mem hp⟩
      · rintro ⟨d, r, hmeasured⟩
        obtain ⟨p, hp, hspan⟩ := List.mem_map.mp (mem_map_sampleSpan.mpr hmeasured)
        exact List.mem_map.mpr ⟨p, hp, congrArg Prod.fst hspan⟩
    · rw [List.forall₂_map_left_iff, List.forall₂_map_right_iff, List.forall₂_same]
      intro p hp
      exact ⟨_, _, measured_of_mem (List.mem_of_mem_take hp), epoch_mul _⟩
    · rw [List.length_map, List.length_take, count_deliveryLatency planner planner']
      omega
    · intro t ht t' ht' d r d' r' hmeasured hmeasured'
      obtain ⟨p, hp, rfl⟩ := List.mem_map.mp ht
      obtain ⟨q, hq, rfl⟩ := List.mem_map.mp ht'
      rw [(hmeasured.unique (measured_of_mem (List.mem_of_mem_take hp))).1,
        (hmeasured'.unique (measured_of_mem (List.mem_of_mem_drop hq))).1]
      exact time_le_of_take_drop hp hq

end Queries

/-- A row of a trace, so many seconds after the start of the log. -/
def traceStageRow (id : ℕ) (secs : ℤ) (traceID : String) (stage : Stage) : AuditRow Bytes where
  id := id
  cols := insertValues (secs * second) { stage := stage, traceID := traceID, appID := "news" }
    (.map [])
  prevHash := []
  rowHash := []

/-- Two traces, one of them delivered to two recipients, and one that is not delivered yet. -/
def threeTraces : List (AuditRow Bytes) :=
  [traceStageRow 1 10 "a" .received, traceStageRow 2 11 "a" .delivered,
    traceStageRow 3 12 "b" .received, traceStageRow 4 13 "a" .delivered,
    traceStageRow 5 13 "c" .received, traceStageRow 6 17 "b" .delivered]

theorem threeTraces_samePopulation :
    (deliveryLatency .inOrder (20 * second) threeTraces).count = 2 ∧
      (deliveryLatency .inOrder (20 * second) threeTraces).max = 5 ∧
      (latencySamples .inOrder (20 * second) threeTraces 1).map (List.map LatencySample.secs) =
        some [5] ∧
      SamePopulation .inOrder .inOrder (20 * second) threeTraces :=
  ⟨by decide +kernel, by decide +kernel, by decide +kernel,
    latencySamples_samePopulation .inOrder .inOrder (20 * second) threeTraces⟩

end TelegramServer.Adminui
