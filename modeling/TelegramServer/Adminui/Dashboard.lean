import TelegramServer.Adminui.DeliveryPage
import Mathlib.Tactic.FieldSimp

/-!
The cards of the dashboard about the last 24 hours (`internal/adminui/dashboard.go`): the headline
counts, the pipeline and the causes of the failures. Each card has a query of its own. On one
snapshot of the log their numbers agree, with each other and with the delivery page.

A share of the donut is a rational number here, and its circle has the length 1.
-/

namespace TelegramServer.Adminui

open Go Lib Registry Audit

/-! ### The headline -/

structure KPIView where
  received : ℕ
  delivered : ℕ
  failed : ℕ
  /-- `none` where nothing was received. -/
  successRate : Option ℚ

def buildKPIView (c : KPICounts) : KPIView where
  received := c.received
  delivered := c.delivered
  failed := c.failed
  successRate := clampedRate c.delivered c.received

/-! ### The pipeline -/

/-- A box, and the text on the arrow to the next one. -/
structure PipelineStage where
  name : String
  count : ℕ
  drop : String := ""
  dropAlert : Bool := false

/-- The text on the arrow from a box with `n` to one with `next`. -/
def dropText (n next : ℕ) : String :=
  let d : ℤ := n - next
  if 0 ≤ d then "-" ++ formatInt d else "+" ++ formatInt (-d)

/-- The loop over the stages. -/
def pipelineStages (byStage : String → ℕ) : List String → List PipelineStage
  | [] => []
  | [stage] => [{ name := stage, count := byStage stage }]
  | stage :: next :: stages =>
      { name := stage, count := byStage stage, drop := dropText (byStage stage) (byStage next)
        dropAlert := byStage next < byStage stage } :: pipelineStages byStage (next :: stages)

/-- `none` where there is no traffic. -/
def buildPipelineFlow (counts : List StageCount) : Option (List PipelineStage) :=
  if counts.isEmpty then none
  else
    let byStage := assignAll (counts.map fun c => (c.stage, c.count))
    some (pipelineStages byStage funnelStageOrder)

/-! ### The causes of the failures -/

/-- A slice of the donut with its entry in the legend. -/
structure PieSlice where
  code : String
  count : ℕ
  frac : ℚ
  /-- Where the slice begins. -/
  offset : ℚ
  color : String

structure FailurePieView where
  slices : List PieSlice
  total : ℕ

def piePalette : List String :=
  ["#dc2626", "#f97316", "#eab308", "#8b5cf6", "#0891b2", "#6b7280"]

def pieFoldAfter : ℕ := 5

def sumCounts (counts : List ErrorCodeCount) : ℕ :=
  counts.foldl (fun total c => total + c.count) 0

/-- The causes with a slice of their own, and one for the others if there are several. -/
def foldCauses (counts : List ErrorCodeCount) : List ErrorCodeCount :=
  if pieFoldAfter + 1 < counts.length then
    counts.take pieFoldAfter ++
      [⟨"기타 " ++ formatInt (counts.length - pieFoldAfter) ++ "종",
        sumCounts (counts.drop pieFoldAfter)⟩]
  else counts

/-- The loop over the slices from the `i`-th on. -/
def pieSlices (total : ℕ) : ℕ → ℚ → List ErrorCodeCount → List PieSlice
  | _, _, [] => []
  | i, acc, c :: counts =>
      let frac : ℚ := c.count / total
      ⟨c.code, c.count, frac, acc, piePalette.getD (i % piePalette.length) ""⟩ ::
        pieSlices total (i + 1) (acc + frac) counts

/-- `none` where there are no failures. -/
def buildFailurePie (counts : List ErrorCodeCount) : Option FailurePieView :=
  if counts.isEmpty then none
  else
    let total := sumCounts counts
    if total = 0 then none else some ⟨pieSlices total 0 0 (foldCauses counts), total⟩

/-! ### The dashboard -/

/-- The answers to the queries of the cards, `none` for one that fails. -/
structure DashboardAnswers where
  kpi : Option Snapshot
  pipeline : Option Snapshot
  causes : Option Snapshot

/-- The cards; the outer `none` is the flag for a query that failed. -/
structure DashboardView where
  kpi : Option KPIView
  pipeline : Option (Option (List PipelineStage))
  pie : Option (Option FailurePieView)

def dashboard (db : Planner) (store : DashboardAnswers) : DashboardView where
  kpi := store.kpi.map fun s => buildKPIView (deliveryKPICounts s)
  pipeline := store.pipeline.map fun s => buildPipelineFlow (pipelineStageCounts db s)
  pie := store.causes.map fun s => buildFailurePie (failureCauseCounts db s)

/-! ### The headline counts rows -/

section Counts

variable {db : Planner} {s : Snapshot}

/-- The rows of a stage in the last 24 hours. -/
def lastDayCount (s : Snapshot) (stage : String) : ℕ :=
  s.log.countP fun row => row.cols.stage = some stage && lastDayStart s.now ≤ row.cols.time

theorem received_deliveryKPICounts :
    (deliveryKPICounts s).received = lastDayCount s "received" := by
  simp only [deliveryKPICounts, lastDayCount, List.countP_filter]

theorem delivered_deliveryKPICounts :
    (deliveryKPICounts s).delivered = lastDayCount s "delivered" := by
  simp only [deliveryKPICounts, lastDayCount, List.countP_filter]

/-- The failures of the headline are those of the delivery page. -/
theorem failed_deliveryKPICounts :
    (deliveryKPICounts s).failed = s.log.countP (isFailure 1 s.now) := by
  simp only [deliveryKPICounts, List.countP_filter, lastDayStart_eq]
  rfl

/-! ### The pipeline agrees with the headline -/

/-- The map `byStage` has the rows of each stage. -/
theorem byStage_pipelineStageCounts {stage : String} (hstage : stage ∈ funnelStageOrder) :
    assignAll ((pipelineStageCounts db s).map fun c => (c.stage, c.count)) stage =
      lastDayCount s stage := by
  have hgroups : (pipelineStageCounts db s).map (fun c => (c.stage, c.count)) =
      db.arrange (countBy (pipelineRow s.now) s.log) := by
    rw [pipelineStageCounts, List.map_map]
    exact List.map_id _
  rw [hgroups, assignAll_eq (db.perm _), lastDayCount]
  refine List.countP_congr fun row _ => ?_
  simp only [decide_eq_true_eq, pipelineRow_eq_some, Bool.and_eq_true]
  tauto

theorem pipelineStageCounts_eq_nil_iff :
    pipelineStageCounts db s = [] ↔ ∀ stage ∈ funnelStageOrder, lastDayCount s stage = 0 := by
  have hkeys (stage : String) := mem_keys_groups (k := stage)
    (db.perm (countBy (pipelineRow s.now) s.log))
  simp only [lastDayCount, List.countP_eq_zero, Bool.and_eq_true, decide_eq_true_eq]
  constructor
  · rintro hnil stage hstage row hrow ⟨hrowstage, hsince⟩
    rw [pipelineStageCounts, List.map_eq_nil_iff] at hnil
    have hmem := (hkeys stage).mpr ⟨row, hrow, pipelineRow_eq_some.mpr ⟨hrowstage, hstage, hsince⟩⟩
    rw [hnil] at hmem
    cases hmem
  · intro hzero
    rw [pipelineStageCounts, List.map_eq_nil_iff, ← List.map_eq_nil_iff (f := Prod.fst)]
    refine List.eq_nil_iff_forall_not_mem.mpr fun stage hmem => ?_
    obtain ⟨row, hrow, hstage⟩ := (hkeys stage).mp hmem
    obtain ⟨hrowstage, hstage, hsince⟩ := pipelineRow_eq_some.mp hstage
    exact hzero stage hstage row hrow ⟨hrowstage, hsince⟩

end Counts

/-- The text on an arrow, read as a number, is what the next box has more. -/
theorem parseInt_dropText {n next : ℕ} (hn : n < 2 ^ 63) (hnext : next < 2 ^ 63) :
    parseInt (dropText n next) = some ((next : ℤ) - n) := by
  have hfirst (c : Char) (d : ℤ) (hd : 0 ≤ d) :
      (String.singleton c ++ formatInt d).toList = c :: formatNat d.natAbs := by
    rw [formatInt, if_neg (not_lt.mpr hd)]
    simp
  unfold dropText
  dsimp only
  split
  · next hle =>
      have htext : ("-" ++ formatInt ((n : ℤ) - next)).toList = _ := hfirst '-' _ hle
      rw [parseInt, htext]
      simp only [parseNat_formatNat, Option.bind_some]
      rw [if_pos (by omega), Option.some.injEq]
      omega
  · next hlt =>
      have htext : ("+" ++ formatInt (-((n : ℤ) - next))).toList = _ := hfirst '+' _ (by omega)
      rw [parseInt, htext]
      simp only [parseNat_formatNat, Option.bind_some]
      rw [if_pos (by omega), Option.some.injEq]
      omega

/-- An arrow says how the next box differs. -/
def ArrowTo (b next : PipelineStage) : Prop :=
  parseInt b.drop = some ((next.count : ℤ) - b.count) ∧ (b.dropAlert = true ↔ next.count < b.count)

theorem pipelineStages_map (byStage : String → ℕ) (stages : List String) :
    (pipelineStages byStage stages).map (fun b => (b.name, b.count)) =
      stages.map fun stage => (stage, byStage stage) := by
  fun_induction pipelineStages byStage stages with
  | case1 => rfl
  | case2 stage => rfl
  | case3 stage next stages ih =>
      rw [List.map_cons, ih]
      rfl

theorem isChain_pipelineStages {byStage : String → ℕ} (hsize : ∀ stage, byStage stage < 2 ^ 63)
    (stages : List String) : (pipelineStages byStage stages).IsChain ArrowTo := by
  fun_induction pipelineStages byStage stages with
  | case1 => exact .nil
  | case2 stage => exact .singleton _
  | case3 stage next stages ih =>
      have harrow (drop : String) (alert : Bool) :
          ArrowTo ⟨stage, byStage stage, dropText (byStage stage) (byStage next),
            byStage next < byStage stage⟩ ⟨next, byStage next, drop, alert⟩ :=
        ⟨parseInt_dropText (hsize stage) (hsize next), by simp⟩
      cases stages with
      | nil => exact .cons_cons (harrow _ _) ih
      | cons next' stages => exact .cons_cons (harrow _ _) ih

/-! ### The donut agrees with the headline -/

section Pie

variable {counts : List ErrorCodeCount} {total i : ℕ} {acc : ℚ}

theorem sumCounts_eq (counts : List ErrorCodeCount) :
    sumCounts counts = (counts.map ErrorCodeCount.count).sum := by
  have hfold (counts : List ErrorCodeCount) (n : ℕ) :
      counts.foldl (fun total c => total + c.count) n =
        n + (counts.map ErrorCodeCount.count).sum := by
    induction counts generalizing n with
    | nil => rfl
    | cons c counts ih => rw [List.foldl_cons, ih, List.map_cons, List.sum_cons, add_assoc]
  rw [sumCounts, hfold, zero_add]

/-- Folded or not, the slices stand for all causes. -/
theorem sum_foldCauses (counts : List ErrorCodeCount) :
    ((foldCauses counts).map ErrorCodeCount.count).sum =
      (counts.map ErrorCodeCount.count).sum := by
  unfold foldCauses
  split
  · rw [List.map_append, List.sum_append, List.map_singleton, List.sum_singleton, sumCounts_eq,
      ← List.sum_append, ← List.map_append, List.take_append_drop]
  · rfl

theorem length_foldCauses (counts : List ErrorCodeCount) :
    (foldCauses counts).length ≤ pieFoldAfter + 1 := by
  unfold foldCauses
  split
  · next hmany =>
      rw [List.length_append, List.length_take, List.length_singleton]
      omega
  · next hfew => exact not_lt.mp hfew

theorem take_foldCauses (counts : List ErrorCodeCount) :
    (foldCauses counts).take pieFoldAfter = counts.take pieFoldAfter := by
  unfold foldCauses
  split
  · next hmany =>
      rw [List.take_append_of_le_length, List.take_take, min_self]
      rw [List.length_take]
      omega
  · rfl

theorem pos_of_mem_foldCauses (hpos : ∀ c ∈ counts, 0 < c.count) {c : ErrorCodeCount}
    (h : c ∈ foldCauses counts) : 0 < c.count := by
  unfold foldCauses at h
  split at h
  · next hmany =>
      obtain h | h := List.mem_append.mp h
      · exact hpos c (List.mem_of_mem_take h)
      · obtain ⟨c', hc'⟩ : ∃ c', c' ∈ counts.drop pieFoldAfter := by
          refine List.exists_mem_of_ne_nil _ fun hnil => ?_
          have hlength := List.drop_eq_nil_iff.mp hnil
          omega
        have hle : c'.count ≤ ((counts.drop pieFoldAfter).map ErrorCodeCount.count).sum :=
          List.single_le_sum (fun _ _ => Nat.zero_le _) _ (List.mem_map_of_mem hc')
        rw [List.mem_singleton.mp h]
        simp only [sumCounts_eq]
        have hc'pos := hpos c' (List.mem_of_mem_drop hc')
        omega
  · exact hpos c h

theorem pieSlices_map (counts : List ErrorCodeCount) :
    (pieSlices total i acc counts).map (fun slice => (slice.count, slice.frac)) =
      counts.map fun c => (c.count, (c.count : ℚ) / total) := by
  induction counts generalizing i acc with
  | nil => rfl
  | cons c counts ih => simp [pieSlices, ih]

theorem colors_pieSlices (counts : List ErrorCodeCount) :
    (pieSlices total i acc counts).map PieSlice.color =
      (List.range' i counts.length).map fun i => piePalette.getD (i % piePalette.length) "" := by
  induction counts generalizing i acc with
  | nil => rfl
  | cons c counts ih => simp [pieSlices, ih, List.range'_succ]

/-- A slice begins where the slices before it end. -/
theorem offset_pieSlices {n : ℕ} {slice : PieSlice}
    (h : (pieSlices total i acc counts)[n]? = some slice) :
    slice.offset = acc + (((pieSlices total i acc counts).take n).map PieSlice.frac).sum := by
  induction counts generalizing i acc n with
  | nil => cases h
  | cons c counts ih =>
      cases n with
      | zero =>
          obtain rfl := Option.some.inj h
          simp
      | succ n =>
          rw [pieSlices, List.getElem?_cons_succ] at h
          rw [ih h, pieSlices, List.take_succ_cons, List.map_cons, List.sum_cons, add_assoc]

/-- The donut has all failures, and nothing else. -/
structure PieAgrees (failed : ℕ) (pie : FailurePieView) : Prop where
  total : pie.total = failed
  counts : (pie.slices.map PieSlice.count).sum = failed
  few : pie.slices.length ≤ pieFoldAfter + 1
  colors : (pie.slices.map PieSlice.color).Nodup
  shares : ∀ slice ∈ pie.slices, 0 < slice.frac ∧ slice.frac = (slice.count : ℚ) / failed
  /-- The slices follow one another around the circle … -/
  tiles : ∀ n slice, pie.slices[n]? = some slice →
    slice.offset = ((pie.slices.take n).map PieSlice.frac).sum
  /-- … and close it. -/
  whole : (pie.slices.map PieSlice.frac).sum = 1
  ranked : (pie.slices.take pieFoldAfter).Pairwise fun a b => b.count ≤ a.count

theorem pieAgrees_buildFailurePie (hpos : ∀ c ∈ counts, 0 < c.count)
    (hsorted : counts.Pairwise fun a b => b.count ≤ a.count) {pie : FailurePieView}
    (h : buildFailurePie counts = some pie) :
    PieAgrees (counts.map ErrorCodeCount.count).sum pie := by
  unfold buildFailurePie at h
  split at h
  · cases h
  dsimp only at h
  split at h
  · cases h
  next hne =>
  obtain rfl := Option.some.inj h
  rw [sumCounts_eq] at hne ⊢
  generalize htotal : (counts.map ErrorCodeCount.count).sum = total at hne ⊢
  have hmap := @pieSlices_map total 0 0 (foldCauses counts)
  have hcounts : (pieSlices total 0 0 (foldCauses counts)).map PieSlice.count =
      (foldCauses counts).map ErrorCodeCount.count := by
    have hfst := congrArg (List.map Prod.fst) hmap
    rwa [List.map_map, List.map_map] at hfst
  have hfracs : (pieSlices total 0 0 (foldCauses counts)).map PieSlice.frac =
      (foldCauses counts).map fun c => (c.count : ℚ) / total := by
    have hsnd := congrArg (List.map Prod.snd) hmap
    rwa [List.map_map, List.map_map] at hsnd
  have htotalQ : (0 : ℚ) < total := by exact_mod_cast Nat.pos_of_ne_zero hne
  have hsum : ((foldCauses counts).map ErrorCodeCount.count).sum = total :=
    (sum_foldCauses counts).trans htotal
  refine ⟨rfl, ?_, ?_, ?_, ?_, ?_, ?_, ?_⟩
  · rw [hcounts, hsum]
  · have hlength := congrArg List.length hcounts
    rw [List.length_map, List.length_map] at hlength
    exact hlength.le.trans (length_foldCauses counts)
  · rw [colors_pieSlices, ← List.range_eq_range']
    exact (by decide : ∀ n ≤ pieFoldAfter + 1, ((List.range n).map fun i =>
      piePalette.getD (i % piePalette.length) "").Nodup) _ (length_foldCauses counts)
  · intro slice hslice
    have hmem : (slice.count, slice.frac) ∈ (foldCauses counts).map fun c =>
        (c.count, (c.count : ℚ) / total) := hmap ▸ List.mem_map_of_mem hslice
    obtain ⟨c, hc, heq⟩ := List.mem_map.mp hmem
    obtain ⟨hcount, hfrac⟩ := Prod.mk.inj heq
    have hcpos : (0 : ℚ) < c.count := by exact_mod_cast pos_of_mem_foldCauses hpos hc
    exact ⟨hfrac ▸ div_pos hcpos htotalQ, by rw [← hfrac, hcount]⟩
  · intro n slice hslice
    rw [offset_pieSlices hslice, zero_add]
  · have hcast : ((foldCauses counts).map fun c => (c.count : ℚ) / total).sum =
        (((foldCauses counts).map ErrorCodeCount.count).sum : ℚ) / total := by
      simp only [div_eq_mul_inv, List.sum_map_mul_right, Nat.cast_list_sum, List.map_map]
      rfl
    rw [hfracs, hcast, hsum, div_self htotalQ.ne']
  · refine (List.pairwise_map (f := PieSlice.count) (R := fun a b => b ≤ a)).mp ?_
    rw [List.map_take, hcounts, ← List.map_take, take_foldCauses]
    exact List.pairwise_map.mpr (hsorted.sublist (List.take_sublist _ _))

end Pie

/-! ### The cards and the delivery page -/

section Agreement

variable {db : Planner} {s : Snapshot}

/-- The cards have the same numbers. -/
structure CardsAgree (kpi : KPIView) (pipeline : Option (List PipelineStage))
    (pie : Option FailurePieView) : Prop where
  boxes : ∀ stages ∈ pipeline, stages.map PipelineStage.name = funnelStageOrder ∧
    stages.head?.map PipelineStage.count = some kpi.received ∧
    stages.getLast?.map PipelineStage.count = some kpi.delivered ∧ stages.IsChain ArrowTo
  noTraffic : pipeline = none → kpi.received = 0 ∧ kpi.delivered = 0
  slices : ∀ p ∈ pie, PieAgrees kpi.failed p
  noFailures : pie = none ↔ kpi.failed = 0

/-- The headline has the numbers of the delivery page for one day, where the funnels leave out the
rows without an app. -/
structure PageAgrees (kpi : KPIView) (s : Snapshot) (funnels : List AppFunnel) : Prop where
  received : (funnels.map AppFunnel.received).sum + (s.log.countP fun row =>
    row.cols.stage = some "received" && lastDayStart s.now ≤ row.cols.time &&
      row.cols.appID.isNone) = kpi.received
  delivered : (funnels.map AppFunnel.delivered).sum + (s.log.countP fun row =>
    row.cols.stage = some "delivered" && lastDayStart s.now ≤ row.cols.time &&
      row.cols.appID.isNone) = kpi.delivered
  failed : (matchingFailures { days := 1 } s).length = kpi.failed

theorem pos_failureCauseCounts {c : ErrorCodeCount} (h : c ∈ failureCauseCounts db s) :
    0 < c.count := by
  obtain ⟨g, hg, rfl⟩ := List.mem_map.mp h
  exact Nat.pos_of_ne_zero
    (mem_countBy.mp ((db.perm _).mem_iff.mp (mem_descending.mp hg))).1

theorem sum_failureCauseCounts :
    ((failureCauseCounts db s).map ErrorCodeCount.count).sum = (deliveryKPICounts s).failed := by
  have hperm : (descending Prod.snd (db.arrange (countBy (causeRow s.now) s.log))).Perm
      (countBy (causeRow s.now) s.log) :=
    (descending_perm _ _).trans (db.perm _)
  rw [failureCauseCounts, List.map_map, failed_deliveryKPICounts]
  refine (sum_all_groups hperm).trans (List.countP_congr fun row _ => ?_)
  rw [causeRow_isSome]

/-- There is no donut exactly where there are no failures. -/
theorem buildFailurePie_eq_none_iff {counts : List ErrorCodeCount} :
    buildFailurePie counts = none ↔ (counts.map ErrorCodeCount.count).sum = 0 := by
  unfold buildFailurePie
  split
  · next hempty => simp [List.isEmpty_iff.mp hempty]
  · dsimp only
    rw [sumCounts_eq]
    split
    · next hzero => simp [hzero]
    · next hne => simp [hne]

theorem cardsAgree (hsize : s.log.length < 2 ^ 63) :
    CardsAgree (buildKPIView (deliveryKPICounts s)) (buildPipelineFlow (pipelineStageCounts db s))
      (buildFailurePie (failureCauseCounts db s)) where
  boxes := by
    intro stages hstages
    unfold buildPipelineFlow at hstages
    split at hstages
    · cases hstages
    obtain rfl := Option.some.inj hstages
    have hmap := pipelineStages_map (assignAll ((pipelineStageCounts db s).map fun c =>
      (c.stage, c.count))) funnelStageOrder
    have hnames := congrArg (List.map Prod.fst) hmap
    have hcounts := congrArg (List.map Prod.snd) hmap
    rw [List.map_map, List.map_map] at hnames hcounts
    have hfirst := congrArg List.head? hcounts
    have hlast := congrArg List.getLast? hcounts
    rw [List.head?_map] at hfirst
    rw [List.getLast?_map] at hlast
    refine ⟨hnames.trans (List.map_id _), hfirst.trans ?_, hlast.trans ?_,
      isChain_pipelineStages (fun stage => ?_) _⟩
    · exact congrArg some ((byStage_pipelineStageCounts (by decide)).trans
        received_deliveryKPICounts.symm)
    · exact congrArg some ((byStage_pipelineStageCounts (by decide)).trans
        delivered_deliveryKPICounts.symm)
    · have hgroups : (pipelineStageCounts db s).map (fun c => (c.stage, c.count)) =
          db.arrange (countBy (pipelineRow s.now) s.log) := by
        rw [pipelineStageCounts, List.map_map]
        exact List.map_id _
      rw [hgroups, assignAll_eq (db.perm _)]
      exact List.countP_le_length.trans_lt hsize
  noTraffic := by
    intro hnone
    unfold buildPipelineFlow at hnone
    split at hnone
    · next hempty =>
        have hzero := pipelineStageCounts_eq_nil_iff.mp (List.isEmpty_iff.mp hempty)
        exact ⟨received_deliveryKPICounts.trans (hzero _ (by decide)),
          delivered_deliveryKPICounts.trans (hzero _ (by decide))⟩
    · cases hnone
  slices := by
    intro p hp
    have hsorted : (failureCauseCounts db s).Pairwise fun a b => b.count ≤ a.count :=
      List.pairwise_map.mpr (pairwise_le_descending _ _)
    have hagrees := pieAgrees_buildFailurePie (fun c hc => pos_failureCauseCounts hc) hsorted hp
    rwa [sum_failureCauseCounts] at hagrees
  noFailures := by
    rw [buildFailurePie_eq_none_iff, sum_failureCauseCounts]
    rfl

/-- The rows of a stage, by app. -/
theorem sum_stageCount {apps : List String} (hnodup : apps.Nodup) {stage : String}
    (happs : ∀ row ∈ s.log, ∀ app, row.cols.appID = some app → row.cols.stage = some stage →
      lastDayStart s.now ≤ row.cols.time → app ∈ apps) :
    (apps.map fun app => stageCount 1 s app stage).sum + (s.log.countP fun row =>
      row.cols.stage = some stage && lastDayStart s.now ≤ row.cols.time &&
        row.cols.appID.isNone) = lastDayCount s stage := by
  have hkeyed : (apps.map fun app => s.log.countP fun row => (row.cols.stage = some stage &&
      lastDayStart s.now ≤ row.cols.time && row.cols.appID.isSome) &&
        row.cols.appID = some app).sum =
      s.log.countP fun row => row.cols.stage = some stage && lastDayStart s.now ≤ row.cols.time &&
        row.cols.appID.isSome := sum_countP_key hnodup ?_
  · have hsplit : lastDayCount s stage = (s.log.countP fun row => row.cols.stage = some stage &&
        lastDayStart s.now ≤ row.cols.time && row.cols.appID.isSome) +
        s.log.countP fun row => row.cols.stage = some stage &&
          lastDayStart s.now ≤ row.cols.time && row.cols.appID.isNone := by
      rw [lastDayCount, List.countP_eq_countP_filter_add _ _ fun row => row.cols.appID.isSome,
        List.countP_filter, List.countP_filter]
      congr 1
      refine List.countP_congr fun row _ => ?_
      simp
    rw [hsplit, ← hkeyed]
    congr 2
    refine List.map_congr_left fun app _ => List.countP_congr fun row _ => ?_
    simp only [Bool.and_eq_true, decide_eq_true_eq, lastDayStart_eq]
    constructor
    · rintro ⟨⟨happ, hstage⟩, hsince⟩
      exact ⟨⟨⟨hstage, hsince⟩, by rw [happ]; rfl⟩, happ⟩
    · rintro ⟨⟨⟨hstage, hsince⟩, -⟩, happ⟩
      exact ⟨⟨happ, hstage⟩, hsince⟩
  · intro row hrow hcounts
    simp only [Bool.and_eq_true, decide_eq_true_eq] at hcounts
    obtain ⟨⟨hstage, hsince⟩, happ⟩ := hcounts
    obtain ⟨app, happ⟩ := Option.isSome_iff_exists.mp happ
    exact ⟨app, happs row hrow app happ hstage hsince, happ⟩

theorem pageAgrees {funnels : List AppFunnel} (hfunnels : FunnelsFaithful 1 "" s funnels) :
    PageAgrees (buildKPIView (deliveryKPICounts s)) s funnels := by
  have hsum (stage : String) (hstage : stage ∈ deliveryFunnelStages) :=
    @sum_stageCount s _ hfunnels.nodup stage ?_
  · refine ⟨?_, ?_, ?_⟩
    · have hreceived : funnels.map AppFunnel.received =
          (funnels.map AppFunnel.appID).map fun app => stageCount 1 s app "received" := by
        rw [List.map_map]
        exact List.map_congr_left fun f hf => (hfunnels.counts f hf).1
      rw [hreceived, hsum "received" (by decide)]
      exact received_deliveryKPICounts.symm
    · have hdelivered : funnels.map AppFunnel.delivered =
          (funnels.map AppFunnel.appID).map fun app => stageCount 1 s app "delivered" := by
        rw [List.map_map]
        exact List.map_congr_left fun f hf => (hfunnels.counts f hf).2.1
      rw [hdelivered, hsum "delivered" (by decide)]
      exact delivered_deliveryKPICounts.symm
    · have hall : matchingFailures { days := 1 } s = s.log.filter (isFailure 1 s.now) := by
        simp [matchingFailures, TrendFilter.admits, passes]
      rw [hall, ← List.countP_eq_length_filter]
      exact failed_deliveryKPICounts.symm
  · intro row hrow app happ hrowstage hsince
    refine (hfunnels.apps app).mpr ⟨rfl, stage, hstage, ?_⟩
    rw [stageCount, ← Nat.pos_iff_ne_zero, List.countP_pos_iff]
    rw [lastDayStart_eq] at hsince
    exact ⟨row, hrow, by simp [happ, hrowstage, hsince]⟩

end Agreement

/-- **The numbers agree.** On one snapshot of the log the cards of the dashboard and the delivery
page have the same numbers: the pipeline begins and ends with the headline and its arrows say what
is between the boxes, the slices of the donut are all the failures and close the circle, and the
funnels of the last day add up to the headline together with the rows that have no app. -/
theorem dashboard_consistent (db go : Planner) (s : Snapshot) (hsize : s.log.length < 2 ^ 63) :
    ∃ kpi pipeline pie,
      dashboard db ⟨some s, some s, some s⟩ = ⟨some kpi, some pipeline, some pie⟩ ∧
      CardsAgree kpi pipeline pie ∧
      PageAgrees kpi s (buildFunnels go (stageCounts db 1 "" s)) :=
  ⟨_, _, _, rfl, cardsAgree hsize, pageAgrees (funnelsFaithful_buildFunnels _ _)⟩

theorem march_consistent :
    (buildFunnels .inOrder (stageCounts .inOrder 1 "" marchSnapshot)).map
        (fun f => (f.appID, f.received, f.delivered)) = [("news", 2, 1), ("shop", 1, 0)] ∧
      (failureCauseCounts .inOrder marchSnapshot).map ErrorCodeCount.count = [2, 1, 1] ∧
      ∃ kpi pipeline pie,
        dashboard .inOrder ⟨some marchSnapshot, some marchSnapshot, some marchSnapshot⟩ =
          ⟨some kpi, some pipeline, some pie⟩ ∧
        CardsAgree kpi pipeline pie ∧
        PageAgrees kpi marchSnapshot (buildFunnels .inOrder (stageCounts .inOrder 1 ""
          marchSnapshot)) :=
  ⟨by decide +kernel, by decide +kernel,
    dashboard_consistent .inOrder .inOrder marchSnapshot (by decide)⟩

end TelegramServer.Adminui
