import FleetosControl.Controllers.ReplicaShares
import FleetosControl.Controllers.SpecWriters
import FleetosControl.Controllers.Workload
import Mathlib.Data.UInt

/-! Whether the autoscaler brings a total into the range of its policy, and what it computes with. It
leaves a total that is close to the one it has, and sums are kept in machine words. -/
namespace FleetosControl
open Wire KeyValue Trace Std

/-- The times that the clock of the source can show are far inside this range. -/
def ClockReading (time : Int64) : Prop := -2^62 ≤ time.toInt ∧ time.toInt < 2^62

theorem elapsed_lt {now since : Int64} (reading : ClockReading now) (earlier : ClockReading since) (window : UInt32) :
    now - since < window.toUInt64.toInt64 ↔ now.toInt - since.toInt < window.toNat := by
  have bound := window.toNat_lt
  obtain ⟨low,high⟩ := reading
  obtain ⟨least,most⟩ := earlier
  have seconds : window.toUInt64.toInt64.toInt = window.toNat := by
    rw [Int64.toInt,UInt64.toBitVec_toInt64,BitVec.toInt_eq_toNat_bmod,UInt64.toNat_toBitVec,UInt32.toNat_toUInt64]
    exact Int.bmod_eq_of_le (by omega) (by omega)
  rw [Int64.lt_iff_toInt_lt,seconds,Int64.toInt_sub,Int.bmod_eq_of_le (by omega) (by omega)]

section
variable [FleetosCore]

namespace AutoscalingPolicy

def Valid (policy : AutoscalingPolicy) : Prop :=
  policy.noActiveTarget = false ∧ policy.maxReplicas ≠ 0 ∧ max policy.minReplicas 1 ≤ policy.maxReplicas

def Admits (policy : AutoscalingPolicy) (total : Nat) : Prop :=
  policy.minReplicas.toNat ≤ total ∧ total ≤ policy.maxReplicas.toNat

def asks (policy : AutoscalingPolicy) (spec : WorkloadSpec) (windows : List (List PodMetrics)) : Option UInt32 :=
  computeDesiredTotal spec.currentTotal (policy.signals windows) (max policy.minReplicas 1) policy.maxReplicas

end AutoscalingPolicy

namespace HpaController

variable {controller : HpaController} {spec : WorkloadSpec} {policy : AutoscalingPolicy}

theorem desiredTotal_eq_asks (enabled : policy.enabled = true) (valid : policy.Valid)
    (qualify : qualifyingWindows controller.metrics placements spec ≠ []) :
    controller.desiredTotal placements spec policy =
      policy.asks spec (qualifyingWindows controller.metrics placements spec) := by
  obtain ⟨active,most,ordered⟩ := valid
  have placed : podsOf placements spec ≠ [] := by
    intro nobody
    apply qualify
    rw [qualifyingWindows,nobody]
    rfl
  unfold desiredTotal AutoscalingPolicy.asks
  by_cases stopped : spec.currentTotal = 0
  · rw [computeDesiredTotal_none.mpr (.inl stopped)]
    simp [stopped]
  · simp [enabled,active,most,UInt32.not_lt.mpr ordered,placed,qualify,stopped]

theorem desiredTotal_admitted {desired : UInt32}
    (computed : controller.desiredTotal placements spec policy = some desired) :
    0 < desired.toNat ∧ policy.Admits desired.toNat := by
  obtain ⟨_,least,most⟩ := desiredTotal_range computed
  rw [UInt32.le_iff_toNat_le,UInt32.toNat_max] at least
  refine ⟨Nat.lt_of_lt_of_le Nat.zero_lt_one (Nat.le_trans (Nat.le_max_right _ _) least),?_⟩
  exact ⟨Nat.le_trans (Nat.le_max_left _ _) least,UInt32.le_iff_toNat_le.mp most⟩

variable [NameTypes]

def Nameable (spec : WorkloadSpec) (replicas : ExtTreeMap String UInt32 compare) : Prop :=
  ∀ entry ∈ replicas.toList, spec.desired entry.1 ≤ entry.2 ∨
    NameTypes.isTenantId spec.tenantId = true ∧ NameTypes.isWorkloadRole entry.1 = true

theorem shrinkAllowed_iff
    (permits : ∀ role count, (controller.guard spec.tenantId spec.workloadId role count .scaleDown).isOk = true) :
    controller.shrinkAllowed spec replicas = true ↔ Nameable spec replicas := by
  simp [shrinkAllowed,Nameable,DisruptionGuard.allowed,permits]

theorem evaluateWorkload_keeps [WorkloadMessages] (controller : HpaController) (record : WorkloadSpecRecord)
    (placements : List Placement) (now : Int64) (clock : UInt64) :
    (controller.evaluateWorkload record placements now clock).1.metrics = controller.metrics ∧
      (controller.evaluateWorkload record placements now clock).1.guard = controller.guard := by
  simp only [evaluateWorkload]
  repeat' split
  all_goals exact ⟨rfl,rfl⟩

section
variable [WorkloadMessages] {record : WorkloadSpecRecord} {spec : WorkloadSpec} {policy : AutoscalingPolicy}
  (decoded : decodeWorkloadSpec record.specBytes = .ok spec)
  (declared : spec.autoscaling = some policy) {controller : HpaController} {placements : List Placement} {now : Int64}
  {clock : UInt64}
include decoded declared

theorem evaluateWorkload_idle
    (idle : ∀ desired, controller.desiredTotal placements spec policy = some desired →
      withinDeadband spec.currentTotal desired = true ∨ desired < spec.currentTotal ∧
        controller.shrinkAllowed spec (distributeReplicas spec.replicas desired) = false) :
    (controller.evaluateWorkload record placements now clock).2 = none := by
  cases computed : controller.desiredTotal placements spec policy with
  | none => simp only [evaluateWorkload,decoded,declared,computed]
  | some desired =>
    simp only [evaluateWorkload,decoded,declared,computed]
    rcases idle desired computed with close | ⟨shrinks,refused⟩
    · rw [if_pos close]
    · simp only [if_pos shrinks,refused,Bool.not_false,if_true,ite_self]
      split <;> rfl

theorem evaluateWorkload_acts {desired : UInt32}
    (computed : controller.desiredTotal placements spec policy = some desired)
    (far : withinDeadband spec.currentTotal desired = false)
    (allowed : desired < spec.currentTotal →
      controller.shrinkAllowed spec (distributeReplicas spec.replicas desired) = true) :
    (controller.evaluateWorkload record placements now clock).2 ≠ none ∨
      now - (controller.scaleDownSince (spec.tenantId,spec.workloadId)).getD now <
          policy.stabilizationWindowSeconds.toUInt64.toInt64 ∧
        (controller.evaluateWorkload record placements now clock).1.scaleDownSince (spec.tenantId,spec.workloadId) =
          some ((controller.scaleDownSince (spec.tenantId,spec.workloadId)).getD now) := by
  simp only [evaluateWorkload,decoded,declared,computed,far,Bool.false_eq_true,if_false]
  split
  case isFalse => exact .inl (by simp)
  case isTrue shrinks =>
    rw [allowed shrinks]
    split
    case isFalse => exact .inl (by simp)
    case isTrue early => exact .inr ⟨early,Function.update_self _ _ _⟩

end

end HpaController

variable [Formats] [WorkloadMessages] [NameTypes]

structure Autoscaled where
  controller : HpaController
  disk : Disk

namespace Autoscaled

def placements (state : Autoscaled) : List Placement := scanRecords Placement state.disk .placements

def pass (key : Bytes) (now : Int64) (clock : UInt64) (state : Autoscaled) : Autoscaled :=
  match readRecord WorkloadSpecRecord state.disk .workloads key with
  | .ok (some record) =>
    let (controller,proposed) := state.controller.evaluateWorkload record state.placements now clock
    match proposed.map fun audited => applyCommand state.disk audited.cmd with
    | some (.ok (writes,_)) => ⟨controller,commit state.disk writes⟩
    | _ => ⟨controller,state.disk⟩
  | _ => state

theorem pass_guard (key : Bytes) (now : Int64) (clock : UInt64) (state : Autoscaled) :
    (state.pass key now clock).controller.guard = state.controller.guard := by
  unfold pass
  split
  case h_1 record _ =>
    have kept := (state.controller.evaluateWorkload_keeps record state.placements now clock).2
    simp only
    split <;> exact kept
  case h_2 => rfl

structure Holds (key : Bytes) (state : Autoscaled) (record : WorkloadSpecRecord) (spec : WorkloadSpec) : Prop where
  stored : storedWorkload state.disk key = some (record,spec)
  own : workloadKey record.tenantId record.workloadId = key

end Autoscaled

inductive AutoscaleEvent where
  | pass (now : Int64) (clock : UInt64)
  | other

/-- Between passes anything may change except the workload's record and mark. -/
inductive Autoscales (key : Bytes) (workload : String × String) : Autoscaled → AutoscaleEvent → Autoscaled → Prop where
  | pass {state : Autoscaled} {now : Int64} {clock : UInt64} :
      Autoscales key workload state (.pass now clock) (state.pass key now clock)
  | other {state next : Autoscaled} : (next.disk .workloads)[key]? = (state.disk .workloads)[key]? →
      next.controller.scaleDownSince workload = state.controller.scaleDownSince workload →
      Autoscales key workload state .other next

namespace Autoscaled

variable {key : Bytes} {state next : Autoscaled} {record : WorkloadSpecRecord} {spec : WorkloadSpec} {now : Int64}
  {clock : UInt64} {policy : AutoscalingPolicy} {workload : String × String}

theorem Holds.of_same (holds : state.Holds key record spec)
    (same : (next.disk .workloads)[key]? = (state.disk .workloads)[key]?) : next.Holds key record spec := by
  refine ⟨?_,holds.own⟩
  rw [storedWorkload,same]
  exact holds.stored

theorem Holds.read (holds : state.Holds key record spec) :
    readRecord WorkloadSpecRecord state.disk .workloads key = .ok (some record) ∧
      decodeWorkloadSpec record.specBytes = .ok spec := storedWorkload_read holds.stored

theorem Holds.pass_still (holds : state.Holds key record spec)
    (nothing : (state.controller.evaluateWorkload record state.placements now clock).2 = none) :
    state.pass key now clock =
      ⟨(state.controller.evaluateWorkload record state.placements now clock).1,state.disk⟩ := by
  unfold Autoscaled.pass
  rw [holds.read.1]
  simp only [nothing,Option.map_none]

theorem Holds.pass_scaled (holds : state.Holds key record spec)
    (proposed : (state.controller.evaluateWorkload record state.placements now clock).2 = some audited) :
    ∃ policy desired scaled, spec.autoscaling = some policy ∧
      state.controller.desiredTotal state.placements spec policy = some desired ∧
      (state.pass key now clock).Holds key scaled
        { spec with replicas := distributeReplicas spec.replicas desired } := by
  obtain ⟨read,decoded⟩ := holds.read
  obtain ⟨own,policy,desired,again,declared,computed,_,rfl⟩ := HpaController.evaluateWorkload_proposes proposed
  cases decoded.symm.trans again
  refine ⟨policy,desired,⟨record.tenantId,record.workloadId,
    encodeWorkloadSpec { spec with replicas := distributeReplicas spec.replicas desired },[]⟩,declared,computed,?_⟩
  unfold Autoscaled.pass
  rw [read]
  simp only [proposed,Option.map_some,HpaController.proposeScale,applyCommand]
  refine ⟨storedWorkload_some ?_ (fromBytes_toAllocvec _) (WorkloadMessages.decode_encode _),holds.own⟩
  rw [← holds.own]
  exact Ledger.scaleWorkload_stores _ _

def Settled (key : Bytes) (policy : AutoscalingPolicy) (state : Autoscaled) : Prop :=
  ∃ record spec, state.Holds key record spec ∧ spec.autoscaling = some policy ∧ 0 < replicaSum spec.replicas ∧
    policy.Admits (replicaSum spec.replicas)

theorem Holds.settled (holds : state.Holds key record spec) (positive : 0 < replicaSum spec.replicas)
    (declared : spec.autoscaling = some policy) (now : Int64) (clock : UInt64) :
    (state.controller.evaluateWorkload record state.placements now clock).2 = none ∨
      (state.pass key now clock).Settled key policy := by
  cases proposed : (state.controller.evaluateWorkload record state.placements now clock).2 with
  | none => exact .inl rfl
  | some audited =>
    obtain ⟨own,desired,scaled,again,computed,moved⟩ := holds.pass_scaled proposed
    cases declared.symm.trans again
    obtain ⟨some,inside⟩ := HpaController.desiredTotal_admitted computed
    have total := distributeReplicas_sum positive desired
    exact .inr ⟨scaled,_,moved,declared,total.symm ▸ some,total.symm ▸ inside⟩

theorem Settled.step (settled : state.Settled key policy) (taken : Autoscales key workload state event next) :
    next.Settled key policy := by
  obtain ⟨record,spec,holds,declared,positive,inside⟩ := settled
  cases taken with
  | pass =>
    rcases holds.settled positive declared _ _ with nothing | moved
    · rw [holds.pass_still nothing]
      exact ⟨record,spec,holds.of_same rfl,declared,positive,inside⟩
    · exact moved
  | other same _ => exact ⟨record,spec,holds.of_same same,declared,positive,inside⟩

theorem Settled.run (settled : state.Settled key policy) (run : Run (Autoscales key workload) state trace last) :
    last.Settled key policy :=
  (run.invariant (·.Settled key policy) (fun _ => True) (fun _ _ _ taken _ inside => inside.step taken) settled
    fun _ _ => trivial).2

end Autoscaled

def CalmPass (spec : WorkloadSpec) (windows : List (List PodMetrics)) (transition : Transition Autoscaled AutoscaleEvent) :
    Prop :=
  ∀ now clock, transition.label = .pass now clock →
    qualifyingWindows transition.before.controller.metrics transition.before.placements spec = windows ∧
      (∀ role count,
        (transition.before.controller.guard spec.tenantId spec.workloadId role count .scaleDown).isOk = true) ∧
      ClockReading now

/-- The total asked for is far enough away, and the guard can be asked about the roles that shrink. -/
def Acts (policy : AutoscalingPolicy) (spec : WorkloadSpec) (windows : List (List PodMetrics)) : Prop :=
  ∃ desired, policy.asks spec windows = some desired ∧
    HpaController.withinDeadband spec.currentTotal desired = false ∧
    (desired < spec.currentTotal → HpaController.Nameable spec (distributeReplicas spec.replicas desired))

def passTimes (trace : List (Transition Autoscaled AutoscaleEvent)) : List Int64 :=
  trace.filterMap fun transition =>
    match transition.label with
    | .pass now _ => some now
    | .other => none

section
variable {key : Bytes} {record : WorkloadSpecRecord} {spec : WorkloadSpec} {policy : AutoscalingPolicy}
  (declared : spec.autoscaling = some policy) (enabled : policy.enabled = true) (valid : policy.Valid)
  (positive : 0 < replicaSum spec.replicas) {windows : List (List PodMetrics)} (qualify : windows ≠ [])
  {state : Autoscaled} {now : Int64} {clock : UInt64}

include declared enabled valid positive qualify

theorem pass_acts (acts : Acts policy spec windows) (holds : state.Holds key record spec)
    (same : qualifyingWindows state.controller.metrics state.placements spec = windows)
    (permits : ∀ role count, (state.controller.guard spec.tenantId spec.workloadId role count .scaleDown).isOk = true) :
    (state.pass key now clock).Settled key policy ∨ (state.pass key now clock).Holds key record spec ∧
        now - (state.controller.scaleDownSince (spec.tenantId,spec.workloadId)).getD now <
          policy.stabilizationWindowSeconds.toUInt64.toInt64 ∧
        (state.pass key now clock).controller.scaleDownSince (spec.tenantId,spec.workloadId) =
          some ((state.controller.scaleDownSince (spec.tenantId,spec.workloadId)).getD now) := by
  obtain ⟨desired,asked,far,nameable⟩ := acts
  have computed : state.controller.desiredTotal state.placements spec policy = some desired := by
    rw [HpaController.desiredTotal_eq_asks enabled valid (same ▸ qualify),same]
    exact asked
  have allowed : desired < spec.currentTotal →
      state.controller.shrinkAllowed spec (distributeReplicas spec.replicas desired) = true :=
    fun shrinks => (HpaController.shrinkAllowed_iff permits).mpr (nameable shrinks)
  rcases holds.settled positive declared now clock with nothing | moved
  · rcases HpaController.evaluateWorkload_acts holds.read.2 declared computed far allowed with proposed | ⟨early,marked⟩
    · exact absurd nothing proposed
    · rw [holds.pass_still nothing]
      exact .inr ⟨holds.of_same rfl,early,marked⟩
  · exact .inl moved

omit positive in
theorem pass_idle (idle : ¬Acts policy spec windows) (holds : state.Holds key record spec)
    (same : qualifyingWindows state.controller.metrics state.placements spec = windows)
    (permits : ∀ role count, (state.controller.guard spec.tenantId spec.workloadId role count .scaleDown).isOk = true) :
    (state.pass key now clock).Holds key record spec := by
  have nothing : (state.controller.evaluateWorkload record state.placements now clock).2 = none := by
    apply HpaController.evaluateWorkload_idle holds.read.2 declared
    intro desired computed
    rw [HpaController.desiredTotal_eq_asks enabled valid (same ▸ qualify),same] at computed
    cases close : HpaController.withinDeadband spec.currentTotal desired with
    | true => exact .inl rfl
    | false =>
      right
      by_contra free
      refine idle ⟨desired,computed,close,fun shrinks => ?_⟩
      rw [← HpaController.shrinkAllowed_iff permits]
      by_contra refused
      exact free ⟨shrinks,by simpa using refused⟩
  rw [holds.pass_still nothing]
  exact holds.of_same rfl

variable {start last : Autoscaled} {trace : List (Transition Autoscaled AutoscaleEvent)}
  (run : Run (Autoscales key (spec.tenantId,spec.workloadId)) start trace last)
  (calm : ∀ transition ∈ trace, CalmPass spec windows transition)
include run calm

omit positive in
theorem run_idle (idle : ¬Acts policy spec windows) (holds : start.Holds key record spec) :
    last.Holds key record spec := by
  refine (run.invariant (·.Holds key record spec) (CalmPass spec windows) ?_ holds calm).2
  intro before event after taken here still
  cases taken with
  | pass =>
    obtain ⟨same,permits,_⟩ := here _ _ rfl
    exact pass_idle declared enabled valid qualify idle still same permits
  | other same _ => exact still.of_same same

theorem run_acts (acts : Acts policy spec windows) (holds : start.Holds key record spec) {first later : Int64}
    (marks : ∀ since, start.controller.scaleDownSince (spec.tenantId,spec.workloadId) = some since →
      ClockReading since ∧ since.toInt ≤ first.toInt)
    (unmarked : start.controller.scaleDownSince (spec.tenantId,spec.workloadId) = none →
      (passTimes trace).head? = some first)
    (reached : later ∈ passTimes trace)
    (enough : first.toInt + policy.stabilizationWindowSeconds.toNat ≤ later.toInt) : last.Settled key policy := by
  induction run with
  | nil => cases reached
  | @cons state next last event rest taken tail ih =>
    have here := calm _ mem_cons_self
    have calmer := fun transition member => calm transition (mem_cons_of_mem _ member)
    cases taken with
    | other same mark =>
      rw [← mark] at marks unmarked
      exact ih calmer (holds.of_same same) marks unmarked reached
    | @pass now clock =>
      obtain ⟨same,permits,reading⟩ := here _ _ rfl
      have since : ClockReading ((state.controller.scaleDownSince (spec.tenantId,spec.workloadId)).getD now) ∧
          ((state.controller.scaleDownSince (spec.tenantId,spec.workloadId)).getD now).toInt ≤ first.toInt := by
        cases mark : state.controller.scaleDownSince (spec.tenantId,spec.workloadId) with
        | none =>
          cases unmarked mark
          exact ⟨reading,Int.le_refl _⟩
        | some earlier => exact marks earlier mark
      rcases pass_acts declared enabled valid positive qualify acts holds same permits with settled | ⟨kept,early,mark⟩
      · exact settled.run tail
      · rcases mem_cons.mp reached with rfl | after
        · rw [elapsed_lt reading since.1] at early
          omega
        · refine ih calmer kept ?_ ?_ after
          · intro other found
            cases mark.symm.trans found
            exact since
          · intro missing
            cases mark.symm.trans missing

end

/-- The total ends in the range if it is there or not within the deadband of what the metrics ask for. -/
theorem total_brought_into_range_iff {key : Bytes} {record : WorkloadSpecRecord} {spec : WorkloadSpec}
    {policy : AutoscalingPolicy} {windows : List (List PodMetrics)} {start last : Autoscaled}
    {trace : List (Transition Autoscaled AutoscaleEvent)}
    (run : Run (Autoscales key (spec.tenantId,spec.workloadId)) start trace last)
    (holds : start.Holds key record spec) (declared : spec.autoscaling = some policy) (enabled : policy.enabled = true)
    (valid : policy.Valid) (positive : 0 < replicaSum spec.replicas) (qualify : windows ≠ [])
    (calm : ∀ transition ∈ trace, CalmPass spec windows transition) {first later : Int64}
    (begins : (passTimes trace).head? = some first) (reached : later ∈ passTimes trace)
    (enough : first.toInt + policy.stabilizationWindowSeconds.toNat ≤ later.toInt)
    (marks : ∀ since, start.controller.scaleDownSince (spec.tenantId,spec.workloadId) = some since →
      ClockReading since ∧ since.toInt ≤ first.toInt) :
    (∃ kept scaled, storedWorkload last.disk key = some (kept,scaled) ∧ policy.Admits (replicaSum scaled.replicas)) ↔
      policy.Admits (replicaSum spec.replicas) ∨ Acts policy spec windows := by
  constructor
  · rintro ⟨kept,scaled,stored,inside⟩
    by_contra neither
    obtain ⟨outside,idle⟩ := not_or.mp neither
    have still := run_idle declared enabled valid qualify run calm idle holds
    cases still.stored.symm.trans stored
    exact outside inside
  · intro fine
    have settled : last.Settled key policy := by
      rcases fine with inside | acts
      · exact Autoscaled.Settled.run ⟨record,spec,holds,declared,positive,inside⟩ run
      · exact run_acts declared enabled valid positive qualify run calm acts holds marks (fun _ => begins) reached enough
    obtain ⟨kept,scaled,stays,_,_,inside⟩ := settled
    exact ⟨kept,scaled,stays.stored,inside⟩

end

section
open Reference

def cpuPolicy : AutoscalingPolicy where
  enabled := true
  targetCpuMillicores := 100
  minReplicas := 1
  maxReplicas := 20
  stabilizationWindowSeconds := 60

def crowdedShop (count : UInt32) : WorkloadSpec := { webShop count with autoscaling := some cpuPolicy }

def busyWindow (windowUnix : UInt64) : PodMetrics := ⟨"shop-web-0",100,0,0,0,windowUnix⟩

def busyWindows : List PodMetrics := [busyWindow 0,busyWindow 60,busyWindow 120]

def crowded (count : UInt32) : Autoscaled where
  controller := ⟨⟨(∅ : ExtTreeMap String PodMetricsRecord compare).insert "shop-web-0" ⟨busyWindows,120⟩⟩,
    fun _ _ _ _ _ => .ok (),fun _ => none⟩
  disk := (apply (boot Disk.empty)
    [commandAt 1 (.submitWorkloadSpec ⟨"acme","shop",encodeWorkloadSpec (crowdedShop count),[]⟩),
      commandAt 2 (.commitPlacement ⟨"shop-web-0","acme","shop","web",0,workerId,⟨500,0⟩⟩)]).1.disk

def crowdedPass (count : UInt32) : Autoscaled := (crowded count).pass (workloadKey "acme" "shop") 1000 0

def crowdedLater (count : UInt32) : Autoscaled := (crowdedPass count).pass (workloadKey "acme" "shop") 1060 0

def crowdedTrace (count : UInt32) : List (Transition Autoscaled AutoscaleEvent) :=
  [⟨crowded count,.pass 1000 0,crowdedPass count⟩,⟨crowdedPass count,.pass 1060 0,crowdedLater count⟩]

theorem crowded_run (count : UInt32) :
    Run (Autoscales (workloadKey "acme" "shop") ("acme","shop")) (crowded count) (crowdedTrace count) (crowdedLater count) :=
  .cons .pass (.cons .pass (.nil _))

theorem crowded_steady {count : UInt32}
    (early : qualifyingWindows (crowded count).controller.metrics (crowded count).placements (crowdedShop count) =
      [busyWindows])
    (late : qualifyingWindows (crowdedPass count).controller.metrics (crowdedPass count).placements (crowdedShop count) =
      [busyWindows]) :
    ∀ transition ∈ crowdedTrace count, CalmPass (crowdedShop count) [busyWindows] transition := by
  intro transition member now clock label
  rcases mem_cons.mp member with rfl | member
  · dsimp only at label ⊢
    cases label
    exact ⟨early,fun _ _ => rfl,by decide,by decide⟩
  · rw [mem_singleton.mp member] at label ⊢
    dsimp only at label ⊢
    cases label
    refine ⟨late,fun role count => ?_,by decide,by decide⟩
    rw [crowdedPass,Autoscaled.pass_guard]
    rfl

/-- Twenty-one replicas are one too many, and so close to twenty that nothing is done about them. -/
theorem crowded_shop_stays_outside :
    Run (Autoscales (workloadKey "acme" "shop") ("acme","shop")) (crowded 21) (crowdedTrace 21) (crowdedLater 21) ∧
    (crowded 21).Holds (workloadKey "acme" "shop") ⟨"acme","shop",encodeWorkloadSpec (crowdedShop 21),[]⟩ (crowdedShop 21) ∧
    cpuPolicy.enabled = true ∧ cpuPolicy.Valid ∧ 0 < replicaSum (crowdedShop 21).replicas ∧
    (∀ transition ∈ crowdedTrace 21, CalmPass (crowdedShop 21) [busyWindows] transition) ∧
    passTimes (crowdedTrace 21) = [1000,1060] ∧
    ¬∃ kept scaled, storedWorkload (crowdedLater 21).disk (workloadKey "acme" "shop") = some (kept,scaled) ∧
      cpuPolicy.Admits (replicaSum scaled.replicas) := by
  have stays : storedWorkload (crowdedLater 21).disk (workloadKey "acme" "shop") =
      some (⟨"acme","shop",encodeWorkloadSpec (crowdedShop 21),[]⟩,crowdedShop 21) := by decide +kernel
  refine ⟨crowded_run 21,⟨by decide +kernel,rfl⟩,rfl,⟨by decide,by decide,by decide⟩,by decide +kernel,
    crowded_steady (by decide +kernel) (by decide +kernel),rfl,?_⟩
  rintro ⟨kept,scaled,stored,_,most⟩
  have same := (Prod.mk.inj (Option.some.inj (stays.symm.trans stored))).2
  rw [← same] at most
  exact absurd most (by decide +kernel)

theorem crowded_shop_brought_inside :
    ∃ kept scaled, storedWorkload (crowdedLater 40).disk (workloadKey "acme" "shop") = some (kept,scaled) ∧
      cpuPolicy.Admits (replicaSum scaled.replicas) := by
  have holds : (crowded 40).Holds (workloadKey "acme" "shop")
      ⟨"acme","shop",encodeWorkloadSpec (crowdedShop 40),[]⟩ (crowdedShop 40) := ⟨by decide +kernel,rfl⟩
  have valid : cpuPolicy.Valid := ⟨by decide,by decide,by decide⟩
  have calm := @crowded_steady 40 (by decide +kernel) (by decide +kernel)
  have times : passTimes (crowdedTrace 40) = [1000,1060] := rfl
  have acts : Acts cpuPolicy (crowdedShop 40) [busyWindows] :=
    ⟨20,by decide +kernel,by decide +kernel,fun _ _ _ => .inr ⟨rfl,rfl⟩⟩
  refine (total_brought_into_range_iff (crowded_run 40) holds rfl rfl valid (by decide +kernel)
    (List.cons_ne_nil _ _) calm (by rw [times]; rfl) (by rw [times]; exact .tail _ (.head _)) (by decide) ?_).mpr (.inr acts)
  intro since marked
  cases marked

end

section
variable {α : Type} {items : List α} (few : items.length < 2^64) (amount : α → UInt64)
include few

end

namespace VpaController
variable [FleetosCore]

end VpaController

open Reference VpaController

end FleetosControl
