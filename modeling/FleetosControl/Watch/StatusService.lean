import Mathlib.Data.List.DropRight
import FleetosControl.Admin.Service
import FleetosControl.Scheduler.Engine

/-! What agents report to the control plane. A heartbeat is taken only from the node it names; of the
metrics of a pod the newest windows are kept, since the pod was last dropped. -/
namespace FleetosControl
open Wire Std

structure PodMetrics where
  podId : String
  cpuMillicores : UInt32
  memoryBytes : UInt64
  netTxBytes : UInt64
  netRxBytes : UInt64
  windowUnix : UInt64
  deriving DecidableEq

structure PodMetricsRecord where
  windows : List PodMetrics
  lastUpdatedUnix : UInt64
  deriving DecidableEq

/-- The placements keyspace is an argument of the operations. -/
structure MetricsStore where
  pods : ExtTreeMap String PodMetricsRecord compare

namespace MetricsStore

def maxPods : Nat := 16384

def maxWindowsPerPod : Nat := 10

def getWindows (store : MetricsStore) (podId : String) : Option (List PodMetrics) := store.pods[podId]?.map (·.windows)

def pushWindow (windows : List PodMetrics) (metrics : PodMetrics) : List PodMetrics :=
  let pushed := windows ++ [metrics]
  if maxWindowsPerPod < pushed.length then pushed.tail else pushed

def report (store : MetricsStore) (placements : Contents) (now : UInt64) (metrics : PodMetrics) :
    Except String (Bool × MetricsStore) :=
  if metrics.podId.isEmpty then .error "pod_id cannot be empty"
  else if placements[asBytes metrics.podId]?.isNone then .error ("unknown pod_id: " ++ metrics.podId)
  else if !store.pods.contains metrics.podId && maxPods ≤ store.pods.size then .error "metrics store cap reached"
  else
    match store.pods[metrics.podId]? with
    | some record =>
      if record.windows.getLast?.any fun newest => metrics.windowUnix ≤ newest.windowUnix then .ok (false,store)
      else .ok (true,⟨store.pods.insert metrics.podId ⟨pushWindow record.windows metrics,now⟩⟩)
    | none => .ok (true,⟨store.pods.insert metrics.podId ⟨[metrics],now⟩⟩)

theorem report_other {kept} {store : MetricsStore} {now : UInt64} {accepted : Bool}
    (ok : store.report placements now metrics = .ok (accepted,kept)) (other : podId ≠ metrics.podId) :
    kept.getWindows podId = store.getWindows podId := by
  have apart : ¬compare metrics.podId podId = .eq := by simpa using other.symm
  unfold report at ok
  split at ok
  · cases ok
  · split at ok
    · cases ok
    · split at ok
      · cases ok
      · split at ok
        · split at ok
          · cases ok
            rfl
          · cases ok
            simp only [getWindows,ExtTreeMap.getElem?_insert,apart,if_false]
        · cases ok
          simp only [getWindows,ExtTreeMap.getElem?_insert,apart,if_false]

end MetricsStore

structure WorkloadStatusReport where
  podId : String
  workloadId : String
  tenantId : String
  ready : Bool
  live : Bool
  started : Bool
  policyEnforced : Bool
  restartCount : UInt32
  observedAtUnix : UInt64
  routerConnected : Bool

structure NodeStatusReport where
  nodeSvid : String

/-- An identity is displayed as spiffe://… -/
class SpiffeScheme [FleetosCore] : Prop where
  display_scheme : ∀ id, (asBytes "spiffe://").isPrefixOf (asBytes (display id)) = true

theorem display_ne_empty [FleetosCore] [SpiffeScheme] (id : SpiffeId) : display id ≠ "" := by
  intro blank
  have scheme := SpiffeScheme.display_scheme id
  rw [blank] at scheme
  revert scheme
  decide

section
variable [FleetosCore]

def reportPodMetrics (store : MetricsStore) (placements : Contents) (now : UInt64) (_caller : Peer) (metrics : PodMetrics) :
    Except Status (Bool × MetricsStore) :=
  (store.report placements now metrics).mapError fun e => ⟨.invalidArgument,e⟩

variable [Formats]

def reportWorkloadStatus (_caller : Peer) (report : WorkloadStatusReport) : Except Status AuditedCommand :=
  if report.podId.isEmpty then invalidArgument "pod_id cannot be empty"
  else .ok (.system (.upsertWorkloadStatus {
    podId := report.podId
    workloadId := report.workloadId
    tenantId := report.tenantId
    ready := report.ready
    live := report.live
    started := report.started
    policyEnforced := report.policyEnforced
    restartCount := report.restartCount
    observedAtUnix := report.observedAtUnix.toInt64
    routerConnected := report.routerConnected
    gateViolationSinceUnix := 0 }))

/-- The proposal of `report_node_status`, stamped with the clock of the control node that received it. -/
def reportNodeStatus (nodes : Contents) (now : Int64) (caller : Peer) (req : NodeStatusReport) :
    Except Status AuditedCommand :=
  match caller with
  | none => .error ⟨.unauthenticated,"no authenticated peer identity"⟩
  | some caller => do
    if req.nodeSvid.isEmpty then invalidArgument "node_svid cannot be empty"
    else
      let nodeSpiffe ← parseArgument req.nodeSvid "node_svid"
      if caller ≠ nodeSpiffe then permissionDenied "caller identity does not match node_svid"
      else
        match nodes[asBytes req.nodeSvid]? with
        | none => .error ⟨.notFound,"node '" ++ req.nodeSvid ++ "' is not registered"⟩
        | some recordBytes =>
          match fromBytes (α := NodeRecord) recordBytes with
          | .error e => .error ⟨.internal,"corrupt node record: " ++ e⟩
          | .ok record =>
            if record.status = .evicted then permissionDenied "node has been evicted; re-register to rejoin"
            else .ok (.system (.nodeHeartbeat req.nodeSvid now))

theorem reportNodeStatus_accepts [SpiffeScheme] {nodes : Contents} {node : SpiffeId} {bytes : Bytes} {record : NodeRecord}
    (stored : nodes[asBytes (display node)]? = some bytes) (decoded : fromBytes bytes = .ok record)
    (present : record.status ≠ .evicted) (now : Int64) :
    reportNodeStatus nodes now (some node) ⟨display node⟩ =
      .ok (.system (.nodeHeartbeat (display node) now)) := by
  simp [reportNodeStatus,parseArgument,parse_display,Except.mapError,bind,Except.bind,stored,decoded,present,
    display_ne_empty]

end

namespace MetricsStore

def ttlSeconds : UInt64 := 3600

def sweepExpired (store : MetricsStore) (now : UInt64) : MetricsStore :=
  ⟨store.pods.filter fun _ record => ResourceSpec.saturatingSub now ttlSeconds < record.lastUpdatedUnix⟩

end MetricsStore

open MetricsStore

inductive MetricsCall where
  | report (placements : Contents) (now : UInt64) (metrics : PodMetrics)
  | sweep (now : UInt64)

/-- The store, and for each pod what it has accepted since it last dropped the pod. -/
structure RecordedMetrics where
  store : MetricsStore := ⟨∅⟩
  accepted : String → List PodMetrics := fun _ => []

def RecordedMetrics.call (recorded : RecordedMetrics) : MetricsCall → RecordedMetrics
  | .report placements now metrics =>
    match recorded.store.report placements now metrics with
    | .ok (true,kept) => ⟨kept,Function.update recorded.accepted metrics.podId
        (recorded.accepted metrics.podId ++ [metrics])⟩
    | .ok (false,kept) => ⟨kept,recorded.accepted⟩
    | .error _ => recorded
  | .sweep now =>
    let kept := recorded.store.sweepExpired now
    ⟨kept,fun podId => if kept.pods.contains podId then recorded.accepted podId else []⟩

def Succeeds (earlier later : PodMetrics) : Prop := earlier.windowUnix < later.windowUnix

structure Windows (store : MetricsStore) (podId : String) (accepted : List PodMetrics) : Prop where
  advancing : accepted.Pairwise Succeeds
  newest : store.getWindows podId = if accepted = [] then none else some (accepted.rtake maxWindowsPerPod)

variable {store kept : MetricsStore} {podId : String} {accepted : List PodMetrics} {metrics : PodMetrics}
  {placements : Contents} {now : UInt64}

theorem report_accepts_iff : store.report placements now metrics = .ok (true,kept) ↔
    metrics.podId ≠ "" ∧ (placements[asBytes metrics.podId]?).isSome ∧
    ((∃ record, store.pods[metrics.podId]? = some record ∧
        (∀ newest, record.windows.getLast? = some newest → Succeeds newest metrics) ∧
        kept = ⟨store.pods.insert metrics.podId ⟨pushWindow record.windows metrics,now⟩⟩) ∨
      store.pods[metrics.podId]? = none ∧ store.pods.size < maxPods ∧
        kept = ⟨store.pods.insert metrics.podId ⟨[metrics],now⟩⟩) := by
  unfold MetricsStore.report
  cases found : store.pods[metrics.podId]? with
  | some record =>
    have tracked : store.pods.contains metrics.podId = true := by
      simp [ExtTreeMap.contains_eq_isSome_getElem?,found]
    cases last : record.windows.getLast? <;> simp [tracked,last,Succeeds] <;> grind
  | none =>
    have untracked : store.pods.contains metrics.podId = false := by
      simp [ExtTreeMap.contains_eq_isSome_getElem?,found]
    simp [untracked]
    grind

theorem pushWindow_rtake (accepted : List PodMetrics) (metrics : PodMetrics) :
    pushWindow (accepted.rtake maxWindowsPerPod) metrics = (accepted ++ [metrics]).rtake maxWindowsPerPod := by
  simp only [pushWindow,List.rtake,maxWindowsPerPod,List.length_append,List.length_drop,List.length_singleton]
  split
  case isTrue full =>
    rw [List.tail_append_of_ne_nil (List.ne_nil_of_length_pos (by rw [List.length_drop]; omega)),List.tail_drop,
      List.drop_append_of_le_length (by omega)]
    congr 2
    omega
  case isFalse room =>
    rw [List.drop_append_of_le_length (by omega)]
    congr 2
    omega

theorem advances_last {earlier : List PodMetrics} (advancing : (earlier ++ [newest]).Pairwise Succeeds)
    (later : Succeeds newest metrics) : (earlier ++ [newest] ++ [metrics]).Pairwise Succeeds := by
  refine List.pairwise_append.mpr ⟨advancing,List.pairwise_singleton _ _,fun report member other same => ?_⟩
  obtain rfl := mem_singleton.mp same
  rcases mem_append.mp member with old | new
  · have before := (List.pairwise_append.mp advancing).2.2 report old newest mem_cons_self
    exact UInt64.lt_trans before later
  · exact mem_singleton.mp new ▸ later

theorem Windows.tracked (windows : Windows store podId accepted) (tracked : store.pods[podId]? = some record) :
    ∃ earlier newest, accepted = earlier ++ [newest] ∧ record.windows = accepted.rtake maxWindowsPerPod ∧
      record.windows.getLast? = some newest := by
  have newest := windows.newest
  rw [getWindows,tracked,Option.map_some] at newest
  split at newest
  · cases newest
  case isFalse some =>
    obtain ⟨earlier,last,rfl⟩ := (List.eq_nil_or_concat' accepted).resolve_left some
    have same := Option.some.inj newest
    refine ⟨earlier,last,rfl,same,?_⟩
    rw [same,maxWindowsPerPod,List.rtake_concat_succ,List.getLast?_concat]

theorem Windows.untracked (windows : Windows store podId accepted) (untracked : store.pods[podId]? = none) :
    accepted = [] := by
  have newest := windows.newest
  rw [getWindows,untracked,Option.map_none] at newest
  split at newest
  case isTrue empty => exact empty
  · cases newest

theorem Windows.report (windows : Windows store metrics.podId accepted)
    (ok : store.report placements now metrics = .ok (true,kept)) : Windows kept metrics.podId (accepted ++ [metrics]) := by
  obtain ⟨_,_,⟨record,tracked,advances,rfl⟩ | ⟨untracked,_,rfl⟩⟩ := report_accepts_iff.mp ok
  · obtain ⟨earlier,newest,rfl,same,last⟩ := windows.tracked tracked
    refine ⟨advances_last windows.advancing (advances newest last),?_⟩
    simp [getWindows,same,pushWindow_rtake]
  · obtain rfl := windows.untracked untracked
    exact ⟨List.pairwise_singleton _ _,by simp [getWindows,List.rtake,maxWindowsPerPod]⟩

theorem report_refuses (ok : store.report placements now metrics = .ok (false,kept)) : kept = store := by
  unfold MetricsStore.report at ok
  grind

def RecordedMetrics.Sound (recorded : RecordedMetrics) : Prop :=
  ∀ podId, Windows recorded.store podId (recorded.accepted podId)

theorem RecordedMetrics.Sound.call {recorded : RecordedMetrics} (sound : recorded.Sound) (call : MetricsCall) :
    (recorded.call call).Sound := by
  intro podId
  cases call with
  | report placements now metrics =>
    simp only [RecordedMetrics.call]
    split
    case h_1 kept ok =>
      by_cases own : podId = metrics.podId
      · subst own
        simpa using (sound metrics.podId).report ok
      · refine ⟨?_,?_⟩
        · simpa [own] using (sound podId).advancing
        · simpa [own,report_other ok own] using (sound podId).newest
    case h_2 kept refused =>
      obtain rfl := report_refuses refused
      exact sound podId
    · exact sound podId
  | sweep now =>
    have old := sound podId
    simp only [RecordedMetrics.call,sweepExpired,ExtTreeMap.contains_eq_isSome_getElem?,
      ExtTreeMap.getElem?_filter']
    cases kept : recorded.store.pods[podId]?.filter _ with
    | none => exact ⟨.nil,by simp [getWindows,kept]⟩
    | some record =>
      refine ⟨old.advancing,Eq.trans ?_ old.newest⟩
      rw [getWindows,getWindows,ExtTreeMap.getElem?_filter',kept,(Option.filter_eq_some_iff.mp kept).1]

theorem recorded_sound (calls : List MetricsCall) : (calls.foldl RecordedMetrics.call {}).Sound := by
  induction calls using List.reverseRecOn with
  | nil => exact fun podId => ⟨.nil,rfl⟩
  | append_singleton calls call ih =>
    rw [List.foldl_append]
    exact ih.call call

/-- What is stored of each pod after any calls, and what the next report has to be. -/
theorem metric_windows_exact (calls : List MetricsCall) :
    let recorded := calls.foldl RecordedMetrics.call {}
    (∀ podId, recorded.store.getWindows podId =
        (if recorded.accepted podId = [] then none else some ((recorded.accepted podId).rtake maxWindowsPerPod)) ∧
      ∀ windows, recorded.store.getWindows podId = some windows →
        windows.Pairwise Succeeds ∧ windows.length ≤ maxWindowsPerPod) ∧
    ∀ placements now metrics, (∃ kept, recorded.store.report placements now metrics = .ok (true,kept)) ↔
      (metrics.podId ≠ "" ∧ (placements[asBytes metrics.podId]?).isSome) ∧
      ((∃ windows newest, recorded.store.getWindows metrics.podId = some windows ∧ windows.getLast? = some newest ∧
          Succeeds newest metrics) ∨
        recorded.store.getWindows metrics.podId = none ∧ recorded.store.pods.size < maxPods) := by
  intro recorded
  have sound := recorded_sound calls
  constructor
  · intro podId
    refine ⟨(sound podId).newest,fun windows stored => ?_⟩
    obtain ⟨record,tracked,rfl⟩ := map_eq_some_iff.mp stored
    obtain ⟨_,_,_,same,_⟩ := (sound podId).tracked tracked
    rw [same]
    exact ⟨(sound podId).advancing.sublist (List.drop_sublist _ _),by simp [List.rtake]; omega⟩
  · intro placements now metrics
    simp only [report_accepts_iff,getWindows,Option.map_eq_none_iff,and_assoc]
    cases found : recorded.store.pods[metrics.podId]? with
    | none => simp
    | some record =>
      obtain ⟨_,newest,_,_,last⟩ := (sound metrics.podId).tracked found
      simp [last]

end FleetosControl
