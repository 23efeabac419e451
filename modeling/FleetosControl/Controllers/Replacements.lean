import FleetosControl.Controllers.NoExecute
import FleetosControl.Controllers.SlotCommands

/-! What a pod is judged by: the last report under its id, the time written into it, and since when
the policy was not enforced. -/
namespace FleetosControl
open KeyValue Trace

def WorkloadStatusRecord.inViolation (record : WorkloadStatusRecord) : Bool :=
  record.started && (!record.policyEnforced || !record.routerConnected)

section
def nextSince (since : Int64) (report : WorkloadStatusRecord) : Int64 :=
  if report.inViolation then if 0 < since then since else report.observedAtUnix else 0

def sinceAfter (reports : List WorkloadStatusRecord) : Int64 := reports.foldl nextSince 0

def currentRun (reports : List WorkloadStatusRecord) : List WorkloadStatusRecord := reports.rtakeWhile (·.inViolation)

structure GateTracked (reports : List WorkloadStatusRecord) (last stored : WorkloadStatusRecord) : Prop where
  zero_iff : stored.gateViolationSinceUnix = 0 ↔ last.inViolation = false
  begins : ∀ first ∈ (currentRun reports).head?, stored.gateViolationSinceUnix = first.observedAtUnix
  noticed : ∀ first ∈ (currentRun reports).head?, ∀ now : Int64, 0 ≤ now →
    readinessGateGraceSecs.toInt < now.toInt - first.observedAtUnix.toInt →
    readinessGateViolationSustained stored readinessGateGraceSecs now = true

theorem sinceAfter_eq (reports : List WorkloadStatusRecord) :
    sinceAfter reports = (currentRun reports).foldl nextSince 0 := by
  induction reports using List.reverseRecOn with
  | nil => rfl
  | append_singleton earlier report ih =>
    unfold sinceAfter currentRun at ih ⊢
    rw [List.foldl_append,ih,List.rtakeWhile_concat]
    split
    case isTrue => rw [List.foldl_append]
    case isFalse calm => simp [nextSince,calm]

variable {reports : List WorkloadStatusRecord}

theorem foldl_nextSince {since : Int64} (positive : 0 < since)
    (violating : ∀ report ∈ reports, report.inViolation = true) : reports.foldl nextSince since = since := by
  induction reports with
  | nil => rfl
  | cons report rest ih =>
    have kept : nextSince since report = since := by
      rw [nextSince,if_pos (violating report mem_cons_self),if_pos positive]
    rw [List.foldl_cons,kept]
    exact ih fun later member => violating later (mem_cons_of_mem _ member)

theorem gateTracked_iff {last stored : WorkloadStatusRecord} (ends : reports.getLast? = some last)
    (kept : stored.gateViolationSinceUnix = sinceAfter reports) :
    GateTracked reports last stored ↔ ∀ first ∈ (currentRun reports).head?, 0 < first.observedAtUnix := by
  obtain ⟨earlier,rfl⟩ := List.getLast?_eq_some_iff.mp ends
  constructor
  · intro tracked first begins
    -- half a minute past the epoch a run that began no later than that has to be noticed
    by_contra late
    have early : first.observedAtUnix.toInt ≤ 0 := by
      rw [Int64.lt_iff_toInt_lt] at late
      exact Int.not_lt.mp late
    have noticed := tracked.noticed first begins 31 (by decide) (by
      change (30 : Int) < 31 - _
      omega)
    simp only [readinessGateViolationSustained,tracked.begins first begins,Bool.and_eq_true,decide_eq_true_eq] at noticed
    exact late noticed.1
  · intro positive
    cases run : currentRun (earlier ++ [last]) with
    | nil =>
      have calm : last.inViolation = false := by
        have quiet := List.rtakeWhile_eq_nil_iff.mp run (by simp)
        simpa using quiet
      have zero : stored.gateViolationSinceUnix = 0 := by
        rw [kept,sinceAfter_eq,run]
        rfl
      exact ⟨by simp [zero,calm],by simp [run],by simp [run]⟩
    | cons first rest =>
      have violating : ∀ report ∈ first::rest, report.inViolation = true :=
        fun report member => List.mem_rtakeWhile_imp (run ▸ member)
      have starts := positive first (by simp [run])
      have since : stored.gateViolationSinceUnix = first.observedAtUnix := by
        rw [kept,sinceAfter_eq,run,List.foldl_cons,nextSince,if_pos (violating first mem_cons_self),
          if_neg (by decide)]
        exact foldl_nextSince starts fun report member => violating report (mem_cons_of_mem _ member)
      have shows : last.inViolation = true := by
        by_contra calm
        rw [currentRun,List.rtakeWhile_concat,if_neg calm] at run
        cases run
      rw [Int64.lt_iff_toInt_lt] at starts
      refine ⟨?_,?_,?_⟩
      · rw [since,shows]
        refine ⟨fun zero => ?_,nofun⟩
        rw [zero] at starts
        exact absurd starts (lt_irrefl _)
      · intro start begins
        cases run ▸ begins
        exact since
      · intro start begins now epoch lasted
        cases run ▸ begins
        have present := Int64.le_iff_toInt_le.mp epoch
        have bound := now.toInt_lt
        have begun := first.observedAtUnix.toInt_lt
        have zero : (0 : Int64).toInt = 0 := rfl
        simp only [readinessGateViolationSustained,since,Int64.lt_iff_toInt_lt,Bool.and_eq_true,decide_eq_true_eq]
        refine ⟨starts,?_⟩
        rw [Int64.toInt_sub,Int.bmod_eq_of_le (by omega) (by omega)]
        exact lasted

end

section
variable [FleetosCore] [Formats] {podId : String} {status : Option WorkloadStatusRecord}

def Entry.reportOn (podId : String) (entry : Entry) : Option WorkloadStatusRecord :=
  match entry.payload with
  | .normal ⟨.upsertWorkloadStatus record,_⟩ => if record.podId = podId then some record else none
  | _ => none

def reportsOn (podId : String) (trace : List (Transition Node Entry)) : List WorkloadStatusRecord :=
  trace.filterMap (·.label.reportOn podId)

def keepReport (previous : Option WorkloadStatusRecord) (report : WorkloadStatusRecord) : Option WorkloadStatusRecord :=
  some { report with gateViolationSinceUnix := nextSince (previous.elim 0 (·.gateViolationSinceUnix)) report }

def StatusIs (podId : String) (status : Option WorkloadStatusRecord) (disk : Disk) : Prop :=
  (disk .workloadStatus)[asBytes podId]? = status.map toAllocvec

omit [FleetosCore] [Formats] in
theorem foldl_keepReport (reports : List WorkloadStatusRecord) : reports.foldl keepReport none =
    reports.getLast?.map fun last => { last with gateViolationSinceUnix := sinceAfter reports } := by
  induction reports using List.reverseRecOn with
  | nil => rfl
  | append_singleton earlier report ih =>
    rw [List.foldl_append,ih]
    simp only [List.foldl_cons,List.foldl_nil,keepReport,List.getLast?_append,List.getLast?_singleton,Option.some_or,
      Option.map_some,sinceAfter,List.foldl_append]
    cases earlier using List.reverseRecOn <;> simp

theorem advances_status (advances : Advances before entry after) (stored : StatusIs podId status before.disk) :
    StatusIs podId ((entry.reportOn podId).elim status (keepReport status)) after.disk := by
  unfold Entry.reportOn
  split
  case h_1 record _ normal =>
    obtain ⟨writes,kind,ok,same⟩ := advances.applied normal
    cases ok
    unfold StatusIs at stored ⊢
    rw [same .workloadStatus rfl]
    split
    case isTrue own =>
      subst own
      have read : ((before.disk .workloadStatus)[asBytes record.podId]?.bind fun bytes =>
          (fromBytes (α := WorkloadStatusRecord) bytes).toOption) = status := by
        rw [stored]
        cases status <;> simp [fromBytes_toAllocvec,Except.toOption]
      have written : upsertWorkloadStatus before.disk record =
          (keepReport status record).toList.map (put .workloadStatus (asBytes record.podId)) := by
        simp only [upsertWorkloadStatus,read]
        cases status <;> rfl
      simp [written,keepReport,put,perform,Write.on]
    case isFalse other =>
      rw [commit_lookup_other]
      · exact stored
      · simpa [upsertWorkloadStatus,put,Write.key] using other
  case h_2 others =>
    unfold StatusIs at stored ⊢
    rw [advances.frame rfl]
    · exact stored
    · rintro ⟨cmd,audit⟩ normal
      cases cmd
      case upsertWorkloadStatus record => exact (others record audit normal).elim
      all_goals simp [touches]

theorem run_status (run : Run Advances first trace last) (stored : StatusIs podId status first.disk) :
    StatusIs podId ((reportsOn podId trace).foldl keepReport status) last.disk := by
  induction run generalizing status with
  | nil => exact stored
  | cons taken _ ih =>
    have next := ih (advances_status taken stored)
    rw [reportsOn,List.filterMap_cons]
    cases reported : Entry.reportOn podId _ with
    | none =>
      rw [reported] at next
      exact next
    | some report =>
      rw [reported] at next
      exact next

/-- The first report of a violation is kept and noticed exactly if it carries a time above zero. -/
theorem gate_tracked_iff {trace : List (Transition Node Entry)} {node : Node} (run : Run Advances (boot Disk.empty) trace node)
    {podId : String} {last : WorkloadStatusRecord} (reported : (reportsOn podId trace).getLast? = some last) :
    ∃ stored, getWorkloadStatus node.disk podId = .ok (some stored) ∧
      (GateTracked (reportsOn podId trace) last stored ↔
        ∀ first ∈ (currentRun (reportsOn podId trace)).head?, 0 < first.observedAtUnix) := by
  have stored : StatusIs podId ((reportsOn podId trace).foldl keepReport none) node.disk :=
    run_status run (by simp [StatusIs,Disk.empty])
  rw [foldl_keepReport,reported] at stored
  refine ⟨{ last with gateViolationSinceUnix := sinceAfter (reportsOn podId trace) },?_,gateTracked_iff reported rfl⟩
  unfold getWorkloadStatus
  rw [stored]
  simp [fromBytes_toAllocvec,Except.map]

namespace PodController

-- a scheduler error, or the text of `StorageError::NotFound`
def reconcileDeadPod (storage : Disk) (slot : Slot) : Except (SchedulerError ⊕ String) AuditedCommand :=
  match getAssignment storage slot with
  | .error e => .error (.inl e)
  | .ok none => .error (.inr ("ordinal assignment for " ++ slot.tenantId ++ ":" ++ slot.workloadId ++ ":" ++ slot.role ++
      ":" ++ toString slot.ordinal))
  | .ok (some _) => .ok (.system (.reassignPodId slot.tenantId slot.workloadId slot.role slot.ordinal slot.podId))

end PodController

def Used (slot : Slot) (trace : List (Transition Node Entry)) (node : Node) : Prop :=
  Placed node.disk slot ∨ ∃ transition ∈ trace, Placed transition.before.disk slot

/-- What is asked of a replacement: an id that no pod of the slot has had, and under it nothing to be judged by. -/
structure JudgedAlone (slot : Slot) (cmd : FleetosCommand) (trace : List (Transition Node Entry)) (node after : Node)
    (metrics : MetricsStore) : Prop where
  fresh : ∀ newPodId, cmd = .reassignPodId slot.tenantId slot.workloadId slot.role slot.ordinal newPodId →
    ∀ state : Node, (state = node ∨ ∃ transition ∈ trace, transition.before = state) →
      ∀ placement ∈ scanRecords Placement state.disk .placements, placement.slot = slot → placement.podId ≠ newPodId
  unjudged : ∀ placement ∈ scanRecords Placement after.disk .placements, placement.slot = slot →
    getWorkloadStatus after.disk placement.podId = .ok none ∧ metrics.getWindows placement.podId = none

/-- A replacement is judged by itself exactly if there was nothing to replace: the slot has never had a pod. -/
theorem replacement_judged_alone_iff [Merges] {trace : List (Transition Node Entry)} {node after : Node}
    (run : Run Advances (boot Disk.empty) trace node) (formats : ∀ transition ∈ trace, transition.label.NamesPods)
    {slot : Slot} {audited : AuditedCommand} (replaced : PodController.reconcileDeadPod node.disk slot = .ok audited)
    (applied : AppliesCommand node audited.cmd after) (metrics : MetricsStore) :
    JudgedAlone slot audited.cmd trace node after metrics ↔ ¬Used slot trace node := by
  have same : audited.cmd = .reassignPodId slot.tenantId slot.workloadId slot.role slot.ordinal slot.podId := by
    unfold PodController.reconcileDeadPod at replaced
    split at replaced
    · cases replaced
    · cases replaced
    · cases replaced
      rfl
  obtain ⟨earlier,current⟩ := run_keyed run formats
  have own : ∀ disk, Keyed disk → ∀ placement ∈ scanRecords Placement disk .placements, placement.slot = slot →
      placement.podId = slot.podId := by
    intro disk keyed placement listed slotted
    obtain ⟨key,bytes,stored,decoded⟩ := mem_scanRecords.mp listed
    rw [(keyed key bytes placement stored decoded).2,slotted]
  constructor
  · rintro judged (⟨placement,listed,slotted⟩ | ⟨transition,member,placement,listed,slotted⟩)
    · exact judged.fresh _ same node (.inl rfl) placement listed slotted (own _ current placement listed slotted)
    · exact judged.fresh _ same _ (.inr ⟨transition,member,rfl⟩) placement listed slotted
        (own _ (earlier transition member).1 placement listed slotted)
  · intro unused
    refine ⟨?_,?_⟩
    · rintro newPodId _ state (rfl | ⟨transition,member,rfl⟩) placement listed slotted
      · exact absurd (.inl ⟨placement,listed,slotted⟩) unused
      · exact absurd (.inr ⟨transition,member,placement,listed,slotted⟩) unused
    · intro placement listed slotted
      obtain ⟨writes,kind,ok,contents⟩ := applied.commits
      rw [same] at ok
      cases ok
      rw [reassignPodId_empty fun other known taken => unused (.inl ⟨other,known,taken⟩)] at contents
      rw [scanRecords_congr (contents .placements rfl)] at listed
      exact absurd (.inl ⟨placement,listed,slotted⟩) unused

end

section
open Reference NoMessages

def shopSlot : Slot := ⟨"acme","shop","web",0⟩

def unenforced (observedAtUnix : UInt64) : WorkloadStatusReport :=
  ⟨"shop-web-0","shop","acme",false,true,true,false,0,observedAtUnix,true⟩

def unenforcedSince (observedAtUnix since : Int64) : WorkloadStatusRecord :=
  ⟨"shop-web-0","shop","acme",false,true,true,false,0,observedAtUnix,true,since⟩

def oneReport (observedAtUnix : Int64) : Entry :=
  commandAt 1 (.upsertWorkloadStatus (unenforcedSince observedAtUnix 0))

theorem gate_tracked_late_report : ∃ stored,
    getWorkloadStatus (apply (boot Disk.empty) [oneReport 40]).1.disk "shop-web-0" = .ok (some stored) ∧
      GateTracked [unenforcedSince 40 0] (unenforcedSince 40 0) stored := by
  have taken : Run Advances (boot Disk.empty) [⟨boot Disk.empty,oneReport 40,_⟩] (apply (boot Disk.empty) [oneReport 40]).1 :=
    .cons (advances_apply (by decide +kernel)) (.nil _)
  obtain ⟨stored,read,iff⟩ := @gate_tracked_iff _ _ _ _ taken "shop-web-0" _ rfl
  exact ⟨_,read,iff.mpr (by decide +kernel)⟩

/-- Nothing tells the record from one without a violation. -/
theorem violation_at_epoch_unnoticed :
    reportWorkloadStatus none (unenforced 0) = .ok (.system (.upsertWorkloadStatus (unenforcedSince 0 0))) ∧
    getWorkloadStatus (apply (boot Disk.empty) [oneReport 0]).1.disk "shop-web-0" = .ok (some (unenforcedSince 0 0)) ∧
    (unenforcedSince 0 0).inViolation = true ∧
    readinessGateViolationSustained (unenforcedSince 0 0) readinessGateGraceSecs 1700000000 = false := by
  refine ⟨rfl,?_,?_,?_⟩ <;> decide +kernel

def freedSlot : Entry := commandAt 1 (.recordOrdinalAssignment ⟨"acme","shop","web",0,none,none⟩)

def replacement : FleetosCommand := .reassignPodId "acme" "shop" "web" 0 "shop-web-0"

theorem replacement_of_nothing_judged_alone :
    JudgedAlone shopSlot replacement [⟨boot Disk.empty,freedSlot,(apply (boot Disk.empty) [freedSlot]).1⟩]
      (apply (boot Disk.empty) [freedSlot]).1 (apply (apply (boot Disk.empty) [freedSlot]).1 [commandAt 2 replacement]).1
      ⟨∅⟩ := by
  have taken : Run Advances (boot Disk.empty) [⟨boot Disk.empty,freedSlot,_⟩] (apply (boot Disk.empty) [freedSlot]).1 :=
    .cons (advances_apply (by decide +kernel)) (.nil _)
  have named : freedSlot.NamesPods := by
    refine ⟨?_,?_⟩ <;> rintro _ ⟨⟩
    · trivial
    · exact ⟨nofun,nofun⟩
  have decided : PodController.reconcileDeadPod (apply (boot Disk.empty) [freedSlot]).1.disk shopSlot =
      .ok (.system replacement) := by rfl
  refine (replacement_judged_alone_iff taken (by simpa using named) decided
    ⟨commandAt 2 replacement,_,rfl,rfl,advances_apply (by decide +kernel)⟩ ⟨∅⟩).mpr ?_
  unfold Used
  decide +kernel

def downReport : WorkloadStatusRecord := ⟨"shop-web-0","shop","acme",false,false,true,true,1,1000,true,0⟩

def downShop : Node := (apply acmePlaced [commandAt 20 (.upsertWorkloadStatus downReport)]).1

def replacedShop : Node := (apply downShop [commandAt 21 replacement]).1

/-- The replacement has the id of its predecessor, which was reported dead. -/
theorem replacement_held_for_dead : isDead downShop.disk 90 1010 shopSlot = true ∧
    PodController.reconcileDeadPod downShop.disk shopSlot = .ok (.system replacement) ∧
    Placed replacedShop.disk shopSlot ∧ getWorkloadStatus replacedShop.disk "shop-web-0" = .ok (some downReport) ∧
    isDead replacedShop.disk 90 1010 shopSlot = true := by
  refine ⟨by decide +kernel,?_,?_,?_,?_⟩
  · rfl
  all_goals decide +kernel

end

section
variable [FleetosCore] [Formats]

def AgeFits (now observedAtUnix : Int64) : Prop :=
  -2 ^ 63 ≤ now.toInt - observedAtUnix.toInt ∧ now.toInt - observedAtUnix.toInt < 2 ^ 63

def SilentAt (received stalenessSecs now : Int64) : Prop := received.toInt + stalenessSecs.toInt < now.toInt

structure Detected (node : Node) (slot : Slot) (reports : List WorkloadStatusRecord) (received stalenessSecs : Int64) :
    Prop where
  dead : ∀ now, SilentAt received stalenessSecs now → isDead node.disk stalenessSecs now slot = true
  fits : ∀ now, SilentAt received stalenessSecs now → ∀ last ∈ reports.getLast?, AgeFits now last.observedAtUnix

def ViolatingBy (reports : List WorkloadStatusRecord) (time : Int) : Prop :=
  0 < (sinceAfter reports).toInt ∧ readinessGateGraceSecs.toInt < time - (sinceAfter reports).toInt

omit [FleetosCore] [Formats] in
theorem lt_sub_iff_toInt {bound now earlier : Int64} (fits : AgeFits now earlier) :
    bound < now - earlier ↔ bound.toInt < now.toInt - earlier.toInt := by
  obtain ⟨low,high⟩ := fits
  rw [Int64.lt_iff_toInt_lt,Int64.toInt_sub,Int.bmod_eq_of_le (by omega) (by omega)]

theorem isDead_iff (run : Run Advances (boot Disk.empty) trace node) {placement}
    (placed : (scanRecords Placement node.disk .placements).find? (fun placement => placement.slot = slot) = some placement)
    (stalenessSecs now : Int64) : isDead node.disk stalenessSecs now slot = true ↔
      ∃ last, (reportsOn placement.podId trace).getLast? = some last ∧ (last.live = false ∨
        stalenessSecs < now - last.observedAtUnix ∨ 0 < sinceAfter (reportsOn placement.podId trace) ∧
          readinessGateGraceSecs < now - sinceAfter (reportsOn placement.podId trace)) := by
  have stored : StatusIs placement.podId ((reportsOn placement.podId trace).foldl keepReport none) node.disk :=
    run_status run (by simp [StatusIs,Disk.empty])
  rw [foldl_keepReport] at stored
  have read : getWorkloadStatus node.disk placement.podId = .ok ((reportsOn placement.podId trace).getLast?.map fun last =>
      { last with gateViolationSinceUnix := sinceAfter (reportsOn placement.podId trace) }) := by
    unfold getWorkloadStatus
    rw [stored]
    cases (reportsOn placement.podId trace).getLast? <;> simp [fromBytes_toAllocvec,Except.map]
  unfold isDead
  rw [placed]
  simp only [read]
  cases (reportsOn placement.podId trace).getLast? with
  | none => simp
  | some last => simp [readinessGateViolationSustained,or_assoc]

/-- A silent pod is found out if it has reported, at a time that is neither negative nor ahead of the receipt. -/
theorem silent_pod_detected_iff {trace : List (Transition Node Entry)} {node : Node}
    (run : Run Advances (boot Disk.empty) trace node) {slot : Slot} {placement : Placement}
    (placed : (scanRecords Placement node.disk .placements).find? (fun placement => placement.slot = slot) = some placement)
    {received stalenessSecs : Int64} (clock : 0 ≤ received.toInt) (timeout : 0 ≤ stalenessSecs.toInt)
    (ahead : received.toInt + stalenessSecs.toInt < 2 ^ 63 - 1) :
    Detected node slot (reportsOn placement.podId trace) received stalenessSecs ↔
      ∃ last, (reportsOn placement.podId trace).getLast? = some last ∧ 0 ≤ last.observedAtUnix.toInt ∧
        (last.observedAtUnix.toInt ≤ received.toInt ∨ last.live = false ∨
          ViolatingBy (reportsOn placement.podId trace) (received.toInt + stalenessSecs.toInt + 1)) := by
  have reached : ∀ time : Int, received.toInt + stalenessSecs.toInt < time → time < 2 ^ 63 →
      (Int64.ofInt time).toInt = time := fun time late small => Int64.toInt_ofInt_of_le (by omega) (by omega)
  have zero : ∀ since : Int64, 0 < since ↔ 0 < since.toInt := fun since => by rw [Int64.lt_iff_toInt_lt]; rfl
  have bounded : ∀ time : Int64, time.toInt < 2 ^ 63 := fun time => Int64.toInt_lt time
  constructor
  · rintro ⟨dead,fits⟩
    have first := reached (received.toInt + stalenessSecs.toInt + 1) (by omega) (by omega)
    have late := dead (.ofInt (received.toInt + stalenessSecs.toInt + 1)) (by unfold SilentAt; omega)
    obtain ⟨last,reported,because⟩ := (isDead_iff run placed _ _).mp late
    have positive : 0 ≤ last.observedAtUnix.toInt := by
      have final := reached (2 ^ 63 - 1) (by omega) (by omega)
      have fit := (fits (.ofInt (2 ^ 63 - 1)) (by unfold SilentAt; omega) last reported).2
      omega
    refine ⟨last,reported,positive,?_⟩
    rcases because with down | stale | ⟨since,violating⟩
    · exact .inr (.inl down)
    · rw [lt_sub_iff_toInt (by have := bounded last.observedAtUnix; constructor <;> omega)] at stale
      exact .inl (by omega)
    · rw [zero] at since
      rw [lt_sub_iff_toInt (by have := bounded (sinceAfter (reportsOn placement.podId trace)); constructor <;> omega),
        first] at violating
      exact .inr (.inr ⟨since,violating⟩)
  · rintro ⟨last,reported,positive,because⟩
    have fit : ∀ {now earlier : Int64}, SilentAt received stalenessSecs now → 0 ≤ earlier.toInt → AgeFits now earlier := by
      intro now earlier silent after
      have high := bounded now
      have low := bounded earlier
      unfold SilentAt at silent
      constructor <;> omega
    refine ⟨fun now silent => (isDead_iff run placed _ _).mpr ⟨last,reported,?_⟩,?_⟩
    · rcases because with past | down | ⟨since,violating⟩
      · rw [lt_sub_iff_toInt (fit silent positive)]
        unfold SilentAt at silent
        exact .inr (.inl (by omega))
      · exact .inl down
      · refine .inr (.inr ⟨(zero _).mpr since,?_⟩)
        rw [lt_sub_iff_toInt (fit silent since.le)]
        unfold SilentAt at silent
        omega
    · intro now silent other same
      cases reported.symm.trans same
      exact fit silent positive

end

open Reference NoMessages

def silentPod : Placement := ⟨"shop-web-0","acme","shop","web",0,workerId,⟨500,268435456⟩⟩

def silentReport (observedAtUnix : Int64) : WorkloadStatusRecord :=
  ⟨"shop-web-0","shop","acme",true,true,true,true,0,observedAtUnix,true,0⟩

def silentNode : Node := (apply (boot Disk.empty) [commandAt 1 (.commitPlacement silentPod)]).1

def reportedAt (observedAtUnix : Int64) : Node :=
  (apply silentNode [commandAt 2 (.upsertWorkloadStatus (silentReport observedAtUnix))]).1

theorem silent_shop_detected : Detected (reportedAt 1000) shopSlot [silentReport 1000] 1010 90 := by
  have taken : Run Advances (boot Disk.empty) [⟨boot Disk.empty,commandAt 1 (.commitPlacement silentPod),silentNode⟩,
      ⟨silentNode,commandAt 2 (.upsertWorkloadStatus (silentReport 1000)),reportedAt 1000⟩] (reportedAt 1000) :=
    .cons (advances_apply (by decide +kernel)) (.cons (advances_apply (by decide +kernel)) (.nil _))
  exact (@silent_pod_detected_iff _ _ _ _ taken shopSlot silentPod (by decide +kernel) 1010 90 (by decide) (by decide)
    (by decide)).mpr ⟨silentReport 1000,rfl,by decide,.inl (by decide)⟩

/-- A day after the last report, which said that it was made in the year 2100, or in a year that the cast has wrapped;
and a day after a placement that no report has followed. -/
theorem silent_shop_undetected : isDead (reportedAt 4102444800).disk 90 1700086400 shopSlot = false ∧
    isDead silentNode.disk 90 1700086400 shopSlot = false ∧
    reportWorkloadStatus none ⟨"shop-web-0","shop","acme",true,true,true,true,0,9223372036854775808,true⟩ =
      .ok (.system (.upsertWorkloadStatus (silentReport Int64.minValue))) ∧
    ¬AgeFits 1700086400 Int64.minValue ∧ isDead (reportedAt Int64.minValue).disk 90 1700086400 shopSlot = false := by
  refine ⟨by decide +kernel,by decide +kernel,by rfl,?_,by decide +kernel⟩
  rintro ⟨_,high⟩
  exact absurd high (by decide)

end FleetosControl
