import FleetosControl.Controllers.SpecWriters
import Mathlib.Data.Int.ConditionallyCompleteOrder

/-! Triggers across leaders. A pass computes what is due from the checkpoint in its own store; the
entry is applied without looking at either again. -/
namespace FleetosControl
open Wire KeyValue Trace Views

class DueTimes [CronSchedules] : Prop where
  due_between : ∀ {expression : String} {since now due : Int64},
    CronSchedules.latestDue expression since now = some due → since < due ∧ due ≤ now

def runKey (tenantId cronWorkloadId : String) (due : Int64) : Bytes :=
  workloadKey tenantId (cronWorkloadId ++ "-" ++ toString due)

theorem runKey_inj {left right : Int64} :
    runKey tenantId cronWorkloadId left = runKey tenantId cronWorkloadId right ↔ left = right := by
  constructor
  · intro same
    have names := congrArg String.toList (asBytes_injective same)
    simp only [String.toList_append,List.append_assoc,List.append_cancel_left_eq] at names
    exact Int64.toInt.inj (Separated.toString_int_inj.mp (String.toList_inj.mp names))
  · exact congrArg _

section
variable [FleetosCore] {checkpoint : CronCheckpointRecord} {key : Bytes} {stored : Stored}
  {tenantId cronWorkloadId : String}

def Entry.triggers (tenantId cronWorkloadId : String) (entry : Entry) : Option Int64 :=
  match entry.payload with
  | .normal ⟨.triggerCronWorkload _ checkpoint,_⟩ =>
    if checkpoint.tenantId = tenantId ∧ checkpoint.cronWorkloadId = cronWorkloadId then
      some checkpoint.lastTriggeredAtUnix
    else none
  | _ => none

def Entry.Checkpoints (entry : Entry) (key : Bytes) (checkpoint : CronCheckpointRecord) : Prop :=
  workloadKey checkpoint.tenantId checkpoint.cronWorkloadId = key ∧ ∃ audited, entry.payload = .normal audited ∧
    ((∃ record, audited.cmd = .submitCronWorkload record checkpoint) ∨
      ∃ record, audited.cmd = .triggerCronWorkload record checkpoint)

theorem FleetosCommand.Files.trigger_key
    (files : FleetosCommand.Files (.triggerCronWorkload record checkpoint) key stored) :
    key = workloadKey record.tenantId record.workloadId := by
  cases files
  rfl

theorem FleetosCommand.Files.cron_key
    (files : FleetosCommand.Files (.submitCronWorkload record checkpoint) key stored) :
    key = asBytes ("cron:" ++ record.tenantId ++ ":" ++ record.cronWorkloadId) := by
  cases files
  rfl

variable [Formats]

def checkpointAt (disk : Disk) (tenantId cronWorkloadId : String) : Option Int64 :=
  (loadCheckpoint disk tenantId cronWorkloadId).toOption.join.map (·.lastTriggeredAtUnix)

theorem checkpointAt_congr (same : (left .cronCheckpoints)[workloadKey tenantId cronWorkloadId]? =
      (right .cronCheckpoints)[workloadKey tenantId cronWorkloadId]?) :
    checkpointAt left tenantId cronWorkloadId = checkpointAt right tenantId cronWorkloadId := by
  simp only [checkpointAt,loadCheckpoint,same]

theorem checkpointAt_stored
    (stored : (disk .cronCheckpoints)[workloadKey tenantId cronWorkloadId]? = some (toAllocvec checkpoint)) :
    checkpointAt disk tenantId cronWorkloadId = some checkpoint.lastTriggeredAtUnix := by
  simp [checkpointAt,loadCheckpoint,stored,Except.map,Except.toOption]

def checkpointLevel (tenantId cronWorkloadId : String) (history : History Node) : WithBot Int :=
  (checkpointAt history.current.disk tenantId cronWorkloadId).elim ⊥ fun last => (last.toInt : WithBot Int)

theorem checkpointLevel_some {history : History Node} {last : Int64}
    (committed : checkpointAt history.current.disk tenantId cronWorkloadId = some last) :
    checkpointLevel tenantId cronWorkloadId history = last.toInt := by
  rw [checkpointLevel,committed,Option.elim_some]

theorem checkpoint_insert {ρ : Type} [Postcard ρ] (disk : Disk) (file key : Bytes) (record : ρ) (under : Bytes)
    (checkpoint : CronCheckpointRecord) :
    (commit disk [put .workloads file record,put .cronCheckpoints under checkpoint] .cronCheckpoints)[key]? =
      if under = key then some (toAllocvec checkpoint) else (disk .cronCheckpoints)[key]? := by
  have contents : commit disk [put .workloads file record,put .cronCheckpoints under checkpoint] .cronCheckpoints =
      (disk .cronCheckpoints).insert under (toAllocvec checkpoint) := by
    simp [put,perform,Write.on]
  rw [contents,Std.ExtTreeMap.getElem?_insert]
  simp

theorem checkpoint_cases (advances : Advances before entry after) (key : Bytes) :
    (∃ checkpoint, entry.Checkpoints key checkpoint ∧
      (after.disk .cronCheckpoints)[key]? = some (toAllocvec checkpoint)) ∨
      (after.disk .cronCheckpoints)[key]? = (before.disk .cronCheckpoints)[key]? := by
  rcases advances.cases with ⟨⟨cmd,audit⟩,writes,kind,normal,ok,contents⟩ | ⟨_,same⟩
  case inr => exact .inr (by rw [same .cronCheckpoints rfl])
  by_cases touched : Keyspace.cronCheckpoints ∈ cmd.touches
  case neg => exact .inr (by rw [contents .cronCheckpoints rfl,applyCommand_frame ok _ touched])
  rw [contents .cronCheckpoints rfl]
  cases cmd
  case submitCronWorkload record checkpoint =>
    cases ok
    rw [checkpoint_insert]
    by_cases own : workloadKey checkpoint.tenantId checkpoint.cronWorkloadId = key
    · rw [if_pos own]
      exact .inl ⟨checkpoint,⟨own,_,normal,.inl ⟨record,rfl⟩⟩,rfl⟩
    · exact .inr (if_neg own)
  case triggerCronWorkload record checkpoint =>
    cases ok
    rw [checkpoint_insert]
    by_cases own : workloadKey checkpoint.tenantId checkpoint.cronWorkloadId = key
    · rw [if_pos own]
      exact .inl ⟨checkpoint,⟨own,_,normal,.inr ⟨record,rfl⟩⟩,rfl⟩
    · exact .inr (if_neg own)
  all_goals exact absurd touched (by simp [touches])

variable [WorkloadMessages] [CronMessages] [CronSchedules]

/-- A pass lists the definitions before it looks up a checkpoint. -/
inductive CronProposes (view : Node) : Entry → Prop where
  | trigger {logId listing listed cron} {now : Int64} {audited} : listed ∈ listCronWorkloads listing →
      CronSchedules.decodeCronWorkload listed.specBytes = .ok cron →
      evaluateAndTrigger view.disk now cron = .ok (some audited) → CronProposes view ⟨logId,.normal audited⟩
  | other {entry : Entry} : (∀ record checkpoint audit,
      entry.payload ≠ .normal ⟨.triggerCronWorkload record checkpoint,audit⟩) → CronProposes view entry

abbrev CronStep := CommitStep CronProposes Advances

variable {tenantId cronWorkloadId : String}

/-- Triggers come from the committed checkpoint; nothing else moves it back or takes the name of a run. -/
structure CronCurrent (tenantId cronWorkloadId : String) (current : Node) (label : Commit Node Entry) : Prop where
  fresh : ∀ due, label.command.triggers tenantId cronWorkloadId = some due →
    (label.view.disk .cronCheckpoints)[workloadKey tenantId cronWorkloadId]? =
      (current.disk .cronCheckpoints)[workloadKey tenantId cronWorkloadId]?
  forward : label.command.triggers tenantId cronWorkloadId = none →
    ∀ checkpoint, label.command.Checkpoints (workloadKey tenantId cronWorkloadId) checkpoint →
      ∀ last, checkpointAt current.disk tenantId cronWorkloadId = some last → last ≤ checkpoint.lastTriggeredAtUnix
  unclaimed : label.command.triggers tenantId cronWorkloadId = none →
    ∀ due stored, label.command.Files (runKey tenantId cronWorkloadId due) stored →
      ∃ last, checkpointAt current.disk tenantId cronWorkloadId = some last ∧ due ≤ last

def RunsBehind (tenantId cronWorkloadId : String) (disk : Disk) : Prop :=
  ∀ due bytes, (disk .workloads)[runKey tenantId cronWorkloadId due]? = some bytes →
    ∃ last, checkpointAt disk tenantId cronWorkloadId = some last ∧ due ≤ last

section
variable [DueTimes] {due : Int64} {before after : Node} {label : Commit Node Entry}

theorem evaluateAndTrigger_due {now : Int64} (ok : evaluateAndTrigger storage now cron = .ok (some audited)) :
    ∃ template due last, audited = .system (cron.trigger template due) ∧
      checkpointAt storage cron.tenantId cron.cronWorkloadId = some last ∧ last < due := by
  unfold evaluateAndTrigger at ok
  split at ok
  · cases ok
  split at ok
  · cases ok
  obtain ⟨_,_,ok⟩ := bind_ok ok
  obtain ⟨since,read,ok⟩ := bind_ok ok
  split at ok
  · cases ok
  case h_2 due between =>
    split at ok
    · cases ok
    case h_2 template given =>
      cases ok
      obtain ⟨later,past⟩ := DueTimes.due_between between
      obtain ⟨found,loaded,read⟩ := bind_ok read
      cases found with
      | none =>
        cases read
        rw [Int64.lt_iff_toInt_lt] at later
        rw [Int64.le_iff_toInt_le] at past
        omega
      | some checkpoint =>
        simp only at read
        split at read
        · cases read
          exact ⟨template,due,_,rfl,by simp [checkpointAt,loaded,Except.toOption],later⟩
        · cases read

theorem CronProposes.triggers (proposes : CronProposes view entry)
    (own : entry.triggers tenantId cronWorkloadId = some due) :
    (∃ record audit, entry.payload = .normal ⟨.triggerCronWorkload record ⟨tenantId,cronWorkloadId,due⟩,audit⟩ ∧
      workloadKey record.tenantId record.workloadId = runKey tenantId cronWorkloadId due) ∧
    ∃ last, checkpointAt view.disk tenantId cronWorkloadId = some last ∧ last < due := by
  cases proposes with
  | other never =>
    unfold Entry.triggers at own
    split at own
    case h_1 normal => exact absurd normal (never _ _ _)
    case h_2 => cases own
  | @trigger _ _ _ cron _ _ _ _ ok =>
    obtain ⟨template,time,last,rfl,checkpoint,later⟩ := evaluateAndTrigger_due ok
    have named : (if cron.tenantId = tenantId ∧ cron.cronWorkloadId = cronWorkloadId then some time else none) =
        some due := own
    split at named
    case isFalse => cases named
    case isTrue same =>
      obtain ⟨rfl,rfl⟩ := same
      cases named
      exact ⟨⟨_,_,rfl,rfl⟩,last,checkpoint,later⟩

section
variable (proposes : CronProposes label.view label.command) (advances : Advances before label.command after)
  (current : CronCurrent tenantId cronWorkloadId before label)
  (behind : RunsBehind tenantId cronWorkloadId before.disk)
include proposes advances current behind

theorem trigger_forward (own : label.command.triggers tenantId cronWorkloadId = some due) :
    (∃ last, checkpointAt before.disk tenantId cronWorkloadId = some last ∧ last < due) ∧
      checkpointAt after.disk tenantId cronWorkloadId = some due ∧
      (before.disk .workloads)[runKey tenantId cronWorkloadId due]? = none := by
  obtain ⟨⟨record,audit,normal,_⟩,last,read,later⟩ := proposes.triggers own
  have committed : checkpointAt before.disk tenantId cronWorkloadId = some last :=
    (checkpointAt_congr (current.fresh due own)).symm.trans read
  refine ⟨⟨last,committed,later⟩,?_,?_⟩
  · obtain ⟨writes,kind,ok,contents⟩ := advances.applied normal
    cases ok
    have stored : (after.disk .cronCheckpoints)[workloadKey tenantId cronWorkloadId]? =
        some (toAllocvec (⟨tenantId,cronWorkloadId,due⟩ : CronCheckpointRecord)) := by
      rw [contents .cronCheckpoints rfl,checkpoint_insert,if_pos rfl]
    exact checkpointAt_stored stored
  · cases stored : (before.disk .workloads)[runKey tenantId cronWorkloadId due]? with
    | none => rfl
    | some bytes =>
      obtain ⟨reached,found,early⟩ := behind due bytes stored
      cases committed.symm.trans found
      rw [Int64.lt_iff_toInt_lt] at later
      rw [Int64.le_iff_toInt_le] at early
      omega

theorem checkpoint_forward {last : Int64} (committed : checkpointAt before.disk tenantId cronWorkloadId = some last) :
    ∃ next, checkpointAt after.disk tenantId cronWorkloadId = some next ∧ last ≤ next := by
  cases own : label.command.triggers tenantId cronWorkloadId with
  | some due =>
    obtain ⟨⟨earlier,found,later⟩,reached,_⟩ := trigger_forward proposes advances current behind own
    cases committed.symm.trans found
    exact ⟨due,reached,Int64.le_of_lt later⟩
  | none =>
    rcases checkpoint_cases advances (workloadKey tenantId cronWorkloadId) with ⟨checkpoint,put,stored⟩ | same
    · exact ⟨_,checkpointAt_stored stored,current.forward own checkpoint put last committed⟩
    · exact ⟨last,(checkpointAt_congr same).trans committed,Int64.le_refl last⟩

theorem runsBehind_keeps : RunsBehind tenantId cronWorkloadId after.disk := by
  have carried : ∀ due, (∃ last, checkpointAt before.disk tenantId cronWorkloadId = some last ∧ due ≤ last) →
      ∃ next, checkpointAt after.disk tenantId cronWorkloadId = some next ∧ due ≤ next := by
    rintro due ⟨last,committed,early⟩
    obtain ⟨next,reached,forward⟩ := checkpoint_forward proposes advances current behind committed
    exact ⟨next,reached,Int64.le_trans early forward⟩
  intro due bytes found
  rcases Ledger.found_cases advances found with kept | ⟨stored,filed⟩
  · exact carried due (behind due bytes kept)
  cases own : label.command.triggers tenantId cronWorkloadId with
  | none => exact carried due (current.unclaimed own due stored filed)
  | some time =>
    obtain ⟨_,reached,_⟩ := trigger_forward proposes advances current behind own
    obtain ⟨⟨record,audit,normal,named⟩,_⟩ := proposes.triggers own
    obtain ⟨audited,again,files⟩ := filed
    cases normal.symm.trans again
    obtain rfl : due = time := runKey_inj.mp (files.trigger_key.trans named)
    exact ⟨due,reached,Int64.le_refl due⟩

end

theorem checkpointLevel_step {before after} (step : CronStep before label after)
    (met : CronCurrent tenantId cronWorkloadId before.current label)
    (behind : RunsBehind tenantId cronWorkloadId before.current.disk) :
    checkpointLevel tenantId cronWorkloadId before ≤ checkpointLevel tenantId cronWorkloadId after ∧
      ∀ due, label.command.triggers tenantId cronWorkloadId = some due →
        checkpointLevel tenantId cronWorkloadId before < (due.toInt : WithBot Int) ∧
          (due.toInt : WithBot Int) ≤ checkpointLevel tenantId cronWorkloadId after := by
  obtain ⟨_,proposes,advances,_⟩ := step.cases
  constructor
  · cases reached : checkpointAt before.current.disk tenantId cronWorkloadId with
    | none =>
      rw [checkpointLevel,reached]
      exact bot_le
    | some time =>
      obtain ⟨next,moved,forward⟩ := checkpoint_forward proposes advances met behind reached
      rw [checkpointLevel_some reached,checkpointLevel_some moved]
      exact WithBot.coe_le_coe.mpr (Int64.le_iff_toInt_le.mp forward)
  · intro due own
    obtain ⟨⟨time,reached,later⟩,moved,_⟩ := trigger_forward proposes advances met behind own
    rw [checkpointLevel_some reached,checkpointLevel_some moved]
    exact ⟨WithBot.coe_lt_coe.mpr (Int64.lt_iff_toInt_lt.mp later),le_rfl⟩

section
variable {first last : History Node} {trace : List (Committed Node Entry)}
  (run : Run CronStep first trace last) (behind : RunsBehind tenantId cronWorkloadId first.current.disk)
  (current : ∀ transition ∈ trace, CronCurrent tenantId cronWorkloadId transition.before.current transition.label)
include run behind current

theorem runsBehind_run : ∀ transition ∈ trace, RunsBehind tenantId cronWorkloadId transition.before.current.disk := by
  have kept := (run.invariant (fun history => RunsBehind tenantId cronWorkloadId history.current.disk)
    (fun transition => CronCurrent tenantId cronWorkloadId transition.before.current transition.label) ?_ behind
    current).1
  · exact fun transition member => (kept transition member).1
  · intro before label after step met holds
    obtain ⟨_,proposes,advances,_⟩ := step.cases
    exact runsBehind_keeps proposes advances met holds

theorem triggers_nodup :
    (trace.filterMap fun transition => transition.label.command.triggers tenantId cronWorkloadId).Nodup := by
  have increasing := (run.emitted_increasing (checkpointLevel tenantId cronWorkloadId)
    (fun transition => (transition.label.command.triggers tenantId cronWorkloadId).map
      fun due => (due.toInt : WithBot Int)) ?_).1
  · rw [← List.map_filterMap,List.pairwise_map] at increasing
    refine increasing.imp fun before same => ?_
    rw [same] at before
    exact lt_irrefl _ before
  · intro transition member
    obtain ⟨rises,above⟩ := checkpointLevel_step (run.step_of_mem transition member) (current transition member)
      (runsBehind_run run behind current transition member)
    refine ⟨rises,fun level emitted => ?_⟩
    obtain ⟨due,own,rfl⟩ := map_eq_some_iff.mp emitted
    exact above due own

end

/-- Triggers from the committed checkpoint come once each, and no run replaces a workload. -/
theorem cron_triggers_once {first last : History Node} {trace : List (Committed Node Entry)}
    (run : Run CronStep first trace last) (behind : RunsBehind tenantId cronWorkloadId first.current.disk)
    (current : ∀ transition ∈ trace, CronCurrent tenantId cronWorkloadId transition.before.current transition.label) :
    (∀ due, (trace.filterMap fun transition => transition.label.command.triggers tenantId cronWorkloadId).count due ≤ 1) ∧
    (∀ transition ∈ trace, ∀ reached, checkpointAt transition.before.current.disk tenantId cronWorkloadId = some reached →
      ∃ next, checkpointAt transition.after.current.disk tenantId cronWorkloadId = some next ∧ reached ≤ next) ∧
    ∀ transition ∈ trace, ∀ due, transition.label.command.triggers tenantId cronWorkloadId = some due →
      (transition.before.current.disk .workloads)[runKey tenantId cronWorkloadId due]? = none := by
  have every := runsBehind_run run behind current
  refine ⟨?_,?_,?_⟩
  · exact List.nodup_iff_count_le_one.mp (triggers_nodup run behind current)
  · intro transition member reached committed
    obtain ⟨_,proposes,advances,_⟩ := (run.step_of_mem transition member).cases
    exact checkpoint_forward proposes advances (current transition member) (every transition member) committed
  · intro transition member due own
    obtain ⟨_,proposes,advances,_⟩ := (run.step_of_mem transition member).cases
    exact (trigger_forward proposes advances (current transition member) (every transition member) own).2.2

end

end

open Reference

def sleepingJob : WorkloadSpec where
  tenantId := "acme"
  workloadId := ""
  image := "sleep:v1"
  replicas := .ofList [("job",(1 : UInt32))]

def reportCron : CronWorkload := ⟨"acme","report",some ⟨"* * * * * *",false⟩,some sleepingJob⟩

namespace Reference.EverySecond

/-- The one definition there is comes due every second. -/
scoped instance schedules : CronSchedules where
  decodeCronWorkload bytes :=
    if bytes = CronMessages.encodeCronWorkload reportCron then .ok reportCron else .error "no message"
  representable _ := true
  latestDue _ since now := if since < now then some now else none

scoped instance dueTimes : DueTimes where
  due_between {_ since now due} found := by
    by_cases past : since < now
    · have time : some now = some due := (if_pos past).symm.trans found
      cases time
      exact ⟨past,Int64.le_refl now⟩
    · have none : Option.none = some due := (if_neg past).symm.trans found
      cases none

end Reference.EverySecond

open scoped Reference.EverySecond

def reportSubmitted : AuditedCommand := requested (.submitCronWorkload
  ⟨"acme","report","* * * * * *",CronMessages.encodeCronWorkload reportCron⟩ ⟨"acme","report",60⟩) "report"

def reportKept : Node := takenFirst reportSubmitted

def reportTriggered (due : Int64) : AuditedCommand := .system (reportCron.trigger sleepingJob due)

def reportTaken (node : Node) (index : UInt64) (due : Int64) : Node := takenNext node index (reportTriggered due)

def submission : Committed Node Entry :=
  ⟨.fresh (boot Disk.empty),⟨boot Disk.empty,⟨logIdAt 1,.normal reportSubmitted⟩⟩,⟨reportKept,[boot Disk.empty]⟩⟩

def triggering (history : History Node) (index : UInt64) (due : Int64) :
    Committed Node Entry :=
  ⟨history,⟨reportKept,⟨logIdAt index,.normal (reportTriggered due)⟩⟩,
    history.extend (reportTaken history.current index due)⟩

theorem submission_step : CronStep submission.before submission.label submission.after :=
  commitStep (.inl rfl) (.other fun _ _ _ other => by cases other) (advances_apply rfl)

theorem report_listed : ∃ listed ∈ listCronWorkloads reportKept.disk,
    CronSchedules.decodeCronWorkload listed.specBytes = .ok reportCron := by
  refine ⟨⟨"acme","report","* * * * * *",CronMessages.encodeCronWorkload reportCron⟩,?_,if_pos rfl⟩
  decide +kernel

theorem triggering_step {history : History Node} {index : UInt64} {due : Int64} (seen : history.Seen reportKept)
    (late : 60 < due) :
    CronStep history (triggering history index due).label (triggering history index due).after := by
  obtain ⟨listed,member,decoded⟩ := report_listed
  have loaded : loadCheckpoint reportKept.disk "acme" "report" = .ok (some ⟨"acme","report",60⟩) := by
    decide +kernel
  have since : triggeredSince reportKept.disk due reportCron = .ok 60 := by
    have named : loadCheckpoint reportKept.disk reportCron.tenantId reportCron.cronWorkloadId = _ := loaded
    simp only [triggeredSince,named]
    rfl
  have latest : CronSchedules.latestDue "* * * * * *" 60 due = some due := if_pos late
  have evaluated : evaluateAndTrigger reportKept.disk due reportCron = .ok (some (reportTriggered due)) := by
    have schedule : reportCron.schedule = some ⟨"* * * * * *",false⟩ := rfl
    have template : reportCron.workloadTemplate = some sleepingJob := rfl
    have valid : CronMessages.validateExpression "* * * * * *" = .ok () := rfl
    simp only [evaluateAndTrigger,schedule,template,since,valid,Bind.bind,Except.bind,latest]
    rfl
  exact .commit seen (.trigger member decoded evaluated) (advances_apply rfl)

theorem report_run_once : (∀ due, ([submission,triggering submission.after 2 120].filterMap fun transition =>
      transition.label.command.triggers "acme" "report").count due ≤ 1) ∧
    (reportKept.disk .workloads)[runKey "acme" "report" 120]? = none := by
  have run : Run CronStep (.fresh (boot Disk.empty)) [submission,triggering submission.after 2 120] _ :=
    .cons submission_step (.cons (triggering_step (.inl rfl) (by decide)) (.nil _))
  have nothing : RunsBehind "acme" "report" (History.fresh (boot Disk.empty)).current.disk := by
    intro due bytes found
    simp [Disk.empty] at found
  have current : ∀ transition ∈ [submission,triggering submission.after 2 120],
      CronCurrent "acme" "report" transition.before.current transition.label := by
    intro transition member
    rcases mem_cons.mp member with rfl | member
    · refine ⟨?_,?_,?_⟩
      · intro due own
        cases own
      · intro _ checkpoint _ last found
        cases found
      · rintro _ due stored ⟨audited,normal,files⟩
        cases normal
        have texts := congrArg (fun text => text.toList.head?) (asBytes_injective files.cron_key)
        simp [String.toList_append] at texts
    · rw [mem_singleton.mp member]
      refine ⟨fun due own => rfl,?_,?_⟩ <;>
        intro never <;>
        cases never
  obtain ⟨once,_,free⟩ := cron_triggers_once run nothing current
  exact ⟨once,free _ (.tail _ (.head _)) 120 rfl⟩

def firstTrigger : Committed Node Entry := triggering submission.after 2 180

def lateTrigger : Committed Node Entry := triggering firstTrigger.after 3 120

def repeatedTrigger : Committed Node Entry := triggering lateTrigger.after 4 180

/-- The second trigger moves the checkpoint back, and the third repeats the first. -/
theorem stale_triggers_repeat :
    Run CronStep (.fresh (boot Disk.empty)) [submission,firstTrigger,lateTrigger,repeatedTrigger] repeatedTrigger.after ∧
    ([submission,firstTrigger,lateTrigger,repeatedTrigger].filterMap fun transition =>
      transition.label.command.triggers "acme" "report").count 180 = 2 ∧
    checkpointAt lateTrigger.before.current.disk "acme" "report" = some 180 ∧
    checkpointAt lateTrigger.after.current.disk "acme" "report" = some 120 ∧
    (repeatedTrigger.before.current.disk .workloads)[runKey "acme" "report" 180]?.isSome = true := by
  have run : Run CronStep (.fresh (boot Disk.empty)) [submission,firstTrigger,lateTrigger,repeatedTrigger]
      repeatedTrigger.after :=
    .cons submission_step (.cons (triggering_step (.inl rfl) (by decide))
      (.cons (triggering_step (.inr (.head _)) (by decide))
        (.cons (triggering_step (.inr (.tail _ (.head _))) (by decide)) (.nil _))))
  exact ⟨run,rfl,by decide +kernel⟩

end FleetosControl
