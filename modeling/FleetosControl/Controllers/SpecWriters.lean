import FleetosControl.Admin.Tenancy
import FleetosControl.Controllers.Hpa

/-! The writers of specifications side by side. Each reads a record, changes a part and writes all
of it back; the log may order other writes in between. -/
namespace FleetosControl
open Wire

class CronSchedules where
  decodeCronWorkload : Bytes → Except String CronWorkload
  -- the times that `DateTime::from_timestamp` accepts
  representable : Int64 → Bool
  -- the last time of a schedule after the first instant and not after the second
  latestDue : String → Int64 → Int64 → Option Int64

namespace CronWorkload

def runWorkloadId (cron : CronWorkload) (due : Int64) : String := cron.cronWorkloadId ++ "-" ++ toString due

def instantiate (cron : CronWorkload) (template : WorkloadSpec) (due : Int64) : WorkloadSpec :=
  { template with workloadId := cron.runWorkloadId due, tenantId := cron.tenantId }

end CronWorkload

section
variable [FleetosCore] [Formats]

def loadCheckpoint (storage : Disk) (tenantId cronWorkloadId : String) : Except String (Option CronCheckpointRecord) :=
  match (storage .cronCheckpoints)[workloadKey tenantId cronWorkloadId]? with
  | some bytes => (fromBytes bytes).map some
  | none => .ok none

variable [WorkloadMessages]

def CronWorkload.trigger (cron : CronWorkload) (template : WorkloadSpec) (due : Int64) : FleetosCommand :=
  .triggerCronWorkload
    ⟨cron.tenantId,cron.runWorkloadId due,encodeWorkloadSpec (cron.instantiate template due),[]⟩
    ⟨cron.tenantId,cron.cronWorkloadId,due⟩

variable [CronMessages] [CronSchedules]

-- Without a checkpoint nothing is made up for.
def triggeredSince (storage : Disk) (now : Int64) (cron : CronWorkload) : Except String Int64 := do
  match ← loadCheckpoint storage cron.tenantId cron.cronWorkloadId with
  | none => pure now
  | some checkpoint =>
    if CronSchedules.representable checkpoint.lastTriggeredAtUnix then pure checkpoint.lastTriggeredAtUnix
    else .error "invalid checkpoint timestamp"

def evaluateAndTrigger (storage : Disk) (now : Int64) (cron : CronWorkload) : Except String (Option AuditedCommand) :=
  if cron.schedule.any (·.suspend) then .ok none
  else
    match cron.schedule with
    | none => .error "cron workload missing schedule"
    | some schedule => do
      CronMessages.validateExpression schedule.expression
      let since ← triggeredSince storage now cron
      match CronSchedules.latestDue schedule.expression since now with
      | none => pure none
      | some due =>
        match cron.workloadTemplate with
        | none => .error "cron workload missing workload_template"
        | some template => pure (some (.system (cron.trigger template due)))

end

open KeyValue Trace Views

section
variable [FleetosCore]

inductive SpecRequest [Merges] where
  | submit (spec : WorkloadSpec)
  | scale (req : ScaleWorkloadRequest)
  | delete (req : DeleteWorkloadRequest)
  | cron (record : CronWorkloadRecord) (checkpoint : CronCheckpointRecord)
  | trigger (definition : CronWorkload) (template : WorkloadSpec) (due : Int64)
  | hpa (key : Bytes) (desired : UInt32)
  | vpa (key : Bytes) (next : Footprint)
  | apply (manifests : List Manifest)
  | other (cmd : Option FleetosCommand)

def Entry.command (entry : Entry) : Option FleetosCommand :=
  match entry.payload with
  | .normal audited => some audited.cmd
  | _ => none

variable [Formats]

def storedWorkload (storage : Disk) (key : Bytes) : Option (WorkloadSpecRecord × WorkloadSpec) := do
  let bytes ← (storage .workloads)[key]?
  let record : WorkloadSpecRecord ← (fromBytes bytes).toOption
  let spec ← (decodeWorkloadSpec record.specBytes).toOption
  pure (record,spec)

variable {storage : Disk} {key : Bytes} {record : WorkloadSpecRecord} {spec : WorkloadSpec}

theorem storedWorkload_some (stored : (storage .workloads)[key]? = some bytes)
    (decoded : fromBytes bytes = .ok record) (read : decodeWorkloadSpec record.specBytes = .ok spec) :
    storedWorkload storage key = some (record,spec) := by
  simp [storedWorkload,stored,decoded,read,Except.toOption]

theorem storedWorkload_read (stored : storedWorkload storage key = some (record,spec)) :
    readRecord WorkloadSpecRecord storage .workloads key = .ok (some record) ∧
      decodeWorkloadSpec record.specBytes = .ok spec := by
  obtain ⟨bytes,found,rest⟩ := Option.bind_eq_some_iff.mp stored
  obtain ⟨kept,decoded,rest⟩ := Option.bind_eq_some_iff.mp rest
  obtain ⟨declared,read,same⟩ := Option.bind_eq_some_iff.mp rest
  cases same
  exact ⟨readRecord_some.mpr ⟨bytes,found,toOption_eq_some.mp decoded⟩,toOption_eq_some.mp read⟩

variable [WorkloadMessages] [Merges]

namespace SpecRequest

def command (storage : Disk) : SpecRequest → Option FleetosCommand
  | .submit spec => some (.submitWorkloadSpec ⟨spec.tenantId,spec.workloadId,encodeWorkloadSpec spec,[]⟩)
  | .scale req => (storedWorkload storage (workloadKey req.tenantId req.workloadId)).map fun (record,spec) =>
    .scaleWorkload { record with specBytes := encodeWorkloadSpec { spec with replicas := req.replicas } }
  | .delete req => some (.deleteWorkload req.tenantId req.workloadId)
  | .cron record checkpoint => some (.submitCronWorkload record checkpoint)
  | .trigger definition template due => some (definition.trigger template due)
  | .hpa key desired => (storedWorkload storage key).map fun (record,spec) =>
    .scaleWorkload ⟨record.tenantId,record.workloadId,
      encodeWorkloadSpec { spec with replicas := distributeReplicas spec.replicas desired },[]⟩
  | .vpa key next => (storedWorkload storage key).map fun (record,spec) =>
    .resizeWorkload ⟨record.tenantId,record.workloadId,encodeWorkloadSpec (spec.resized next),[]⟩
  | .apply manifests =>
    if ∃ manifest ∈ manifests, Conflicts storage manifest then none
    else some (.applyManifests (manifests.filterMap fun manifest => (processManifest storage manifest).2))
  | .other cmd => cmd

def rewrites : SpecRequest → Option Bytes
  | .scale req => some (workloadKey req.tenantId req.workloadId)
  | .hpa key _ => some key
  | .vpa key _ => some key
  | _ => none

def reads : SpecRequest → List (Keyspace × Bytes)
  | .apply manifests => manifests.filterMap fun manifest => manifest.target.map fun (keyspace,_,key) => (keyspace,key)
  | request => request.rewrites.toList.map fun key => (.workloads,key)

def Fresh (request : SpecRequest) (view current : Disk) : Prop :=
  ∀ read ∈ request.reads, (view read.1)[read.2]? = (current read.1)[read.2]?

def execute (storage : Disk) (request : SpecRequest) : Disk :=
  match request.command storage with
  | none => storage
  | some cmd =>
    match applyCommand storage cmd with
    | .ok (writes,_) => commit storage writes
    | .error _ => storage

theorem reads_application (request : SpecRequest) : ∀ read ∈ request.reads, read.1.application = true := by
  cases request with
  | apply manifests =>
    intro read member
    obtain ⟨manifest,_,named⟩ := mem_filterMap.mp member
    obtain ⟨⟨keyspace,name,key⟩,target,rfl⟩ := map_eq_some_iff.mp named
    cases targets_of_target target <;> rfl
  | _ =>
    intro read member
    obtain ⟨key,_,rfl⟩ := mem_map.mp member
    rfl

variable {left right : Disk}

theorem fresh_of_same (same : SameApplication left right) (request : SpecRequest) : request.Fresh left right := by
  intro read member
  rw [same read.1 (request.reads_application read member)]

variable {request : SpecRequest}

theorem fresh_entry (fresh : request.Fresh left right) (rewritten : request.rewrites = some key) :
    (left .workloads)[key]? = (right .workloads)[key]? := by
  apply fresh (.workloads,key)
  cases request <;> cases rewritten <;> exact mem_singleton.mpr rfl

theorem command_congr (fresh : request.Fresh left right) : request.command left = request.command right := by
  have entry : ∀ key, request.rewrites = some key → storedWorkload left key = storedWorkload right key := by
    intro key rewritten
    rw [storedWorkload,storedWorkload,fresh_entry fresh rewritten]
  cases request with
  | scale req => simp only [command,entry _ rfl]
  | hpa key desired => simp only [command,entry _ rfl]
  | vpa key next => simp only [command,entry _ rfl]
  | apply manifests =>
    have processed : ∀ manifest ∈ manifests, processManifest left manifest = processManifest right manifest := by
      intro manifest member
      apply processManifest_congr
      intro keyspace name key target
      exact fresh (keyspace,key) (mem_filterMap.mpr ⟨manifest,member,by rw [target]; rfl⟩)
    have conflicts : (∃ manifest ∈ manifests, Conflicts left manifest) ↔ ∃ manifest ∈ manifests, Conflicts right manifest :=
      exists_congr fun manifest => and_congr_right fun member => by rw [Conflicts,Conflicts,processed manifest member]
    have updates : manifests.filterMap (fun manifest => (processManifest left manifest).2) =
        manifests.filterMap fun manifest => (processManifest right manifest).2 :=
      List.filterMap_congr fun manifest member => by rw [processed manifest member]
    simp only [command,conflicts,updates]
  | _ => rfl

end SpecRequest

structure SpecCommit where
  request : SpecRequest
  entry : Entry

variable [CronMessages] [CronSchedules] [NameTypes]

/-- An autoscaler lists entries first; what it asks later is its own, as are cron checkpoints. -/
inductive SpecCommit.ComputedFrom (view : Node) : SpecCommit → Prop where
  | submit {server : AdminServer} {peer requestId spec audited} {entry : Entry} :
      server.storage = view.disk → server.submitWorkloadSpec peer requestId spec = .ok audited →
      entry.payload = .normal audited → ComputedFrom view ⟨.submit spec,entry⟩
  | scale {server : AdminServer} {peer requestId req audited} {entry : Entry} : server.storage = view.disk →
      server.scaleWorkload peer requestId req = .ok audited → entry.payload = .normal audited →
      ComputedFrom view ⟨.scale req,entry⟩
  | delete {server : AdminServer} {peer requestId req audited} {entry : Entry} : server.storage = view.disk →
      server.deleteWorkload peer requestId req = .ok audited → entry.payload = .normal audited →
      ComputedFrom view ⟨.delete req,entry⟩
  | cron {server : AdminServer} {peer requestId definition record checkpoint audited} {entry : Entry} :
      server.storage = view.disk → server.submitCronWorkload peer requestId definition = .ok audited →
      audited.cmd = .submitCronWorkload record checkpoint → entry.payload = .normal audited →
      ComputedFrom view ⟨.cron record checkpoint,entry⟩
  | trigger {listed cron later} {now : Int64} {template} {due : Int64} {entry : Entry} :
      listed ∈ listCronWorkloads view.disk →
      CronSchedules.decodeCronWorkload listed.specBytes = .ok cron → cron.workloadTemplate = some template →
      evaluateAndTrigger later now cron = .ok (some (.system (cron.trigger template due))) →
      entry.payload = .normal (.system (cron.trigger template due)) → ComputedFrom view ⟨.trigger cron template due,entry⟩
  | hpa {key bytes record spec policy} {controller : HpaController} {placements} {now : Int64} {clock : UInt64}
      {desired : UInt32} {audited} {entry : Entry} : (view.disk .workloads)[key]? = some bytes →
      fromBytes bytes = .ok record → decodeWorkloadSpec record.specBytes = .ok spec →
      spec.autoscaling = some policy → controller.desiredTotal placements spec policy = some desired →
      (controller.evaluateWorkload record placements now clock).2 = some audited → entry.payload = .normal audited →
      ComputedFrom view ⟨.hpa key desired,entry⟩
  | vpa {key bytes record spec} {controller : VpaController} {placements} {now : Int64} {next} {entry : Entry} :
      (view.disk .workloads)[key]? = some bytes → fromBytes bytes = .ok record →
      decodeWorkloadSpec record.specBytes = .ok spec →
      VpaController.proposeResize record spec next now ∈ (controller.evaluateWorkload record placements now).2 →
      entry.payload = .normal (VpaController.proposeResize record spec next now) → ComputedFrom view ⟨.vpa key next,entry⟩
  | apply {server : AdminServer} {peer requestId manifests} {dryRun : Bool} {response audited} {entry : Entry} :
      server.storage = view.disk →
      server.apply peer requestId ⟨some manifests,dryRun⟩ = .ok response → response.proposal = some audited →
      entry.payload = .normal audited → ComputedFrom view ⟨.apply manifests,entry⟩
  | other {entry : Entry} : (∀ cmd, entry.command = some cmd → Keyspace.workloads ∉ cmd.touches) →
      ComputedFrom view ⟨.other entry.command,entry⟩

abbrev SpecStep := CommitStep SpecCommit.ComputedFrom fun before (commit : SpecCommit) after =>
  Advances before commit.entry after

theorem Entry.command_normal {entry : Entry} (normal : entry.payload = .normal audited) :
    entry.command = some audited.cmd := by
  simp [Entry.command,normal]

export Entry (command_normal)

variable {view : Node} {commit : SpecCommit}

theorem SpecCommit.ComputedFrom.command (computed : commit.ComputedFrom view) :
    commit.request.command view.disk = commit.entry.command := by
  cases computed with
  | submit _ accepted normal =>
    rw [command_normal normal,(AdminServer.submitWorkloadSpec_proposes accepted).2.2]
    rfl
  | scale own accepted normal =>
    obtain ⟨_,bytes,record,spec,stored,decoded,read,scaled⟩ := AdminServer.scaleWorkload_proposes accepted
    rw [own] at stored
    simp only [SpecRequest.command,storedWorkload_some stored decoded read,command_normal normal,scaled,Option.map_some]
  | delete _ accepted normal =>
    rw [command_normal normal,(AdminServer.deleteWorkload_proposes accepted).2]
    rfl
  | cron _ _ submitted normal =>
    rw [command_normal normal,submitted]
    rfl
  | trigger _ _ _ _ normal =>
    rw [command_normal normal]
    rfl
  | hpa stored decoded read declared wanted proposed normal =>
    obtain ⟨_,_,_,read',declared',wanted',_,rfl⟩ := HpaController.evaluateWorkload_proposes proposed
    cases read.symm.trans read'
    cases declared.symm.trans declared'
    cases wanted.symm.trans wanted'
    simp only [SpecRequest.command,storedWorkload_some stored decoded read,command_normal normal,Option.map_some]
    rfl
  | vpa stored decoded read _ normal =>
    simp only [SpecRequest.command,storedWorkload_some stored decoded read,command_normal normal,Option.map_some]
    rfl
  | apply own answered proposed normal =>
    have proposes := ((apply_answers rfl answered).2.2 _).mp proposed |>.2
    have agreed : ¬∃ manifest ∈ _, Conflicts _ manifest :=
      fun ⟨manifest,member,conflict⟩ => proposes.agreed manifest member conflict
    rw [own] at agreed
    simp only [SpecRequest.command,if_neg agreed,command_normal normal,proposes.command,own]
  | other => rfl

theorem SpecCommit.ComputedFrom.present (computed : commit.ComputedFrom view)
    (rewritten : commit.request.rewrites = some key) : (view.disk .workloads)[key]? ≠ none := by
  cases computed with
  | scale own accepted _ =>
    obtain ⟨_,bytes,_,_,stored,_⟩ := AdminServer.scaleWorkload_proposes accepted
    rw [own] at stored
    cases rewritten
    simp [stored]
  | hpa stored =>
    cases rewritten
    simp [stored]
  | vpa stored =>
    cases rewritten
    simp [stored]
  | _ => cases rewritten

theorem execute_follows {current : Node} (same : SameApplication current.disk beside)
    (computed : commit.ComputedFrom view) (advances : Advances current commit.entry next)
    (fresh : commit.request.Fresh view.disk current.disk) :
    SameApplication next.disk (commit.request.execute beside) := by
  have asked : commit.request.command beside = commit.entry.command := by
    rw [← computed.command,SpecRequest.command_congr fresh]
    exact (SpecRequest.command_congr (SpecRequest.fresh_of_same same _)).symm
  rcases advances.cases with ⟨audited,writes,kind,normal,ok,contents⟩ | ⟨other,kept⟩
  · rw [command_normal normal] at asked
    rw [applyCommand_congr same] at ok
    intro keyspace inside
    rw [contents keyspace inside]
    simp only [SpecRequest.execute,asked,ok]
    exact commit_congr _ _ _ _ (same keyspace inside)
  · have nothing : commit.entry.command = none := by
      unfold Entry.command
      cases payload : commit.entry.payload with
      | normal audited => exact absurd payload (other audited)
      | _ => rfl
    rw [nothing] at asked
    intro keyspace inside
    rw [kept keyspace inside,same keyspace inside]
    simp only [SpecRequest.execute,asked]

/-- If no request is overtaken by a write to what it has read, the specifications are those of a serial run. -/
theorem specs_serial {trace : List (Committed Node SpecCommit)} {last : History Node}
    (run : Run SpecStep (.fresh (boot Disk.empty)) trace last)
    (fresh : ∀ transition ∈ trace,
      transition.label.command.request.Fresh transition.label.view.disk transition.before.current.disk) :
    last.current.disk .workloads =
        (trace.map (·.label.command.request)).foldl SpecRequest.execute Disk.empty .workloads ∧
      ∀ transition ∈ trace, ∀ key, transition.label.command.request.rewrites = some key →
        (transition.before.current.disk .workloads)[key]? ≠ none := by
  constructor
  · have follows : SameApplication last.current.disk
        (trace.foldl (fun beside transition => transition.label.command.request.execute beside) Disk.empty) := by
      refine run_follows run (fun beside commit => commit.request.execute beside)
        (fun node beside => SameApplication node.disk beside)
        (fun current label => label.command.request.Fresh label.view.disk current.disk) ?_ (fun _ _ => rfl) fresh
      intro current label next beside same computed advances met
      exact execute_follows same computed advances met
    rw [follows .workloads rfl,List.foldl_map]
  · intro transition member key rewritten
    obtain ⟨_,computed,_,_⟩ := (run.step_of_mem transition member).cases
    rw [← SpecRequest.fresh_entry (fresh transition member) rewritten]
    exact computed.present rewritten

end

open Reference NoMessages

namespace Reference

instance nameTypes : NameTypes := ⟨fun _ => true,fun _ => true⟩

instance cronSchedules : CronSchedules where
  decodeCronWorkload _ := .error "no cron message"
  representable _ := true
  latestDue _ _ _ := none

end Reference

def webShop (count : UInt32) : WorkloadSpec where
  tenantId := "acme"
  workloadId := "shop"
  image := "shop:v1"
  replicas := .ofList [("web",count)]

def scaleWebShop (count : UInt32) : ScaleWorkloadRequest := ⟨"acme","shop",.ofList [("web",count)]⟩

def scaledTo (count : UInt32) : AuditedCommand :=
  requested (.scaleWorkload ⟨"acme","shop",encodeWorkloadSpec (webShop count),[]⟩) "shop"

def shopDeleted : AuditedCommand := requested (.deleteWorkload "acme" "shop") "shop"

def takenNext (node : Node) (index : UInt64) (audited : AuditedCommand) : Node :=
  (apply node [⟨logIdAt index,.normal audited⟩]).1

def shopKept : Node := takenFirst (submitShop (webShop 2))

def shopSubmitted : Committed Node SpecCommit :=
  ⟨.fresh (boot Disk.empty),⟨boot Disk.empty,⟨.submit (webShop 2),⟨logIdAt 1,.normal (submitShop (webShop 2))⟩⟩⟩,
    ⟨shopKept,[boot Disk.empty]⟩⟩

theorem shopSubmitted_step : SpecStep shopSubmitted.before shopSubmitted.label shopSubmitted.after := by
  have accepted : (adminServer Disk.empty).submitWorkloadSpec fleetctlProxy "req-1" (webShop 2) =
      .ok (submitShop (webShop 2)) := rfl
  exact commitStep (.inl rfl) (.submit rfl accepted rfl) (advances_apply rfl)

def shopScaled (count : UInt32) : Committed Node SpecCommit :=
  ⟨shopSubmitted.after,⟨shopKept,⟨.scale (scaleWebShop count),⟨logIdAt 2,.normal (scaledTo count)⟩⟩⟩,
    ⟨takenNext shopKept 2 (scaledTo count),[shopKept,boot Disk.empty]⟩⟩

theorem shopScaled_accepted (count : UInt32) :
    (adminServer shopKept.disk).scaleWorkload fleetctlProxy "req-1" (scaleWebShop count) = .ok (scaledTo count) := rfl

theorem shopScaled_step (count : UInt32) :
    SpecStep (shopScaled count).before (shopScaled count).label (shopScaled count).after :=
  commitStep (.inl rfl) (.scale rfl (shopScaled_accepted count) rfl) (advances_apply rfl)

theorem scaled_shop_serial :
    lookupWorkloadSpec (takenNext shopKept 2 (scaledTo 3)).disk "acme" "shop" = some (webShop 3) ∧
    (takenNext shopKept 2 (scaledTo 3)).disk .workloads =
      [SpecRequest.submit (webShop 2),.scale (scaleWebShop 3)].foldl SpecRequest.execute Disk.empty .workloads := by
  have run : Run SpecStep (.fresh (boot Disk.empty)) [shopSubmitted,shopScaled 3] (shopScaled 3).after :=
    .cons shopSubmitted_step (.cons (shopScaled_step 3) (.nil _))
  refine ⟨by decide +kernel,(specs_serial run ?_).1⟩
  intro transition member
  simp only [mem_cons,not_mem_nil,or_false] at member
  rcases member with rfl | rfl
  · intro read inside
    cases inside
  · intro read inside
    rfl

def shopDropped : Committed Node SpecCommit :=
  ⟨shopSubmitted.after,⟨shopKept,⟨.delete ⟨"acme","shop"⟩,⟨logIdAt 2,.normal shopDeleted⟩⟩⟩,
    ⟨takenNext shopKept 2 shopDeleted,[shopKept,boot Disk.empty]⟩⟩

def shopRecreated : Node := takenNext (takenNext shopKept 2 shopDeleted) 3 (scaledTo 3)

def lateScale : Committed Node SpecCommit :=
  ⟨shopDropped.after,⟨shopKept,⟨.scale (scaleWebShop 3),⟨logIdAt 3,.normal (scaledTo 3)⟩⟩⟩,
    ⟨shopRecreated,[takenNext shopKept 2 shopDeleted,shopKept,boot Disk.empty]⟩⟩

theorem deleted_shop_recreated :
    Run SpecStep (.fresh (boot Disk.empty)) [shopSubmitted,shopDropped,lateScale] lateScale.after ∧
    lookupWorkloadSpec shopRecreated.disk "acme" "shop" = some (webShop 3) ∧
    ([SpecRequest.submit (webShop 2),.delete ⟨"acme","shop"⟩,.scale (scaleWebShop 3)].foldl SpecRequest.execute
      Disk.empty .workloads)[workloadKey "acme" "shop"]? = none := by
  have deleted : (adminServer shopKept.disk).deleteWorkload fleetctlProxy "req-1" ⟨"acme","shop"⟩ = .ok shopDeleted := rfl
  have first : SpecStep shopDropped.before shopDropped.label shopDropped.after :=
    commitStep (.inl rfl) (.delete rfl deleted rfl) (advances_apply rfl)
  have second : SpecStep lateScale.before lateScale.label lateScale.after :=
    commitStep (.inr (.head _)) (.scale rfl (shopScaled_accepted 3) rfl) (advances_apply rfl)
  exact ⟨.cons shopSubmitted_step (.cons first (.cons second (.nil _))),by decide +kernel,by decide +kernel⟩

end FleetosControl
