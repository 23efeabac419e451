import FleetosControl.Admin.Workloads
import FleetosControl.Apply.Merge
import FleetosControl.DummyIp.Allocator
import FleetosControl.Raft.StateMachine

/-! The payloads of the watch streams, built from the committed contents, the fields in them that
the control plane assigns, and when they are published. -/
namespace FleetosControl
open Wire

class PodMessages where
  encodePodSpec : PodSpec → Bytes
  decodePodSpec : Bytes → Except String PodSpec
  decode_encode_pod : ∀ pod, decodePodSpec (encodePodSpec pod) = .ok pod
  -- in protobuf the empty message is the default one
  decode_pod_nil : decodePodSpec [] = .ok {}
  runtimeOf : Bytes → String

class Naming where
  dummyIpHostname : (service role tenantId trustDomain : String) → Except String String

def PodSpec.runtime [PodMessages] (pod : PodSpec) : String := PodMessages.runtimeOf pod.unread

structure SagSnapshot where
  rulesBytes : Bytes
  revokedDelegationIds : List Bytes
  revokedSpiffeIds : List String
  deriving DecidableEq

structure WorkloadAssignmentRecord where
  workloadId : String
  runtime : String
  image : String
  role : String
  hostname : String
  podSpecBytes : Bytes
  deriving DecidableEq

structure RouteEntryRecord where
  destinationSvid : String
  destinationRole : String
  targetAgentSvid : String
  dummyIp : UInt32
  sourceSpiffeIds : List String
  deriving DecidableEq

/-- The encodings of the payloads. A sequence starts with its length, so it is never empty. -/
class StreamFormats where
  [assignments : Postcard (List WorkloadAssignmentRecord)]
  [routes : Postcard (List RouteEntryRecord)]
  assignments_ne_nil : ∀ records : List WorkloadAssignmentRecord, toAllocvec records ≠ []
  routes_ne_nil : ∀ records : List RouteEntryRecord, toAllocvec records ≠ []

attribute [reducible,instance] StreamFormats.assignments StreamFormats.routes

structure WorkloadAssignment where
  workloadId : String
  runtime : String
  image : String
  role : String
  podSpec : Option PodSpec
  hostname : String
  deriving DecidableEq

def expandPodSpec (workloadSpec : WorkloadSpec) (podId tenantId workloadId role : String) (ordinal : UInt32) : PodSpec :=
  { workloadSpec.podSpec.getD {} with
    tenantId := tenantId
    workloadId := workloadId
    role := role
    image := workloadSpec.image
    ordinal := some ordinal
    podId := some podId }

def serviceSvid (dataTrustDomain tenantId service : String) : String :=
  "spiffe://" ++ dataTrustDomain ++ "/ns/" ++ tenantId ++ "/sa/" ++ service

section
variable [FleetosCore] [Formats] [ManifestMessages]

-- `rule_bytes.len() as u32` keeps the low 32 bits of the length
def framedRule (ruleBytes : Bytes) : Bytes := leBytes 4 ruleBytes.length ++ ruleBytes

def buildSagSnapshot (disk : Disk) : SagSnapshot where
  rulesBytes := (disk .sagRules).toList.flatMap fun entry => framedRule entry.2
  revokedDelegationIds := (scanRecords DelegationRecord disk .revokedDelegations).map fun record =>
    asBytes record.delegationId
  revokedSpiffeIds := (scanRecords RevokedSvidRecord disk .revokedSvids).map (·.spiffeId)

omit [FleetosCore] [Formats] in
def computeSourceIndex (disk : Disk) (dataTrustDomain : String) : String × String → Std.ExtTreeSet String compare :=
  let rules := (disk .sagRules).toList.filterMap fun entry => (decodeSagRule entry.2).toOption
  rules.foldl (fun index rule =>
    match rule.fromSide, rule.toSide with
    | some fromSide, some toSide =>
      let destination := (toSide.tenant,toSide.serviceName)
      let source := serviceSvid dataTrustDomain fromSide.tenant fromSide.serviceName
      Function.update index destination ((index destination).insert source)
    | _, _ => index) fun _ => ∅

end

section
variable [FleetosCore] [Formats] [PodMessages] [Naming]

def assignmentRecord (disk : Disk) (dataTrustDomain : String) (placement : Placement) : WorkloadAssignmentRecord :=
  let hostname := (Naming.dummyIpHostname placement.service placement.role placement.tenantId dataTrustDomain).toOption
  let (runtime,image,podSpecBytes) :=
    match lookupWorkloadSpec disk placement.tenantId placement.service with
    | some spec =>
      let podSpec := expandPodSpec spec placement.podId placement.tenantId placement.service placement.role
        placement.ordinal
      ((spec.podSpec.map (·.runtime)).getD "",spec.image,PodMessages.encodePodSpec podSpec)
    | none => ("","",[])
  { workloadId := placement.service
    runtime := runtime
    image := image
    role := placement.role
    hostname := hostname.getD ""
    podSpecBytes := podSpecBytes }

variable [StreamFormats]

def buildScheduleSnapshot (disk : Disk) (dataTrustDomain : String) : Bytes :=
  toAllocvec ((scanRecords Placement disk .placements).map (assignmentRecord disk dataTrustDomain))

def WorkloadAssignmentRecord.assignment (record : WorkloadAssignmentRecord) : WorkloadAssignment where
  workloadId := record.workloadId
  runtime := record.runtime
  image := record.image
  role := record.role
  podSpec := if record.podSpecBytes.isEmpty then none else (PodMessages.decodePodSpec record.podSpecBytes).toOption
  hostname := record.hostname

def deserializeAssignments (bytes : Bytes) : Except String (List WorkloadAssignment) :=
  if bytes.isEmpty then .ok []
  else (fromBytes (α := List WorkloadAssignmentRecord) bytes).map fun records => records.map (·.assignment)

end

section
variable [FleetosCore] [Formats] [ManifestMessages]

def dummyIpOf (disk : Disk) (placement : Placement) : UInt32 :=
  match (disk .dummyIps)[serviceAddressKey placement.tenantId placement.service placement.role]? with
  | some bytes => ((fromBytes (α := ServiceAddress) bytes).toOption.map (·.address)).getD 0
  | none => 0

def routeRecord (disk : Disk) (dataTrustDomain : String) (sourceIndex : String × String → Std.ExtTreeSet String compare)
    (placement : Placement) : RouteEntryRecord where
  destinationSvid := serviceSvid dataTrustDomain placement.tenantId placement.service
  destinationRole := placement.role
  targetAgentSvid := display placement.nodeId
  dummyIp := dummyIpOf disk placement
  sourceSpiffeIds := (sourceIndex (placement.tenantId,placement.service)).toList

variable [StreamFormats]

def buildRoutesSnapshot (disk : Disk) (dataTrustDomain : String) : Bytes :=
  let sourceIndex := computeSourceIndex disk dataTrustDomain
  toAllocvec ((scanRecords Placement disk .placements).map (routeRecord disk dataTrustDomain sourceIndex))

end

namespace Reference
open Wire.Codec

instance podMessages : PodMessages where
  encodePodSpec := encodeMessage podSpec
  decodePodSpec := decodeMessage podSpec {}
  decode_encode_pod := decodeMessage_encodeMessage podSpec {}
  decode_pod_nil := rfl
  runtimeOf unread := (fromUtf8 unread).getD ""

instance naming : Naming where
  dummyIpHostname service role tenantId trustDomain :=
    .ok (service ++ "-" ++ role ++ "." ++ tenantId ++ "." ++ trustDomain)

def workloadAssignmentRecord : Codec WorkloadAssignmentRecord :=
  (string.pair (string.pair (string.pair (string.pair (string.pair bytes))))).iso
    (fun ⟨a,b,c,d,e,f⟩ => (a,b,c,d,e,f)) (fun (a,b,c,d,e,f) => ⟨a,b,c,d,e,f⟩)
    (fun _ => rfl)

def routeEntryRecord : Codec RouteEntryRecord :=
  (string.pair (string.pair (string.pair (u32.pair (list string))))).iso
    (fun ⟨a,b,c,d,e⟩ => (a,b,c,d,e)) (fun (a,b,c,d,e) => ⟨a,b,c,d,e⟩) (fun _ => rfl)

theorem list_encode_ne_nil {α : Type} (codec : Codec α) (values : List α) : (list codec).encode values ≠ [] := by
  intro empty
  have read := (list codec).decode_encode values []
  rw [empty] at read
  cases read

instance streamFormats : StreamFormats where
  assignments := postcard (list workloadAssignmentRecord)
  routes := postcard (list routeEntryRecord)
  assignments_ne_nil := list_encode_ne_nil _
  routes_ne_nil := list_encode_ne_nil _

end Reference

open KeyValue Latest

inductive WatchEvent where
  | secretRotationNotification (spiffeId : String) (version : UInt64)
  | svidRotation (spiffeId : String) (version : UInt64)
  deriving DecidableEq

structure SagUpdateEvent extends SagSnapshot where
  version : UInt64
  deriving DecidableEq

structure ScheduleUpdateEvent where
  version : UInt64
  assignmentsBytes : Bytes
  deriving DecidableEq

structure RouteUpdateEvent where
  version : UInt64
  routesBytes : Bytes
  deriving DecidableEq

inductive Publication where
  | watch (event : WatchEvent)
  | sag (update : SagUpdateEvent)
  | schedule (update : ScheduleUpdateEvent)
  | route (update : RouteUpdateEvent)
  deriving DecidableEq

namespace Publication

def sagPayload : Publication → Option SagSnapshot
  | .sag update => some update.toSagSnapshot
  | _ => none

def schedulePayload : Publication → Option Bytes
  | .schedule update => some update.assignmentsBytes
  | _ => none

def routePayload : Publication → Option Bytes
  | .route update => some update.routesBytes
  | _ => none

end Publication

section
variable [FleetosCore] [Formats]

/-- The kind of change does not depend on the state. -/
def FleetosCommand.changeKind : FleetosCommand → ChangeKind
  | .registerControlAddress .. | .registerNodeEk .. | .activateNodeEk .. | .revokeNodeEk .. | .nodeHeartbeat .. =>
    .clusterMembership
  | .upsertSvidVersion record => .svidRotation record.spiffeId record.svidVersion
  | .mintJoinToken .. | .consumeJoinToken .. | .setPcrPolicy .. | .pruneExpiredRevokedSvids .. | .upsertSagRule ..
  | .deleteSagRule .. | .grantOperatorAccess .. | .revokeOperatorAccess .. => .sagUpdate
  | .evictNode .. => .eviction
  | .revokeDelegation .. => .revokedDelegations
  | .allocateTenantBlock .. | .allocateServiceAddress .. => .dummyIpUpdate
  | .storeSecret _ targetSpiffeId => .secretRotation targetSpiffeId
  | .grantSecretAccess _ _ spiffeId | .revokeSecretAccess _ _ spiffeId => .secretRotation spiffeId
  | _ => .schedulingUpdate

theorem applyCommand_kind (ok : applyCommand disk cmd = .ok (writes,kind)) : kind = cmd.changeKind := by
  cases cmd
  case activateNodeEk | revokeNodeEk | nodeHeartbeat | setNodeSchedulable =>
    obtain ⟨found,_,ok⟩ := bind_ok ok
    cases found <;> cases ok <;> rfl
  case removeNodeTaint =>
    obtain ⟨found,_,ok⟩ := bind_ok ok
    cases found with
    | none => cases ok; rfl
    | some taints =>
      simp only at ok
      split at ok <;> cases ok <;> rfl
  case evictNode =>
    obtain ⟨_,_,ok⟩ := bind_ok ok
    obtain ⟨found,_,ok⟩ := bind_ok ok
    cases found <;> cases ok <;> rfl
  case revokeDelegation =>
    obtain ⟨_,_,ok⟩ := bind_ok ok
    simp only at ok
    split at ok <;> cases ok <;> rfl
  case grantSecretAccess | revokeSecretAccess =>
    obtain ⟨_,_,ok⟩ := bind_ok ok
    obtain ⟨_,_,ok⟩ := bind_ok ok
    cases ok
    rfl
  all_goals
    cases ok
    rfl

end

section
variable [FleetosCore] [Formats] [ManifestMessages] [PodMessages] [Naming] [StreamFormats] (dataTrustDomain : String)

def publishSagUpdate (disk : Disk) (version : UInt64) : Publication := .sag ⟨buildSagSnapshot disk,version⟩

def publishScheduleUpdate (disk : Disk) (version : UInt64) : Publication :=
  .schedule ⟨version,buildScheduleSnapshot disk dataTrustDomain⟩

def publishRouteUpdate (disk : Disk) (version : UInt64) : Publication :=
  .route ⟨version,buildRoutesSnapshot disk dataTrustDomain⟩

def publishEvent (disk : Disk) (version : UInt64) : ChangeKind → List Publication
  | .eviction => [publishSagUpdate disk version,publishScheduleUpdate dataTrustDomain disk version,
      publishRouteUpdate dataTrustDomain disk version]
  | .sagUpdate | .revokedDelegations => [publishSagUpdate disk version,publishRouteUpdate dataTrustDomain disk version]
  | .secretRotation targetSpiffeId => [.watch (.secretRotationNotification targetSpiffeId version)]
  | .svidRotation spiffeId svidVersion => [.watch (.svidRotation spiffeId svidVersion)]
  | .schedulingUpdate => [publishScheduleUpdate dataTrustDomain disk version,publishRouteUpdate dataTrustDomain disk version]
  | .trustBundleRotation | .clusterMembership | .dummyIpUpdate => []

def applyAndPublish (node : Node) (entry : Entry) : Except StorageError (Node × FleetosResponse × List Publication) := do
  let prepared ← prepareEntry node entry
  let next : Node := ⟨commit node.disk prepared.batch,prepared.version⟩
  pure (next,⟨prepared.version⟩,publishEvent dataTrustDomain next.disk prepared.version prepared.kind)

variable {dataTrustDomain}

theorem applyAndPublish_ok (ok : applyAndPublish dataTrustDomain before entry = .ok (after,response,publications)) :
    applyEntry before entry = .ok (after,response) ∧ ∃ writes kind,
      payloadWrites before.disk entry = .ok (writes,kind) ∧
      publications = publishEvent dataTrustDomain after.disk (before.version + 1) kind := by
  obtain ⟨prepared,prepare,ok⟩ := bind_ok ok
  cases ok
  have applied : applyEntry before entry =
      .ok (⟨commit before.disk prepared.batch,prepared.version⟩,⟨prepared.version⟩) := by
    simp only [applyEntry,prepare]
    rfl
  obtain ⟨⟨writes,kind⟩,payload,prepare⟩ := bind_ok prepare
  cases prepare
  exact ⟨applied,writes,kind,payload,rfl⟩

end

def PodSpec.submitted (pod : PodSpec) : PodSpec :=
  { pod with tenantId := "", workloadId := "", role := "", image := "", ordinal := none, podId := none }

def WorkloadSpec.AgreesOutside (left right : WorkloadSpec) : Prop :=
  { left with podSpec := none } = { right with podSpec := none } ∧
    left.podSpec.map PodSpec.submitted = right.podSpec.map PodSpec.submitted

structure PodSpec.Assigned [FleetosCore] (pod : PodSpec) (placement : Placement) (spec : WorkloadSpec) : Prop where
  tenantId : pod.tenantId = placement.tenantId
  workloadId : pod.workloadId = placement.service
  role : pod.role = placement.role
  image : pod.image = spec.image
  ordinal : pod.ordinal = some placement.ordinal
  podId : pod.podId = some placement.podId

theorem expandPodSpec_submitted (spec : WorkloadSpec) (podId tenantId workloadId role : String) (ordinal : UInt32) :
    expandPodSpec spec podId tenantId workloadId role ordinal =
      { (spec.podSpec.map PodSpec.submitted).getD {} with
        tenantId := tenantId, workloadId := workloadId, role := role, image := spec.image, ordinal := some ordinal,
        podId := some podId } := by
  cases template : spec.podSpec <;> simp [expandPodSpec,template,PodSpec.submitted]

namespace WorkloadSpec.AgreesOutside
variable {left right : WorkloadSpec}

theorem image (agree : left.AgreesOutside right) : left.image = right.image := by
  have same := congrArg WorkloadSpec.image agree.1
  exact same

theorem expandPodSpec (agree : left.AgreesOutside right) (podId tenantId workloadId role : String) (ordinal : UInt32) :
    expandPodSpec left podId tenantId workloadId role ordinal =
      expandPodSpec right podId tenantId workloadId role ordinal := by
  rw [expandPodSpec_submitted,expandPodSpec_submitted,agree.2,agree.image]

theorem runtime [PodMessages] (agree : left.AgreesOutside right) :
    left.podSpec.map PodSpec.runtime = right.podSpec.map PodSpec.runtime := by
  have kept : ∀ template : Option PodSpec,
      template.map PodSpec.runtime = (template.map PodSpec.submitted).map PodSpec.runtime := by
    intro template
    cases template <;> rfl
  rw [kept left.podSpec,kept right.podSpec,agree.2]

end WorkloadSpec.AgreesOutside

section
variable [FleetosCore] [Formats] [PodMessages] [Naming]

def Delivers (disk : Disk) (placement : Placement) (assignment : WorkloadAssignment) : Prop :=
  match lookupWorkloadSpec disk placement.tenantId placement.service with
  | some spec => ∃ pod, assignment.podSpec = some pod ∧ pod.Assigned placement spec
  | none => assignment.podSpec = none

omit [FleetosCore] [Formats] [Naming] in
theorem encodePodSpec_ne_nil {pod : PodSpec} (named : pod.podId ≠ none) : PodMessages.encodePodSpec pod ≠ [] := by
  intro empty
  have decoded := PodMessages.decode_encode_pod pod
  rw [empty,PodMessages.decode_pod_nil] at decoded
  cases decoded
  exact named rfl

theorem assignmentRecord_delivers (disk : Disk) (dataTrustDomain : String) (placement : Placement) :
    Delivers disk placement (assignmentRecord disk dataTrustDomain placement).assignment := by
  unfold Delivers
  split
  case h_1 spec found =>
    let pod := expandPodSpec spec placement.podId placement.tenantId placement.service placement.role placement.ordinal
    have nonempty : PodMessages.encodePodSpec pod ≠ [] := encodePodSpec_ne_nil (by simp [pod,FleetosControl.expandPodSpec])
    refine ⟨pod,?_,⟨rfl,rfl,rfl,rfl,rfl,rfl⟩⟩
    simp [assignmentRecord,WorkloadAssignmentRecord.assignment,found,nonempty,pod,PodMessages.decode_encode_pod,
      Except.toOption]
  case h_2 missing => simp [assignmentRecord,WorkloadAssignmentRecord.assignment,missing]

theorem assignmentRecord_congr {placement : Placement}
    (agree : Option.Rel WorkloadSpec.AgreesOutside (lookupWorkloadSpec disk placement.tenantId placement.service)
      (lookupWorkloadSpec other placement.tenantId placement.service)) (dataTrustDomain : String) :
    assignmentRecord disk dataTrustDomain placement = assignmentRecord other dataTrustDomain placement := by
  unfold assignmentRecord
  generalize lookupWorkloadSpec disk placement.tenantId placement.service = left at agree ⊢
  generalize lookupWorkloadSpec other placement.tenantId placement.service = right at agree ⊢
  cases agree with
  | none => rfl
  | some same => simp only [same.runtime,same.image,same.expandPodSpec]

variable [StreamFormats]

theorem deserialize_build (disk : Disk) (dataTrustDomain : String) :
    deserializeAssignments (buildScheduleSnapshot disk dataTrustDomain) =
      .ok ((scanRecords Placement disk .placements).map fun placement =>
        (assignmentRecord disk dataTrustDomain placement).assignment) := by
  simp [deserializeAssignments,buildScheduleSnapshot,StreamFormats.assignments_ne_nil,Except.map]

/-- Specifications that differ in the assigned fields give every agent the same assignments. -/
theorem schedule_assigns_trusted_fields {disk other : Disk} (placements : other .placements = disk .placements)
    (agree : ∀ key : Bytes, Option.Rel WorkloadSpec.AgreesOutside ((disk .workloads)[key]?.bind storedSpec)
      ((other .workloads)[key]?.bind storedSpec)) (dataTrustDomain : String) :
    ∃ assignments, deserializeAssignments (buildScheduleSnapshot disk dataTrustDomain) = .ok assignments ∧
      deserializeAssignments (buildScheduleSnapshot other dataTrustDomain) = .ok assignments ∧
      List.Forall₂ (Delivers disk) (scanRecords Placement disk .placements) assignments ∧
      List.Forall₂ (Delivers other) (scanRecords Placement other .placements) assignments := by
  have same : ∀ placement, assignmentRecord other dataTrustDomain placement =
      assignmentRecord disk dataTrustDomain placement :=
    fun placement => (assignmentRecord_congr (agree _) dataTrustDomain).symm
  have delivered : ∀ disk : Disk, List.Forall₂ (Delivers disk) (scanRecords Placement disk .placements)
      ((scanRecords Placement disk .placements).map fun placement =>
        (assignmentRecord disk dataTrustDomain placement).assignment) := by
    intro disk
    rw [List.forall₂_map_right_iff]
    exact List.forall₂_same.mpr fun placement _ => assignmentRecord_delivers disk dataTrustDomain placement
  have scanned : scanRecords Placement other .placements = scanRecords Placement disk .placements :=
    scanRecords_congr placements
  refine ⟨_,deserialize_build disk dataTrustDomain,?_,delivered disk,?_⟩
  · rw [deserialize_build,scanned]
    simp only [same]
  · have others := delivered other
    simpa only [scanned,same] using others

end

open Reference

def templatedShop (template : PodSpec) : WorkloadSpec :=
  { tenantId := "acme", workloadId := "shop", image := "shop:v1", podSpec := some template }

def spoofedTemplate : PodSpec :=
  { tenantId := "beta", workloadId := "billing", role := "admin", image := "evil:latest", ordinal := some 99,
    podId := some "spoofed", priority := 5 }

def shopPlacement : Placement where
  podId := "shop-web-0"
  tenantId := "acme"
  service := "shop"
  role := "web"
  ordinal := 0
  nodeId := ⟨"spiffe://data.example.internal/ns/system/node/agent-1",by decide⟩
  resources := ⟨500,1⟩

def templatedPlaced (template : PodSpec) : Disk :=
  commit Disk.empty [put .placements (asBytes shopPlacement.podId) shopPlacement,
    put .workloads (workloadKey "acme" "shop")
      (⟨"acme","shop",encodeWorkloadSpec (templatedShop template),[]⟩ : WorkloadSpecRecord)]

theorem spoofed_template_overwritten :
    deserializeAssignments (buildScheduleSnapshot (templatedPlaced spoofedTemplate) "data.example.internal") =
      deserializeAssignments (buildScheduleSnapshot (templatedPlaced spoofedTemplate.submitted) "data.example.internal") ∧
    (deserializeAssignments (buildScheduleSnapshot (templatedPlaced spoofedTemplate) "data.example.internal")).map
      (fun assignments => assignments.map fun assignment =>
        assignment.podSpec.map fun pod => (pod.tenantId,pod.image,pod.priority)) = .ok [some ("acme","shop:v1",5)] := by
  have agree : ∀ key : Bytes, Option.Rel WorkloadSpec.AgreesOutside
      ((templatedPlaced spoofedTemplate .workloads)[key]?.bind storedSpec)
      ((templatedPlaced spoofedTemplate.submitted .workloads)[key]?.bind storedSpec) := by
    have stored : ∀ template, ∀ key : Bytes, (templatedPlaced template .workloads)[key]?.bind storedSpec =
        if key = workloadKey "acme" "shop" then some (templatedShop template) else none := by
      intro template key
      by_cases same : key = workloadKey "acme" "shop"
      · subst same
        simp [templatedPlaced,put,perform,Write.on,storedSpec,Except.toOption]
      · simp [templatedPlaced,put,perform,Write.on,Disk.empty,same,Ne.symm same]
    intro key
    rw [stored,stored]
    split
    · exact .some ⟨rfl,rfl⟩
    · exact .none
  have placements : templatedPlaced spoofedTemplate.submitted .placements = templatedPlaced spoofedTemplate .placements := by
    simp [templatedPlaced,put,perform,Write.on]
  obtain ⟨assignments,first,second,_⟩ := schedule_assigns_trusted_fields placements agree "data.example.internal"
  exact ⟨first.trans second.symm,by decide +kernel⟩

end FleetosControl
