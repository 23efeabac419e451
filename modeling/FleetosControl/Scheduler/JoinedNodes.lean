import FleetosControl.Attestation.IdentityBinding
import FleetosControl.Ca.EvictedIdentities
import FleetosControl.Scheduler.Choice
import FleetosControl.Watch.StatusService

/-! Nodes that have joined and nodes that were evicted. The record that heartbeats and the scheduler
go by is filed by a registration. -/
namespace FleetosControl
open Wire KeyValue Trace

section
variable [FleetosCore] [Formats]

/-- The capacity that is known of a node: what its last registration reported, and nothing after an eviction. -/
def FleetosCommand.reports (nodeId : String) (known : Option ResourceSpec) : FleetosCommand → Option ResourceSpec
  | .registerNode record =>
    if record.nodeId = nodeId then if record.status = .evicted then none else some record.capacity else known
  | .evictNode evicted _ => if evicted = nodeId then none else known
  | _ => known

def Entry.reports (nodeId : String) (known : Option ResourceSpec) (entry : Entry) : Option ResourceSpec :=
  match entry.payload with
  | .normal audited => audited.cmd.reports nodeId known
  | _ => known

structure NodeRegistered (disk : Disk) (nodeId : String) (record : NodeRecord) : Prop where
  stored : readRecord NodeRecord disk .nodes (asBytes nodeId) = .ok (some record)
  named : record.nodeId = nodeId
  present : record.status ≠ .evicted

def CapacityKnown (disk : Disk) (nodeId : String) (known : Option ResourceSpec) : Prop :=
  ∀ capacity ∈ known, ∃ record, NodeRegistered disk nodeId record ∧ record.capacity = capacity

/-- A record that says of the node's name, its capacity and its presence what the one it replaces says. -/
def KeepsRegistration (disk : Disk) (nodeId : String) (record : NodeRecord) : Prop :=
  ∀ old, NodeRegistered disk nodeId old →
    record.nodeId = nodeId ∧ record.status ≠ .evicted ∧ record.capacity = old.capacity

section
variable {before after : Disk} {nodeId : String} {known : Option ResourceSpec}

theorem capacityKnown_congr (same : after .nodes = before .nodes) (holds : CapacityKnown before nodeId known) :
    CapacityKnown after nodeId known := by
  intro capacity reported
  obtain ⟨record,⟨stored,named,present⟩,own⟩ := holds capacity reported
  exact ⟨record,⟨(readRecord_congr same _).trans stored,named,present⟩,own⟩

theorem capacityKnown_other (contents : after .nodes = (before .nodes).insert (asBytes other) bytes)
    (apart : other ≠ nodeId) (holds : CapacityKnown before nodeId known) : CapacityKnown after nodeId known := by
  intro capacity reported
  obtain ⟨record,⟨stored,named,present⟩,own⟩ := holds capacity reported
  obtain ⟨kept,found,decoded⟩ := readRecord_some.mp stored
  refine ⟨record,⟨readRecord_some.mpr ⟨kept,?_,decoded⟩,named,present⟩,own⟩
  rw [contents]
  exact insert_eq_some.mpr (.inr ⟨fun same => apart (asBytes_injective same.symm),found⟩)

theorem registered_insert (contents : after .nodes = (before .nodes).insert (asBytes nodeId) (toAllocvec record))
    (named : record.nodeId = nodeId) (present : record.status ≠ .evicted) : NodeRegistered after nodeId record := by
  refine ⟨readRecord_of_lookup ?_,named,present⟩
  rw [contents]
  exact insert_eq_some.mpr (.inl ⟨rfl,rfl⟩)

theorem capacityKnown_rewritten
    (contents : after .nodes = (before .nodes).insert (asBytes other) (toAllocvec record))
    (keeps : KeepsRegistration before other record) (holds : CapacityKnown before nodeId known) :
    CapacityKnown after nodeId known := by
  by_cases own : other = nodeId
  · subst own
    intro capacity reported
    obtain ⟨old,registered,rfl⟩ := holds capacity reported
    obtain ⟨named,present,same⟩ := keeps old registered
    exact ⟨record,registered_insert contents named present,same⟩
  · exact capacityKnown_other contents own holds

end

theorem RewritesNode.keeps (rewrites : RewritesNode disk nodeId record) : KeepsRegistration disk nodeId record := by
  intro old registered
  obtain ⟨found,read,kept⟩ := rewrites
  cases read.symm.trans registered.stored
  obtain ⟨named,status,cpu,memory⟩ := kept
  exact ⟨named.trans registered.named,mt status.mp registered.present,by simp [NodeRecord.capacity,cpu,memory]⟩

theorem commit_put_nodes (disk : Disk) (nodeId : String) (record : NodeRecord) :
    commit disk [put .nodes (asBytes nodeId) record] .nodes =
      (disk .nodes).insert (asBytes nodeId) (toAllocvec record) := by
  rw [commit_cons,commit_nil]
  rfl

theorem advances_capacityKnown (advances : Advances before entry after)
    (holds : CapacityKnown before.disk nodeId known) :
    CapacityKnown after.disk nodeId (entry.reports nodeId known) := by
  rcases advances.cases with ⟨audited,writes,kind,normal,ok,contents⟩ | ⟨other,same⟩
  case inr =>
    have unread : entry.reports nodeId known = known := by
      unfold Entry.reports
      split
      case h_1 audited normal => exact (other audited normal).elim
      case h_2 => rfl
    rw [unread]
    exact capacityKnown_congr (same .nodes rfl) holds
  have read : entry.reports nodeId known = audited.cmd.reports nodeId known := by
    unfold Entry.reports
    rw [normal]
  have stored := contents .nodes rfl
  rw [read]
  cases command : audited.cmd <;> rw [command] at ok
  case registerNode record =>
    cases ok
    rw [commit_put_nodes] at stored
    by_cases own : record.nodeId = nodeId
    · subst own
      by_cases evicted : record.status = .evicted
      · simp [CapacityKnown,FleetosCommand.reports,evicted]
      · simp only [CapacityKnown,FleetosCommand.reports,evicted,if_true,if_false,Option.mem_some_iff,forall_eq']
        exact ⟨record,registered_insert stored rfl evicted,rfl⟩
    · simp only [FleetosCommand.reports,own,if_false]
      exact capacityKnown_other stored own holds
  case setNodeSchedulable =>
    obtain ⟨record,rfl,_,rewrites⟩ := setNodeSchedulable_ok ok
    exact capacityKnown_rewritten (stored.trans (commit_put_nodes _ _ _)) rewrites.keeps holds
  case nodeHeartbeat =>
    rcases nodeHeartbeat_ok ok with rfl | ⟨record,rfl,rewrites⟩
    · exact capacityKnown_congr stored holds
    · exact capacityKnown_rewritten (stored.trans (commit_put_nodes _ _ _)) rewrites.keeps holds
  case evictNode evicted expires =>
    obtain ⟨found,_,marked⟩ := evictNode_nodes ok
    by_cases own : evicted = nodeId
    · simp [CapacityKnown,FleetosCommand.reports,own]
    · simp only [FleetosCommand.reports,own,if_false]
      exact capacityKnown_other (stored.trans marked) own holds
  all_goals
    exact capacityKnown_congr (stored.trans (applyCommand_frame ok .nodes (by simp [touches]))) holds

def Entry.Withdraws (entry : Entry) (nodeId : String) : Prop :=
  ∃ audited, entry.payload = .normal audited ∧ ((∃ expires, audited.cmd = .evictNode nodeId expires) ∨
    ∃ record, audited.cmd = .registerNode record ∧ record.nodeId = nodeId ∧ record.status = .evicted)

omit [Formats] in
theorem reports_isSome {entry : Entry} (stays : ¬entry.Withdraws nodeId) {known : Option ResourceSpec}
    (reported : known.isSome) : (entry.reports nodeId known).isSome := by
  unfold Entry.reports
  split
  case h_2 => exact reported
  case h_1 audited normal =>
    unfold FleetosCommand.reports
    split
    case h_1 record command =>
      split
      case isFalse => exact reported
      case isTrue own =>
        split
        case isFalse => rfl
        case isTrue evicted => exact (stays ⟨audited,normal,.inr ⟨record,command,own,evicted⟩⟩).elim
    case h_2 evicted expires command =>
      split
      case isFalse => exact reported
      case isTrue own => exact (stays ⟨audited,normal,.inl ⟨expires,own ▸ command⟩⟩).elim
    case h_3 => exact reported

/-- Its record, heartbeats that are taken, and a place in the scheduler's view once uncordoned. -/
structure InService (disk : Disk) (id : SpiffeId) (capacity : ResourceSpec) : Prop where
  recorded : ∃ record, readRecord NodeRecord disk .nodes (asBytes (display id)) = .ok (some record)
  heartbeats : ∀ now, reportNodeStatus (disk .nodes) now (some id) ⟨display id⟩ =
    .ok (.system (.nodeHeartbeat (display id) now))
  refreshed : ∀ now, ∃ writes kind record,
    applyCommand disk (.nodeHeartbeat (display id) now) = .ok (writes,kind) ∧
    NodeRegistered (commit disk writes) (display id) record ∧ record.lastHeartbeat = now
  listed : ∃ node ∈ (buildClusterState disk).nodes, node.nodeId = id ∧ node.capacity = capacity
  schedulable : ∃ writes kind, applyCommand disk (.setNodeSchedulable (display id) true) = .ok (writes,kind) ∧
    ∃ node ∈ (buildClusterState (commit disk writes)).schedulableNodes, node.nodeId = id ∧ node.capacity = capacity

theorem NodeRegistered.listed {disk id record} (registered : NodeRegistered disk (display id) record) :
    ∃ node ∈ (buildClusterState disk).nodes, node.nodeId = id ∧ node.capacity = record.capacity ∧
      node.schedulable = (record.schedulable && decide (record.status = .active)) := by
  obtain ⟨bytes,stored,decoded⟩ := readRecord_some.mp registered.stored
  have scanned : record ∈ scanRecords NodeRecord disk .nodes := mem_scanRecords.mpr ⟨_,bytes,stored,decoded⟩
  have parsed : parse record.nodeId = .ok id := by rw [registered.named,parse_display]
  have shown : ∀ placements taints, ∃ node, nodeInfo placements taints record = some node ∧ node.nodeId = id ∧
      node.capacity = record.capacity ∧ node.schedulable = (record.schedulable && decide (record.status = .active)) := by
    intro placements taints
    unfold nodeInfo
    rw [parsed]
    exact ⟨_,rfl,rfl,rfl,rfl⟩
  obtain ⟨node,made,fields⟩ := shown (scanRecords Placement disk .placements) (nodeTaintsOf disk)
  exact ⟨node,mem_filterMap.mpr ⟨record,scanned,made⟩,fields⟩

def NodeRecord.uncordon (record : NodeRecord) : NodeRecord := { record with
  schedulable := true
  status := if record.status = .cordoned then .active else record.status }

omit [FleetosCore] [Formats] in
theorem uncordon_active {record : NodeRecord} (present : record.status ≠ .evicted) : record.uncordon.status = .active := by
  unfold NodeRecord.uncordon
  cases status : record.status
  case evicted => exact (present status).elim
  all_goals rfl

section
variable {disk : Disk} {nodeId : String} {record : NodeRecord}

theorem NodeRegistered.nodeHeartbeat (registered : NodeRegistered disk nodeId record) (now : Int64) :
    applyCommand disk (.nodeHeartbeat nodeId now) =
      .ok ([put .nodes (asBytes nodeId) { record with lastHeartbeat := now }],.clusterMembership) := by
  simp only [applyCommand,FleetosControl.nodeHeartbeat,registered.stored,bind,Except.bind]
  rfl

theorem NodeRegistered.uncordons (registered : NodeRegistered disk nodeId record) :
    applyCommand disk (.setNodeSchedulable nodeId true) =
      .ok ([put .nodes (asBytes nodeId) record.uncordon],.schedulingUpdate) := by
  simp only [applyCommand,setNodeSchedulable,registered.stored,bind,Except.bind,Bool.true_and,decide_eq_true_eq]
  rfl

end

theorem NodeRegistered.inService [SpiffeScheme] {disk id record}
    (registered : NodeRegistered disk (display id) record) : InService disk id record.capacity := by
  obtain ⟨bytes,stored,decoded⟩ := readRecord_some.mp registered.stored
  obtain ⟨node,member,own,capacity,_⟩ := registered.listed
  refine ⟨⟨record,registered.stored⟩,reportNodeStatus_accepts stored decoded registered.present,?_,
    ⟨node,member,own,capacity⟩,?_⟩
  · intro now
    refine ⟨_,_,{ record with lastHeartbeat := now },registered.nodeHeartbeat now,?_,rfl⟩
    exact registered_insert (commit_put_nodes _ _ _) registered.named registered.present
  · have active := uncordon_active registered.present
    have opened : NodeRegistered (commit disk [put .nodes (asBytes (display id)) record.uncordon])
        (display id) record.uncordon :=
      registered_insert (commit_put_nodes _ _ _) registered.named (by simp [active])
    obtain ⟨node,member,own,capacity,schedulable⟩ := opened.listed
    refine ⟨_,_,registered.uncordons,node,mem_filter.mpr ⟨member,?_⟩,own,capacity⟩
    rw [schedulable,active]
    rfl

section
variable [Merges]

def IdentityEvent.reports (nodeId : String) (known : Option ResourceSpec) : IdentityEvent → Option ResourceSpec
  | .applied entry => entry.reports nodeId known
  | _ => known

def IdentityEvent.Withdraws (nodeId : String) : IdentityEvent → Prop
  | .applied entry => entry.Withdraws nodeId
  | _ => False

def reportedCapacity (nodeId : String) (trace : List (Transition Identities IdentityEvent)) : Option ResourceSpec :=
  trace.foldl (fun known transition => transition.label.reports nodeId known) none

theorem reports_stay {nodeId : String} {trace : List (Transition Identities IdentityEvent)}
    (stays : ∀ transition ∈ trace, ¬transition.label.Withdraws nodeId) {known : Option ResourceSpec}
    (reported : known.isSome) :
    (trace.foldl (fun known transition => transition.label.reports nodeId known) known).isSome := by
  induction trace generalizing known with
  | nil => exact reported
  | cons transition rest ih =>
    obtain ⟨first,others⟩ := forall_mem_cons.mp stays
    refine ih others ?_
    obtain ⟨before,label,after⟩ := transition
    cases label with
    | applied entry => exact reports_isSome first reported
    | _ => exact reported

variable [SpiffeParts] [ProofCore] [DelegatedKeyCore] [AppleSe] [Postcard SvidGrantRecord]
  [ActivationFormats] [Postcard TpmQuote]
  {domains : TrustDomainConfig} {nodeId : String}

theorem capacityKnown_step (step : IdentityStep domains before event after)
    (holds : CapacityKnown before.history.current.disk nodeId known) :
    CapacityKnown after.history.current.disk nodeId (event.reports nodeId known) := by
  cases step with
  | applied _ advances => exact advances_capacityKnown advances holds
  | committed _ _ _ advances => exact advances_capacityKnown advances holds
  | _ => exact holds

theorem capacityKnown_run (run : Run (IdentityStep domains) start trace final)
    (holds : CapacityKnown start.history.current.disk nodeId known) :
    CapacityKnown final.history.current.disk nodeId
      (trace.foldl (fun known transition => transition.label.reports nodeId known) known) := by
  induction run generalizing known with
  | nil => exact holds
  | cons step _ ih => exact ih (capacityKnown_step step holds)

/-- A node that was registered when its certificate was issued is in service with the capacity it last reported. -/
theorem joined_nodes_in_service [SpiffeScheme] {start final : Identities}
    {trace : List (Transition Identities IdentityEvent)} (run : Run (IdentityStep domains) start trace final) {id : SpiffeId}
    (registered : ∀ earlier joined later, trace = earlier ++ joined :: later →
      (∃ certDer, joined.label = .certified (display id) certDer) →
      (reportedCapacity (display id) earlier).isSome) :
    ∀ earlier joined later, trace = earlier ++ joined :: later →
      (∃ certDer, joined.label = .certified (display id) certDer) →
      (∀ transition ∈ later, ¬transition.label.Withdraws (display id)) →
      ∃ capacity, reportedCapacity (display id) trace = some capacity ∧
        InService final.history.current.disk id capacity := by
  rintro earlier joined later split ⟨certDer,completed⟩ stays
  have before := registered earlier joined later split ⟨certDer,completed⟩
  have still : ∀ transition ∈ joined :: later, ¬transition.label.Withdraws (display id) := by
    refine forall_mem_cons.mpr ⟨?_,stays⟩
    rw [completed]
    exact fun withdrawn => withdrawn
  have after : (reportedCapacity (display id) trace).isSome := by
    rw [reportedCapacity,split,List.foldl_append]
    exact reports_stay still before
  obtain ⟨capacity,reported⟩ := Option.isSome_iff_exists.mp after
  have holds : CapacityKnown final.history.current.disk (display id)
      (reportedCapacity (display id) trace) := capacityKnown_run run (fun _ none => nomatch none)
  obtain ⟨record,listed,rfl⟩ := holds capacity reported
  exact ⟨record.capacity,reported,listed.inService⟩

end

end

section
open Reference NoMessages

instance : SpiffeScheme := ⟨fun id => id.2⟩

def atRest (current : Node) (earlier : List Node) (svids : List HeldSvid) : Identities :=
  ⟨⟨current,earlier⟩,1700000000,[],[],fun _ => ∅,svids⟩

def joinRequest (stages : List Stage) : Request := ⟨.svid agentId (csrNaming [agentId]),stages⟩

def recordsVersion : Stage := .nextVersion agentId []

def activates : Stage := .exactly (activationOf agentId).activate trivial

def joining (current : Node) (earlier : List Node) (stages : List Stage) : Identities :=
  { atRest current earlier [] with requests := [joinRequest stages] }

def joinTrace (node activated versioned : Node) (earlier : List Node) (first second : LogId) :
    List (Transition Identities IdentityEvent) :=
  [⟨atRest node earlier [],.attested (.svid agentId (csrNaming [agentId])),joining node earlier [activates,recordsVersion]⟩,
    ⟨joining node earlier [activates,recordsVersion],.applied ⟨first,.normal (activationOf agentId).activate⟩,
      joining activated (node :: earlier) [recordsVersion]⟩,
    ⟨joining activated (node :: earlier) [recordsVersion],.applied ⟨second,.normal (.system (.upsertSvidVersion firstSvid))⟩,
      joining versioned (activated :: node :: earlier) []⟩,
    ⟨joining versioned (activated :: node :: earlier) [],.certified agentId (csrNaming [agentId]),
      atRest versioned (activated :: node :: earlier) [dayLongSvid]⟩]

theorem stageStep {current : Node} {next} (earlier : List Node) {stage : Stage} {stages audited logId}
    (proposed : stage.proposes current.disk audited) (advances : Advances current ⟨logId,.normal audited⟩ next) :
    IdentityStep fleetDomains (joining current earlier (stage :: stages)) (.applied ⟨logId,.normal audited⟩)
      (joining next (current :: earlier) stages) := by
  have queued : (joining current earlier (stage :: stages)).requests =
    [] ++ joinRequest (stage :: stages) :: [] := rfl
  exact .committed queued (.inl rfl) proposed advances

theorem issueStep (current : Node) (earlier : List Node) :
    IdentityStep fleetDomains (joining current earlier []) (.certified agentId (csrNaming [agentId]))
      (atRest current earlier [dayLongSvid]) := by
  have queued : (joining current earlier []).requests = [] ++ joinRequest [] :: [] := rfl
  have signed : signCsr 1700000060 (csrNaming [agentId]) dataControl 86400 = .ok (csrNaming [agentId]) := by decide +kernel
  have names : uriNames (subjectAltNames (csrNaming [agentId])) = [agentId] := by decide +kernel
  have step : IdentityStep fleetDomains (joining current earlier []) _ _ := .issued 1700086400 queued signed
  rw [names] at step
  exact step

theorem joinTrace_run (earlier : List Node)
    (activation : Advances node ⟨first,.normal (activationOf agentId).activate⟩ activated)
    (read : nextSvid activated.disk agentId (some []) 1700000060 = .ok firstSvid)
    (version : Advances activated ⟨second,.normal (.system (.upsertSvidVersion firstSvid))⟩ versioned) :
    Run (IdentityStep fleetDomains) (atRest node earlier []) (joinTrace node activated versioned earlier first second)
      (atRest versioned (activated :: node :: earlier) [dayLongSvid]) := by
  have proved : ((secureServer (challengedNode agentId).disk).checkProof (answerFor agentId)) =
      ((answeredNode agentId).disk,.ok (activationOf agentId)) := Prod.ext rfl (by decide +kernel)
  have proposed : recordsVersion.proposes activated.disk (.system (.upsertSvidVersion firstSvid)) := ⟨_,_,read,rfl⟩
  apply Run.cons (.proof proved)
  apply Run.cons (stageStep earlier rfl activation)
  apply Run.cons (stageStep (node :: earlier) proposed version)
  apply Run.cons (issueStep versioned _)
  exact .nil _

theorem joinTrace_stays (node activated versioned : Node) (earlier : List Node) (first second : LogId) :
    ∀ transition ∈ joinTrace node activated versioned earlier first second,
      ¬transition.label.Withdraws (display agent) := by
  simp [joinTrace,IdentityEvent.Withdraws,Entry.Withdraws,AuditedCommand.system,Activation.activate]

theorem appliedAtRest {current next} (earlier : List Node) {audited : AuditedCommand} {logId}
    (unchecked : audited.cmd.Unchecked) (advances : Advances current ⟨logId,.normal audited⟩ next) :
    IdentityStep fleetDomains (atRest current earlier []) (.applied ⟨logId,.normal audited⟩)
      (atRest next (current :: earlier) []) := by
  refine .applied ?_ advances
  intro other normal
  cases normal
  exact .unchecked unchecked

def activatedAgent : Node := (apply (policyNode agentId) [⟨logIdAt 3,.normal (activationOf agentId).activate⟩]).1

def certifiedAgent : Node := (apply activatedAgent [⟨logIdAt 4,.normal (.system (.upsertSvidVersion firstSvid))⟩]).1

def enrolledTrace : List (Transition Identities IdentityEvent) :=
  [⟨atRest (boot Disk.empty) [] [],.applied ⟨logIdAt 1,.normal agentRegistration⟩,atRest agentNode [boot Disk.empty] []⟩,
    ⟨atRest agentNode [boot Disk.empty] [],.applied (policyFor agentId),
      atRest (policyNode agentId) [agentNode,boot Disk.empty] []⟩]

theorem enrolledTrace_run : Run (IdentityStep fleetDomains) (atRest (boot Disk.empty) [] []) enrolledTrace
    (atRest (policyNode agentId) [agentNode,boot Disk.empty] []) := by
  have keyed : agentRegistration.cmd.Unchecked := trivial
  have measured : (FleetosCommand.setPcrPolicy ⟨agentId,[⟨0,11,[4]⟩],1700000000,true⟩).Unchecked := trivial
  apply Run.cons (appliedAtRest [] keyed ⟨_,agentNode_applied⟩)
  apply Run.cons (appliedAtRest [boot Disk.empty] measured (advances_apply (by decide +kernel)))
  exact .nil _

theorem enrolledTrace_stays :
    ∀ transition ∈ enrolledTrace, ¬transition.label.Withdraws (display agent) := by
  simp [enrolledTrace,IdentityEvent.Withdraws,Entry.Withdraws,policyFor,commandAt,agentRegistration,AuditedCommand.system]

def unregisteredJoin : List (Transition Identities IdentityEvent) := enrolledTrace ++
  joinTrace (policyNode agentId) activatedAgent certifiedAgent [agentNode,boot Disk.empty] (logIdAt 3) (logIdAt 4)

theorem joined_agent_unknown : Run (IdentityStep fleetDomains) (atRest (boot Disk.empty) [] []) unregisteredJoin
      (atRest certifiedAgent [activatedAgent,policyNode agentId,agentNode,boot Disk.empty] [dayLongSvid]) ∧
    (∃ joined ∈ unregisteredJoin, ∃ certDer, joined.label = .certified (display agent) certDer) ∧
    (∀ transition ∈ unregisteredJoin, ¬transition.label.Withdraws (display agent)) ∧
    readRecord NodeRecord certifiedAgent.disk .nodes (asBytes agentId) = .ok none ∧
    (∀ now, reportNodeStatus (certifiedAgent.disk .nodes) now (some agent) ⟨agentId⟩ =
      .error ⟨.notFound,"node 'spiffe://data.example.internal/ns/system/node/agent-1' is not registered"⟩) ∧
    (buildClusterState certifiedAgent.disk).nodes = [] := by
  have missing : (certifiedAgent.disk .nodes)[asBytes agentId]? = none := by decide +kernel
  have nobody : scanRecords NodeRecord certifiedAgent.disk .nodes = [] := by decide +kernel
  have parsed : parseArgument agentId "node_svid" = .ok agent := by rfl
  have spelled : agentId.isEmpty = false := by decide
  have known : "node '" ++ agentId ++ "' is not registered" =
    "node 'spiffe://data.example.internal/ns/system/node/agent-1' is not registered" := by decide
  refine ⟨enrolledTrace_run.append (joinTrace_run _ (advances_apply (by decide +kernel)) (by decide +kernel)
    (advances_apply (by decide +kernel))),?_,?_,?_,?_,?_⟩
  · exact ⟨_,mem_append_right _ (mem_cons_of_mem _ (mem_cons_of_mem _ (mem_cons_of_mem _
      mem_cons_self))),_,rfl⟩
  · intro transition member
    rcases mem_append.mp member with enrolling | joining
    · exact enrolledTrace_stays transition enrolling
    · exact joinTrace_stays _ _ _ _ _ _ transition joining
  · simp [readRecord,missing]
  · simp [reportNodeStatus,parsed,spelled,missing,known,bind,Except.bind]
  · simp [buildClusterState,ClusterState.build,nobody]

def agentRecord : NodeRecord := ⟨agentId,0,.active,true,1700000000,1700000000,4000,8589934592,"zone-a"⟩

def registerAgent : Entry := commandAt 3 (.registerNode agentRecord)

def registeredAgent : Node := (apply (policyNode agentId) [registerAgent]).1

def activatedMember : Node := (apply registeredAgent [⟨logIdAt 4,.normal (activationOf agentId).activate⟩]).1

def certifiedMember : Node := (apply activatedMember [⟨logIdAt 5,.normal (.system (.upsertSvidVersion firstSvid))⟩]).1

def registeredJoin : List (Transition Identities IdentityEvent) :=
  ⟨atRest (policyNode agentId) [] [],.applied registerAgent,atRest registeredAgent [policyNode agentId] []⟩ ::
    joinTrace registeredAgent activatedMember certifiedMember [policyNode agentId] (logIdAt 4) (logIdAt 5)

theorem registered_agent_in_service : reportedCapacity agentId registeredJoin = some ⟨4000,8589934592⟩ ∧
    InService certifiedMember.disk agent ⟨4000,8589934592⟩ := by
  have run : Run (IdentityStep fleetDomains) (atRest (policyNode agentId) [] []) registeredJoin _ :=
    .cons (appliedAtRest [] trivial (advances_apply (by decide +kernel)))
      (joinTrace_run [policyNode agentId] (advances_apply (by decide +kernel)) (by decide +kernel)
      (advances_apply (by decide +kernel)))
  have reported : reportedCapacity agentId registeredJoin = some ⟨4000,8589934592⟩ := by rfl
  have first : ∀ earlier joined later, registeredJoin = earlier ++ joined :: later →
      (∃ certDer, joined.label = .certified (display agent) certDer) →
      (reportedCapacity (display agent) earlier).isSome := by
    rintro earlier joined later split ⟨_,completed⟩
    cases earlier with
    | nil =>
      cases split
      cases completed
    | cons registered rest =>
      rw [List.cons_append] at split
      obtain ⟨rfl,others⟩ := List.cons.inj split
      have known : (IdentityEvent.reports (display agent) none (.applied registerAgent)).isSome := rfl
      have stays : ∀ transition ∈ rest, ¬transition.label.Withdraws (display agent) := by
        intro transition member
        have inside := mem_append_left (joined :: later) member
        rw [← others] at inside
        exact joinTrace_stays _ _ _ _ _ _ transition inside
      exact reports_stay stays known
  have service := joined_nodes_in_service run first (registeredJoin.take 4) _ [] rfl ⟨_,rfl⟩ (by simp)
  obtain ⟨capacity,known,service⟩ := service
  cases reported.symm.trans known
  exact ⟨reported,service⟩

end

section
variable [FleetosCore] [Formats]

def NodesFiled (disk : Disk) : Prop :=
  ∀ (key bytes : Bytes) (record : NodeRecord), (disk .nodes)[key]? = some bytes → fromBytes bytes = .ok record →
    key = asBytes record.nodeId

/-- A record that goes by the name of the one it replaces, and is evicted if that one was. -/
def Revises (disk : Disk) (nodeId : String) (record : NodeRecord) : Prop :=
  ∃ found, readRecord NodeRecord disk .nodes (asBytes nodeId) = .ok found ∧
    record.nodeId = (found.map (·.nodeId)).getD nodeId ∧ ∀ old ∈ found, old.status = .evicted → record.status = .evicted

def Entry.Registers (entry : Entry) (record : NodeRecord) : Prop :=
  ∃ audited, entry.payload = .normal audited ∧ audited.cmd = .registerNode record

section
variable {disk : Disk} {nodeId : String} {writes : List Write} {kind : ChangeKind}

theorem RewritesNode.revises (rewrites : RewritesNode disk nodeId record) : Revises disk nodeId record := by
  obtain ⟨found,read,kept⟩ := rewrites
  cases found with
  | none => exact ⟨none,read,kept.1,by simp⟩
  | some old => exact ⟨some old,read,kept.1,by simpa using kept.2.1.mpr⟩

theorem evictNode_revises {expires : Int64} (ok : applyCommand disk (.evictNode nodeId expires) = .ok (writes,kind)) :
    ∃ record, commit disk writes .nodes = (disk .nodes).insert (asBytes nodeId) (toAllocvec record) ∧
      Revises disk nodeId record := by
  obtain ⟨found,read,contents⟩ := evictNode_nodes ok
  refine ⟨_,contents,found,read,?_,fun _ _ _ => rfl⟩
  cases found <;> rfl

end

theorem Advances.nodes (advances : Advances before entry after) : after.disk .nodes = before.disk .nodes ∨
      ∃ nodeId record, after.disk .nodes = (before.disk .nodes).insert (asBytes nodeId) (toAllocvec record) ∧
        (entry.Registers record ∧ record.nodeId = nodeId ∨ Revises before.disk nodeId record) := by
  rcases advances.cases with ⟨audited,writes,kind,normal,ok,contents⟩ | ⟨_,same⟩
  case inr => exact .inl (same .nodes rfl)
  have stored := contents .nodes rfl
  cases command : audited.cmd <;> rw [command] at ok
  case registerNode record =>
    cases ok
    rw [commit_put_nodes] at stored
    exact .inr ⟨_,record,stored,.inl ⟨⟨audited,normal,command⟩,rfl⟩⟩
  case setNodeSchedulable =>
    obtain ⟨record,rfl,_,rewrites⟩ := setNodeSchedulable_ok ok
    exact .inr ⟨_,record,stored.trans (commit_put_nodes _ _ _),.inr rewrites.revises⟩
  case nodeHeartbeat =>
    rcases nodeHeartbeat_ok ok with rfl | ⟨record,rfl,rewrites⟩
    · exact .inl stored
    · exact .inr ⟨_,record,stored.trans (commit_put_nodes _ _ _),.inr rewrites.revises⟩
  case evictNode =>
    obtain ⟨record,written,revises⟩ := evictNode_revises ok
    exact .inr ⟨_,record,stored.trans written,.inr revises⟩
  all_goals
    exact .inl (stored.trans (applyCommand_frame ok .nodes (by simp [touches])))

theorem Revises.named (revises : Revises disk nodeId record) (filed : NodesFiled disk) : record.nodeId = nodeId := by
  obtain ⟨found,read,named,_⟩ := revises
  rw [named]
  cases found with
  | none => rfl
  | some old =>
    obtain ⟨bytes,stored,decoded⟩ := readRecord_some.mp read
    exact (asBytes_injective (filed _ bytes old stored decoded)).symm

section
variable {before after : Node} {entry : Entry} (advances : Advances before entry after)
include advances

theorem advances_nodesFiled (filed : NodesFiled before.disk) : NodesFiled after.disk := by
  intro key bytes record stored decoded
  rcases advances.nodes with same | ⟨nodeId,written,contents,origin⟩
  · exact filed key bytes record (same ▸ stored) decoded
  · rw [contents] at stored
    rcases insert_eq_some.mp stored with ⟨rfl,rfl⟩ | ⟨_,kept⟩
    · rw [fromBytes_iff] at decoded
      subst decoded
      rcases origin with ⟨_,rfl⟩ | revises
      · rfl
      · rw [revises.named filed]
    · exact filed key bytes record kept decoded

theorem advances_evicted (unregistered : ∀ record, ¬entry.Registers record)
    (evicted : ∃ record, readRecord NodeRecord before.disk .nodes (asBytes nodeId) = .ok (some record) ∧
      record.status = .evicted) :
    ∃ record, readRecord NodeRecord after.disk .nodes (asBytes nodeId) = .ok (some record) ∧
      record.status = .evicted := by
  obtain ⟨record,read,status⟩ := evicted
  rcases advances.nodes with same | ⟨other,written,contents,origin⟩
  · exact ⟨record,(readRecord_congr same _).trans read,status⟩
  · by_cases own : other = nodeId
    · subst own
      rcases origin with ⟨registered,_⟩ | ⟨found,again,_,keeps⟩
      · exact (unregistered written registered).elim
      · cases read.symm.trans again
        refine ⟨written,readRecord_of_lookup ?_,keeps record rfl status⟩
        rw [contents]
        exact insert_eq_some.mpr (.inl ⟨rfl,rfl⟩)
    · obtain ⟨bytes,stored,decoded⟩ := readRecord_some.mp read
      refine ⟨record,readRecord_some.mpr ⟨bytes,?_,decoded⟩,status⟩
      rw [contents]
      exact insert_eq_some.mpr (.inr ⟨fun same => own (asBytes_injective same.symm),stored⟩)

end

section
variable {disk : Disk} {nodeId : String} {record : NodeRecord}

theorem schedulable_elsewhere (filed : NodesFiled disk)
    (read : readRecord NodeRecord disk .nodes (asBytes nodeId) = .ok (some record))
    (shut : ¬(record.schedulable = true ∧ record.status = .active)) (node : NodeInfo)
    (listed : node ∈ (buildClusterState disk).schedulableNodes) :
    ∃ other ∈ scanRecords NodeRecord disk .nodes,
      other.nodeId ≠ nodeId ∧ other.status = .active ∧ parse other.nodeId = .ok node.nodeId := by
  obtain ⟨inside,schedulable⟩ := mem_filter.mp listed
  obtain ⟨other,scanned,shown⟩ := mem_filterMap.mp inside
  obtain ⟨id,parsed,rfl⟩ := nodeInfo_iff.mp shown
  simp only [NodeInfo.ofRecord,Bool.and_eq_true,decide_eq_true_eq] at schedulable
  refine ⟨other,scanned,?_,schedulable.2,parsed⟩
  intro same
  obtain ⟨key,bytes,stored,decoded⟩ := mem_scanRecords.mp scanned
  have own : readRecord NodeRecord disk .nodes (asBytes nodeId) = .ok (some other) := by
    rw [filed key bytes other stored decoded,same] at stored
    exact readRecord_some.mpr ⟨bytes,stored,decoded⟩
  cases read.symm.trans own
  exact shut schedulable

end

/-- The record of the node says so, and no view opens the node again. -/
theorem evicted_for_good {first middle last : Node} {earlier later : List (Transition Node Entry)}
    (filed : NodesFiled first.disk) (reached : Run Advances first earlier middle) {nodeId : String} {record : NodeRecord}
    (read : readRecord NodeRecord middle.disk .nodes (asBytes nodeId) = .ok (some record))
    (evicted : record.status = .evicted) (run : Run Advances middle later last)
    (unregistered : ∀ transition ∈ later, ∀ record, ¬transition.label.Registers record) :
    ∃ kept, readRecord NodeRecord last.disk .nodes (asBytes nodeId) = .ok (some kept) ∧ kept.nodeId = nodeId ∧
      kept.status = .evicted ∧
      (∀ placements taints node, nodeInfo placements taints kept = some node → node.schedulable = false) ∧
      (∀ node ∈ (buildClusterState last.disk).schedulableNodes, ∃ other ∈ scanRecords NodeRecord last.disk .nodes,
        other.nodeId ≠ nodeId ∧ other.status = .active ∧ parse other.nodeId = .ok node.nodeId) ∧
      ∀ pod decision, schedule pod (buildClusterState last.disk) = .ok decision →
        (∃ other ∈ scanRecords NodeRecord last.disk .nodes,
          other.nodeId ≠ nodeId ∧ other.status = .active ∧ parse other.nodeId = .ok decision.nodeId) ∧
        ∀ id, (∀ other ∈ scanRecords NodeRecord last.disk .nodes, parse other.nodeId = .ok id →
          other.nodeId = nodeId) → decision.nodeId ≠ id := by
  have arrived : NodesFiled middle.disk :=
    (reached.invariant (fun node => NodesFiled node.disk) (fun _ => True)
      (fun _ _ _ advances _ held => advances_nodesFiled advances held) filed (fun _ _ => trivial)).2
  have held : NodesFiled last.disk :=
    (run.invariant (fun node => NodesFiled node.disk) (fun _ => True)
      (fun _ _ _ advances _ held => advances_nodesFiled advances held) arrived (fun _ _ => trivial)).2
  obtain ⟨kept,again,status⟩ :=
    (run.invariant (fun node => ∃ record, readRecord NodeRecord node.disk .nodes (asBytes nodeId) = .ok (some record) ∧
        record.status = .evicted) (fun transition => ∀ record, ¬transition.label.Registers record)
      (fun _ _ _ advances none held => advances_evicted advances none held) ⟨record,read,evicted⟩ unregistered).2
  obtain ⟨bytes,stored,decoded⟩ := readRecord_some.mp again
  have elsewhere := schedulable_elsewhere held again (by simp [status])
  refine ⟨kept,again,(asBytes_injective (held _ bytes kept stored decoded)).symm,status,?_,elsewhere,?_⟩
  · intro placements taints node shown
    obtain ⟨id,_,rfl⟩ := nodeInfo_iff.mp shown
    simp [NodeInfo.ofRecord,status]
  · intro pod decision ok
    obtain ⟨node,passed,same⟩ := schedule_ok ok
    rw [← same]
    obtain ⟨other,scanned,apart,active,parsed⟩ := elsewhere node (List.mem_of_mem_filter passed)
    refine ⟨⟨other,scanned,apart,active,parsed⟩,?_⟩
    intro id only chosen
    exact apart (only other scanned (chosen ▸ parsed))

end

open Reference NoMessages

def registerWorker : Entry := commandAt 1 (.registerNode (workerNode workerId 1000 1073741824 "zone-a"))

def evictWorker : Entry := commandAt 2 (.evictNode workerId.1 1700086400)

def uncordonWorker : Entry := commandAt 3 (.setNodeSchedulable workerId.1 true)

def workerRegistered : Node := (apply (boot Disk.empty) [registerWorker]).1

def workerEvicted : Node := (apply workerRegistered [evictWorker]).1

def workerUncordoned : Node := (apply workerEvicted [uncordonWorker]).1

theorem evicted_worker_uncordoned : ∃ kept,
    readRecord NodeRecord workerUncordoned.disk .nodes (asBytes workerId.1) = .ok (some kept) ∧
      kept.schedulable = true ∧ kept.status = .evicted := by
  have uncordoned : Advances workerEvicted uncordonWorker workerUncordoned := advances_apply (by decide +kernel)
  have filed : NodesFiled (boot Disk.empty).disk := by
    intro key bytes record stored
    simp [boot,Disk.empty] at stored
  have marked : readRecord NodeRecord workerEvicted.disk .nodes (asBytes workerId.1) = .ok (some (evictedRecord workerId.1
      (some (workerNode workerId 1000 1073741824 "zone-a")))) := by decide +kernel
  obtain ⟨kept,read,_,status,_⟩ := evicted_for_good filed (.cons (advances_apply (by decide +kernel))
    (.cons (advances_apply (by decide +kernel)) (.nil _))) marked rfl
    (.cons uncordoned (.nil _)) (by
      intro transition member record registers
      obtain rfl := mem_singleton.mp member
      obtain ⟨audited,normal,command⟩ := registers
      cases normal
      cases command)
  refine ⟨kept,read,?_,status⟩
  have flag : ((readRecord NodeRecord workerUncordoned.disk .nodes (asBytes workerId.1)).toOption.bind id).map
      (·.schedulable) = some true := by decide +kernel
  rw [read] at flag
  simpa [Except.toOption] using flag

end FleetosControl
