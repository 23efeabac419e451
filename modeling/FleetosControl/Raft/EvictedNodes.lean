import FleetosControl.Ca.ReferencePlatform
import FleetosControl.Raft.Eviction
import FleetosControl.Scheduler.Engine

/-! Evicted nodes over whole runs. An eviction clears the node, but the log may order after it
placements and delegations that were computed before. -/
namespace FleetosControl
open Wire KeyValue Trace Views

section
variable [FleetosCore] [Formats] {disk left right : Disk} {writes : List Write} {kind : ChangeKind} {nodeId : String}

def EvictedNode (disk : Disk) (node : SpiffeId) : Prop :=
  ∃ bytes, ∃ record : NodeRecord, (disk .nodes)[asBytes (display node)]? = some bytes ∧
    fromBytes bytes = .ok record ∧ record.status = .evicted

structure EvictedClear (disk : Disk) : Prop where
  placements : ∀ (key bytes : Bytes) (placement : Placement), (disk .placements)[key]? = some bytes →
    fromBytes bytes = .ok placement → ¬EvictedNode disk placement.nodeId
  delegations : ∀ (key bytes : Bytes) (record : DelegationRecord), (disk .activeDelegations)[key]? = some bytes →
    fromBytes bytes = .ok record → ¬EvictedNode disk record.nodeId
  disjoint : ∀ key bytes : Bytes, (disk .activeDelegations)[key]? = some bytes → (disk .revokedDelegations)[key]? = none

theorem evictedNode_stored {node : SpiffeId} {record : NodeRecord}
    (stored : (disk .nodes)[asBytes (display node)]? = some (toAllocvec record)) :
    EvictedNode disk node ↔ record.status = .evicted := by
  simp [EvictedNode,stored]

/-- What commands keep: records under their own keys, and nothing left on an evicted node. -/
def Tidy (disk : Disk) : Prop := Every Filed disk ∧ EvictedClear disk

theorem evictedNode_congr (same : left .nodes = right .nodes) (node : SpiffeId) :
    EvictedNode left node ↔ EvictedNode right node := by
  simp only [EvictedNode,same]

theorem tidy_congr (same : ∀ keyspace : Keyspace, keyspace.application = true → right keyspace = left keyspace)
    (tidy : Tidy left) : Tidy right := by
  obtain ⟨filed,clear⟩ := tidy
  refine ⟨?_,?_,?_,?_⟩
  · intro keyspace key bytes stored
    cases keyspace
    case placements => exact filed .placements key bytes (same .placements rfl ▸ stored)
    case activeDelegations => exact filed .activeDelegations key bytes (same .activeDelegations rfl ▸ stored)
    all_goals trivial
  · intro key bytes placement stored decoded
    rw [evictedNode_congr (same .nodes rfl)]
    exact clear.placements key bytes placement (same .placements rfl ▸ stored) decoded
  · intro key bytes record stored decoded
    rw [evictedNode_congr (same .nodes rfl)]
    exact clear.delegations key bytes record (same .activeDelegations rfl ▸ stored) decoded
  · intro key bytes stored
    rw [same .revokedDelegations rfl]
    exact clear.disjoint key bytes (same .activeDelegations rfl ▸ stored)

def FleetosCommand.Timely (disk : Disk) : FleetosCommand → Prop
  | .commitPlacement record => ¬EvictedNode disk record.nodeId
  | .issueDelegation record => ¬EvictedNode disk record.nodeId ∧
      (disk .revokedDelegations)[compositeDelegationKey record.nodeId record.delegationId]? = none
  | _ => True

def Owes (disk : Disk) (keyspace : Keyspace) (key bytes : Bytes) : Prop :=
  match keyspace with
  | .placements => ∀ placement : Placement, fromBytes bytes = .ok placement →
      key = asBytes placement.podId ∧ ¬EvictedNode disk placement.nodeId
  | .activeDelegations => (disk .revokedDelegations)[key]? = none ∧
      ∀ record : DelegationRecord, fromBytes bytes = .ok record →
        key = compositeDelegationKey record.nodeId record.delegationId ∧ ¬EvictedNode disk record.nodeId
  | .nodes => ∀ record : NodeRecord, fromBytes bytes = .ok record → record.status = .evicted →
      ∃ stored, ∃ old : NodeRecord, (disk .nodes)[key]? = some stored ∧ fromBytes stored = .ok old ∧
        old.status = .evicted
  | .revokedDelegations => (disk .revokedDelegations)[key]? = some bytes
  | _ => True

theorem owes_self (filed : Every Filed disk) (clear : EvictedClear disk) : Every (Owes disk) disk := by
  intro keyspace key bytes stored
  cases keyspace
  case placements =>
    exact fun placement decoded => ⟨filed _ _ _ stored placement decoded,clear.placements _ _ _ stored decoded⟩
  case activeDelegations =>
    exact ⟨clear.disjoint _ _ stored,fun record decoded =>
      ⟨filed _ _ _ stored record decoded,clear.delegations _ _ _ stored decoded⟩⟩
  case nodes => exact fun record decoded evicted => ⟨bytes,record,stored,decoded,evicted⟩
  case revokedDelegations => exact stored
  all_goals trivial

theorem clear_of_owes (owes : Every (Owes before) after) : Tidy after := by
  have evicted : ∀ node, EvictedNode after node → EvictedNode before node := by
    rintro node ⟨bytes,record,stored,decoded,status⟩
    exact owes _ _ _ stored record decoded status
  refine ⟨?_,?_,?_,?_⟩
  · intro keyspace key bytes stored
    cases keyspace
    case placements => exact fun placement decoded => (owes _ _ _ stored placement decoded).1
    case activeDelegations => exact fun record decoded => ((owes _ _ _ stored).2 record decoded).1
    all_goals trivial
  · intro key bytes placement stored decoded
    exact mt (evicted _) (owes _ _ _ stored placement decoded).2
  · intro key bytes record stored decoded
    exact mt (evicted _) ((owes _ _ _ stored).2 record decoded).2
  · intro key bytes stored
    cases revoked : (after .revokedDelegations)[key]? with
    | none => rfl
    | some value =>
      have absent : (before .revokedDelegations)[key]? = none := (owes .activeDelegations key bytes stored).1
      rw [owes .revokedDelegations key value revoked] at absent
      cases absent

theorem keeps_elsewhere (disk : Disk) (write : Write)
    (elsewhere : write.table ∉ [Keyspace.nodes,.placements,.activeDelegations,.revokedDelegations]) :
    write.Keeps (Owes disk) := by
  cases write with
  | remove keyspace key => trivial
  | insert keyspace key bytes =>
    change Owes disk keyspace key bytes
    cases keyspace
    case nodes | placements | activeDelegations | revokedDelegations => simp at elsewhere
    all_goals trivial

theorem untouched_owes (ok : applyCommand disk cmd = .ok (writes,kind))
    (apart : ∀ keyspace ∈ cmd.touches, keyspace ∉ [Keyspace.nodes,.placements,.activeDelegations,.revokedDelegations]) :
    ∀ write ∈ writes, write.Keeps (Owes disk) :=
  fun write member => keeps_elsewhere disk write (apart _ (applyCommand_within disk cmd writes kind ok write member))

theorem rewritten_owes (rewrites : RewritesNode disk nodeId record) :
    ∀ write ∈ [put .nodes (asBytes nodeId) record], write.Keeps (Owes disk) := by
  obtain ⟨found,read,kept⟩ := rewrites
  simp only [mem_singleton,forall_eq,put,Write.Keeps,Owes,fromBytes_iff]
  rintro _ rfl evicted
  cases found with
  | none => exact absurd evicted kept.2
  | some old =>
    obtain ⟨bytes,stored,decoded⟩ := readRecord_some.mp read
    exact ⟨bytes,old,stored,decoded,kept.2.1.mp evicted⟩

theorem freePlacement_owes (disk : Disk) (tenantId workloadId : String) (placements : List Placement) :
    ∀ write ∈ placements.flatMap (freePlacement tenantId workloadId), write.Keeps (Owes disk) := by
  intro write member
  obtain ⟨placement,_,inside⟩ := mem_flatMap.mp member
  rcases mem_cons.mp inside with rfl | inside
  · trivial
  · obtain rfl := mem_singleton.mp inside
    trivial

theorem reassignPodId_owes (clear : EvictedClear disk) (tenantId service role : String) (ordinal : UInt32)
    (newPodId : String) :
    ∀ write ∈ reassignPodId disk tenantId service role ordinal newPodId, write.Keeps (Owes disk) := by
  unfold reassignPodId
  simp only
  split
  case h_1 placement found =>
    obtain ⟨key,bytes,stored,decoded⟩ := mem_scanRecords.mp (List.mem_of_find?_eq_some found)
    simp only [mem_cons,not_mem_nil,or_false,forall_eq_or_imp,forall_eq,put,Write.Keeps,Owes,
      fromBytes_iff,true_and,and_true]
    intro moved same
    have staying := clear.placements key bytes placement stored decoded
    subst same
    exact ⟨rfl,staying⟩
  case h_2 => simp

theorem evict_clears (filed : Every Filed disk) (clear : EvictedClear disk) {expires : Int64}
    (ok : applyCommand disk (.evictNode nodeId expires) = .ok (writes,kind)) : Tidy (commit disk writes) := by
  have refiled := evict_filed filed ok
  obtain ⟨_,_,nodes⟩ := evictNode_nodes ok
  obtain ⟨node,marked,parsed,rfl⟩ := evictNode_ok (filed .activeDelegations) ok
  have placed : ∀ key bytes : Bytes,
      (commit disk (evictionWrites disk node nodeId marked expires) .placements)[key]? = some bytes →
        (disk .placements)[key]? = some bytes ∧ hostedOn node bytes = false := by
    intro key bytes stored
    rw [evictionWrites_placements disk node nodeId marked expires (filed .placements)] at stored
    simpa using Option.filter_eq_some_iff.mp stored
  have active : ∀ key bytes : Bytes,
      (commit disk (evictionWrites disk node nodeId marked expires) .activeDelegations)[key]? = some bytes →
        (disk .activeDelegations)[key]? = some bytes ∧ inRange node key bytes = false := by
    intro key bytes stored
    rw [evictionWrites_active] at stored
    simpa using Option.filter_eq_some_iff.mp stored
  have evicted : ∀ other, EvictedNode (commit disk (evictionWrites disk node nodeId marked expires)) other →
      other = node ∨ EvictedNode disk other := by
    rintro other ⟨bytes,record,stored,decoded,status⟩
    rw [nodes] at stored
    rcases insert_eq_some.mp stored with ⟨same,_⟩ | ⟨_,before⟩
    · have text : display other = nodeId := asBytes_injective same
      rw [← text,parse_display] at parsed
      exact .inl (Except.ok.inj parsed)
    · exact .inr ⟨bytes,record,before,decoded,status⟩
  refine ⟨refiled,?_,?_,?_⟩
  · intro key bytes placement stored decoded gone
    obtain ⟨before,elsewhere⟩ := placed key bytes stored
    rcases evicted _ gone with here | already
    · simp [hostedOn,decoded,here] at elsewhere
    · exact clear.placements _ _ _ before decoded already
  · intro key bytes record stored decoded gone
    obtain ⟨before,outside⟩ := active key bytes stored
    rcases evicted _ gone with here | already
    · have named := filed _ _ _ before record decoded
      have under : nodeDelegationPrefix node <+: key := by
        rw [named,here]
        exact List.prefix_append _ _
      have found := List.isPrefixOf_iff_prefix.mpr under
      simp [inRange,decoded,found,Except.isOk,Except.toBool] at outside
    · exact clear.delegations _ _ _ before decoded already
  · intro key bytes stored
    obtain ⟨before,outside⟩ := active key bytes stored
    rw [evictionWrites_revoked,before]
    simpa [Option.filter,outside] using clear.disjoint key bytes before

def Entry.Timely (disk : Disk) (entry : Entry) : Prop :=
  ∀ audited, entry.payload = .normal audited → audited.cmd.Timely disk

theorem entry_timely (advances : Advances before entry after) (clear : EvictedClear after.disk) :
    entry.Timely before.disk := by
  intro audited normal
  obtain ⟨writes,kind,ok,contents⟩ := advances.applied normal
  cases command : audited.cmd with
  | commitPlacement record =>
    rw [command] at ok
    cases ok
    have nodes : after.disk .nodes = before.disk .nodes := (contents .nodes rfl).trans (commit_frame _ _ _ (by simp))
    have stored : (after.disk .placements)[asBytes record.podId]? = some (toAllocvec record) := by
      rw [contents .placements rfl]
      simp [put,perform,Write.on]
    change ¬EvictedNode before.disk record.nodeId
    rw [← evictedNode_congr nodes]
    exact clear.placements _ _ _ stored (by simp)
  | issueDelegation record =>
    rw [command] at ok
    cases ok
    have nodes : after.disk .nodes = before.disk .nodes := (contents .nodes rfl).trans (commit_frame _ _ _ (by simp))
    have revoked : after.disk .revokedDelegations = before.disk .revokedDelegations :=
      (contents .revokedDelegations rfl).trans (commit_frame _ _ _ (by simp))
    have stored : (after.disk .activeDelegations)[compositeDelegationKey record.nodeId record.delegationId]? =
        some (toAllocvec record) := by
      rw [contents .activeDelegations rfl]
      simp [put,perform,Write.on]
    refine ⟨?_,?_⟩
    · rw [← evictedNode_congr nodes]
      exact clear.delegations _ _ _ stored (by simp)
    · rw [← revoked]
      exact clear.disjoint _ _ stored
  | _ => trivial

section
variable [Merges] {disk : Disk} {cmd : FleetosCommand} {writes : List Write} {kind : ChangeKind}
  {audited : AuditedCommand}

/-- Nothing registers a node or revokes a single delegation, and manifests are of known kinds. -/
def FleetosCommand.Arises : FleetosCommand → Prop
  | .registerNode .. | .revokeDelegation .. => False
  | .applyManifests updates => ∀ update ∈ updates, update.Targeted
  | _ => True

theorem targeted_owes (disk : Disk) {update : ManifestUpdate} (targeted : update.Targeted)
    (named : manifestKeyspace update.targetKeyspace = some keyspace) :
    Owes disk keyspace update.targetKey update.newRecordBytes := by
  have target := targeted_keyspace targeted named
  cases keyspace
  case placements | activeDelegations | nodes | revokedDelegations => simp at target
  all_goals trivial

theorem writes_owe (clear : EvictedClear disk) (arises : cmd.Arises) (timely : cmd.Timely disk)
    (other : ∀ nodeId expires, cmd ≠ .evictNode nodeId expires) (ok : applyCommand disk cmd = .ok (writes,kind)) :
    ∀ write ∈ writes, write.Keeps (Owes disk) := by
  cases cmd
  case registerNode | revokeDelegation => exact arises.elim
  case evictNode => exact (other _ _ rfl).elim
  case setNodeSchedulable =>
    obtain ⟨record,rfl,_,rewrites⟩ := setNodeSchedulable_ok ok
    exact rewritten_owes rewrites
  case nodeHeartbeat =>
    rcases nodeHeartbeat_ok ok with rfl | ⟨record,rfl,rewrites⟩
    · exact List.forall_mem_nil _
    · exact rewritten_owes rewrites
  case deleteWorkload tenantId workloadId =>
    cases ok
    intro write member
    rcases mem_cons.mp member with rfl | freed
    · trivial
    · exact freePlacement_owes disk tenantId workloadId _ write freed
  case scaleWorkload record =>
    cases ok
    intro write member
    rcases mem_cons.mp member with rfl | freed
    · trivial
    · exact freePlacement_owes disk record.tenantId record.workloadId _ write freed
  case reassignPodId =>
    cases ok
    exact reassignPodId_owes clear _ _ _ _ _
  case commitPlacement record =>
    cases ok
    simpa [put,Write.Keeps,Owes,FleetosCommand.Timely] using timely
  case issueDelegation record =>
    cases ok
    simpa [put,Write.Keeps,Owes,FleetosCommand.Timely,and_comm] using timely
  case applyManifests updates =>
    cases ok
    intro write member
    obtain ⟨update,inside,made⟩ := mem_filterMap.mp member
    obtain ⟨keyspace,named,rfl⟩ := map_eq_some_iff.mp made
    exact targeted_owes disk (arises update inside) named
  case removePlacement =>
    cases ok
    simp [Write.Keeps]
  all_goals exact untouched_owes ok (by simp [touches])

theorem command_clears (filed : Every Filed disk) (clear : EvictedClear disk) (arises : cmd.Arises)
    (timely : cmd.Timely disk) (ok : applyCommand disk cmd = .ok (writes,kind)) : Tidy (commit disk writes) := by
  by_cases eviction : ∃ nodeId expires, cmd = .evictNode nodeId expires
  · obtain ⟨nodeId,expires,rfl⟩ := eviction
    exact evict_clears filed clear ok
  · have other : ∀ nodeId expires, cmd ≠ .evictNode nodeId expires :=
      fun nodeId expires same => eviction ⟨nodeId,expires,same⟩
    exact clear_of_owes (commit_every (owes_self filed clear) writes (writes_owe clear arises timely other ok))

/-- The commands that neither place anything nor introduce a node; nothing proposes `RegisterNode`. -/
def FleetosCommand.PlacesNothing : FleetosCommand → Prop
  | .registerNode .. | .commitPlacement .. | .issueDelegation .. => False
  | _ => True

/-- The proposals of controllers and handlers, computed from the state they read. -/
inductive ComputedFrom [SpiffeParts] [ProofCore] [DelegatedKeyCore] (view : Disk) : AuditedCommand → Prop where
  | scheduled {pod node audited} :
      node ∈ filterNodes pod (buildClusterState view) → audited ∈ commitScheduling pod node.nodeId →
      ComputedFrom view audited
  -- a pod that takes the place of others goes to a schedulable node whose taints it tolerates
  | preempting {pod : PendingPod} {node audited} :
      node ∈ (buildClusterState view).schedulableNodes → passesTaintFilter pod.tolerations node.taints = true →
      audited ∈ commitScheduling pod node.nodeId → ComputedFrom view audited
  | delegated {config peer requestId req delegated} :
      DelegationService.requestDelegatedKey config view peer requestId req = .ok delegated →
      ComputedFrom view delegated.proposal
  | delegatedByAdmin {server : AdminServer} {config peer requestId req delegated} : server.storage = view →
      server.requestDelegatedKey config peer requestId req = .ok delegated → ComputedFrom view delegated.proposal
  | other {audited : AuditedCommand} : Proposed audited → audited.cmd.PlacesNothing → ComputedFrom view audited

theorem proposed_arises (proposed : Proposed audited) (placesNothing : audited.cmd.PlacesNothing) : audited.cmd.Arises := by
  have proposable := proposed_proposable proposed
  cases command : audited.cmd <;> rw [command] at proposable placesNothing
  case registerNode => exact placesNothing.elim
  case revokeDelegation => exact proposable.elim
  case applyManifests => exact proposable
  all_goals trivial

omit [Formats] in
theorem commitScheduling_arises (member : audited ∈ commitScheduling pod node) : audited.cmd.Arises := by
  rcases mem_cons.mp member with rfl | last
  · trivial
  · rw [mem_singleton.mp last]
    trivial

section
variable [SpiffeParts] [ProofCore] [DelegatedKeyCore]

theorem ComputedFrom.arises (computed : ComputedFrom view audited) : audited.cmd.Arises := by
  cases computed with
  | scheduled _ member => exact commitScheduling_arises member
  | preempting _ _ member => exact commitScheduling_arises member
  | delegated ok =>
    obtain ⟨_,shape,_⟩ := DelegationService.requestDelegatedKey_proposes ok
    rw [shape]
    trivial
  | delegatedByAdmin _ ok =>
    obtain ⟨_,shape,_⟩ := AdminServer.requestDelegatedKey_proposes ok
    rw [shape]
    trivial
  | other proposed placesNothing => exact proposed_arises proposed placesNothing

def Entry.ComputedFrom (view : Node) (entry : Entry) : Prop :=
  ∀ audited, entry.payload = .normal audited → FleetosControl.ComputedFrom view.disk audited

theorem entry_tidy (advances : Advances before entry after) (computed : entry.ComputedFrom view)
    (timely : entry.Timely before.disk) (tidy : Tidy before.disk) :
    Tidy after.disk := by
  rcases advances.cases with ⟨audited,writes,kind,normal,ok,same⟩ | ⟨_,same⟩
  · have kept := command_clears tidy.1 tidy.2 (computed audited normal).arises (timely audited normal) ok
    exact tidy_congr same kept
  · exact tidy_congr same tidy

/-- Every proposal is computed from a state that may have been read long before. -/
abbrev ClusterStep := CommitStep Entry.ComputedFrom Advances

theorem evicted_nodes_clear_iff {first last : History Node} {trace : List (Committed Node Entry)}
    (start : Tidy first.current.disk) (run : Run ClusterStep first trace last) :
    (∀ transition ∈ trace, EvictedClear transition.after.current.disk) ↔
      ∀ transition ∈ trace, transition.label.command.Timely transition.before.current.disk := by
  constructor
  · intro clear transition member
    obtain ⟨_,_,advances,_⟩ := (run.step_of_mem transition member).cases
    exact entry_timely advances (clear transition member)
  · intro timely
    have kept := run.invariant (fun history => Tidy history.current.disk)
      (fun transition => transition.label.command.Timely transition.before.current.disk) ?_ start timely
    · intro transition member
      exact (kept.1 transition member).2.2
    · intro before label after step timely tidy
      obtain ⟨_,computed,advances,_⟩ := step.cases
      exact entry_tidy advances computed timely tidy

end

end

end

open Reference NoMessages

theorem tidy_empty : Tidy Disk.empty := by
  refine ⟨?_,?_,?_,?_⟩ <;>
    intro key bytes <;>
    simp [Disk.empty]

def hostInfo : NodeInfo := ⟨hostId,⟨0,0⟩,⟨0,0⟩,"",true,0,[]⟩

def shopPod : PendingPod := ⟨"shop-web-0","acme","shop","web",0,⟨0,0⟩,0,[]⟩

def uncordonHost (index : UInt64) : Entry := commandAt index (.setNodeSchedulable hostId.1 true)

def assignShop (index : UInt64) : Entry :=
  commandAt index (.recordOrdinalAssignment ⟨"acme","shop","web",0,some "shop-web-0",some hostId.1⟩)

def placeShop (index : UInt64) : Entry :=
  commandAt index (.commitPlacement ⟨"shop-web-0","acme","shop","web",0,hostId,⟨0,0⟩⟩)

def evictHost (index : UInt64) : Entry := commandAt index (.evictNode hostId.1 1700086400)

def delegationConfig : DelegationConfig := ⟨some dataControl,14400,fun ttl => (ttl / 2).toInt64,1700000000,1700000000⟩

def delegateShop (index : UInt64) : Entry := ⟨logIdAt index,.normal ⟨.issueDelegation
  ⟨computeDelegationId hostId.1 shopId.1 (some 0) 1700000000,hostId,shopId,some 0,1700000000,1700014400,1700007200⟩,
  some ⟨"req-1",hostId.1,shopId.1,1700000000⟩⟩⟩

def uncordoned : Node := (apply (boot Disk.empty) [uncordonHost 1]).1

theorem uncordoned_admits : hostInfo ∈ filterNodes shopPod (buildClusterState uncordoned.disk) := by
  have only : filterNodes shopPod (buildClusterState uncordoned.disk) = [hostInfo] := rfl
  rw [only]
  exact mem_singleton_self _

theorem uncordonHost_computed (view : Node) (index : UInt64) : (uncordonHost index).ComputedFrom view := by
  intro audited normal
  cases normal
  exact .other (.unchecked trivial) trivial

theorem evictHost_computed (view : Node) (index : UInt64) : (evictHost index).ComputedFrom view := by
  intro audited normal
  cases normal
  have first : AuditedCommand.system (.evictNode hostId.1 1700086400) ∈
      NodeController.evictNode 86400 1700000000 hostId := mem_cons_self
  exact .other (.nodeController first) trivial

theorem assignShop_computed (index : UInt64) : (assignShop index).ComputedFrom uncordoned := by
  intro audited normal
  cases normal
  exact .scheduled uncordoned_admits mem_cons_self

theorem placeShop_computed (index : UInt64) : (placeShop index).ComputedFrom uncordoned := by
  intro audited normal
  cases normal
  exact .scheduled uncordoned_admits (mem_cons_of_mem _ mem_cons_self)

def evictedFirst : Node := (apply uncordoned [evictHost 2]).1

def assignedLate : Node := (apply evictedFirst [assignShop 3]).1

def placedLate : Node := (apply assignedLate [placeShop 4]).1

def lateTrace : List (Committed Node Entry) :=
  [⟨⟨boot Disk.empty,[]⟩,⟨boot Disk.empty,uncordonHost 1⟩,⟨uncordoned,[boot Disk.empty]⟩⟩,
    ⟨⟨uncordoned,[boot Disk.empty]⟩,⟨uncordoned,evictHost 2⟩,⟨evictedFirst,[uncordoned,boot Disk.empty]⟩⟩,
    ⟨⟨evictedFirst,[uncordoned,boot Disk.empty]⟩,⟨uncordoned,assignShop 3⟩,
      ⟨assignedLate,[evictedFirst,uncordoned,boot Disk.empty]⟩⟩,
    ⟨⟨assignedLate,[evictedFirst,uncordoned,boot Disk.empty]⟩,⟨uncordoned,placeShop 4⟩,
      ⟨placedLate,[assignedLate,evictedFirst,uncordoned,boot Disk.empty]⟩⟩]

theorem lateTrace_run : Run ClusterStep ⟨boot Disk.empty,[]⟩ lateTrace
    ⟨placedLate,[assignedLate,evictedFirst,uncordoned,boot Disk.empty]⟩ := by
  apply Run.cons (commitStep (.inl rfl) (uncordonHost_computed _ 1) (advances_apply (by decide +kernel)))
  apply Run.cons (commitStep (.inl rfl) (evictHost_computed _ 2) (advances_apply (by decide +kernel)))
  apply Run.cons (commitStep (.inr mem_cons_self) (assignShop_computed 3) (advances_apply (by decide +kernel)))
  apply Run.cons (commitStep (.inr (mem_cons_of_mem _ mem_cons_self)) (placeShop_computed 4)
    (advances_apply (by decide +kernel)))
  exact .nil _

/-- The controller places a pod by what it read before the eviction. -/
theorem placed_after_eviction : Run ClusterStep ⟨boot Disk.empty,[]⟩ lateTrace
      ⟨placedLate,[assignedLate,evictedFirst,uncordoned,boot Disk.empty]⟩ ∧
    EvictedNode placedLate.disk hostId ∧ ¬EvictedClear placedLate.disk := by
  have marked : (placedLate.disk .nodes)[asBytes (display hostId)]? =
      some (toAllocvec (evictedRecord hostId.1 (some (blankNode hostId.1 .active true)))) := by decide +kernel
  have stored : (placedLate.disk .placements)[asBytes "shop-web-0"]? =
      some (toAllocvec (⟨"shop-web-0","acme","shop","web",0,hostId,⟨0,0⟩⟩ : Placement)) := by decide +kernel
  have evicted : EvictedNode placedLate.disk hostId := (evictedNode_stored marked).mpr rfl
  refine ⟨lateTrace_run,evicted,?_⟩
  intro clear
  exact clear.placements _ _ _ stored (fromBytes_toAllocvec _) evicted

def assigned : Node := (apply uncordoned [assignShop 2]).1

def placed : Node := (apply assigned [placeShop 3]).1

def delegated : Node := (apply placed [delegateShop 4]).1

def evictedLast : Node := (apply delegated [evictHost 5]).1

theorem delegateShop_computed (index : UInt64) : (delegateShop index).ComputedFrom placed := by
  intro audited normal
  cases normal
  have answered : ∃ response, DelegationService.requestDelegatedKey delegationConfig placed.disk (some hostId) "req-1"
      ⟨hostId.1,shopId.1,some 0,0⟩ = .ok ⟨⟨.issueDelegation
        ⟨computeDelegationId hostId.1 shopId.1 (some 0) 1700000000,hostId,shopId,some 0,1700000000,1700014400,1700007200⟩,
        some ⟨"req-1",hostId.1,shopId.1,1700000000⟩⟩,response⟩ := ⟨_,rfl⟩
  obtain ⟨response,ok⟩ := answered
  exact .delegated ok

def timelyTrace : List (Committed Node Entry) :=
  [⟨⟨boot Disk.empty,[]⟩,⟨boot Disk.empty,uncordonHost 1⟩,⟨uncordoned,[boot Disk.empty]⟩⟩,
    ⟨⟨uncordoned,[boot Disk.empty]⟩,⟨uncordoned,assignShop 2⟩,⟨assigned,[uncordoned,boot Disk.empty]⟩⟩,
    ⟨⟨assigned,[uncordoned,boot Disk.empty]⟩,⟨uncordoned,placeShop 3⟩,⟨placed,[assigned,uncordoned,boot Disk.empty]⟩⟩,
    ⟨⟨placed,[assigned,uncordoned,boot Disk.empty]⟩,⟨placed,delegateShop 4⟩,
      ⟨delegated,[placed,assigned,uncordoned,boot Disk.empty]⟩⟩,
    ⟨⟨delegated,[placed,assigned,uncordoned,boot Disk.empty]⟩,⟨delegated,evictHost 5⟩,
      ⟨evictedLast,[delegated,placed,assigned,uncordoned,boot Disk.empty]⟩⟩]

theorem timelyTrace_run : Run ClusterStep ⟨boot Disk.empty,[]⟩ timelyTrace
    ⟨evictedLast,[delegated,placed,assigned,uncordoned,boot Disk.empty]⟩ := by
  apply Run.cons (commitStep (.inl rfl) (uncordonHost_computed _ 1) (advances_apply (by decide +kernel)))
  apply Run.cons (commitStep (.inl rfl) (assignShop_computed 2) (advances_apply (by decide +kernel)))
  apply Run.cons (commitStep (.inr mem_cons_self) (placeShop_computed 3) (advances_apply (by decide +kernel)))
  apply Run.cons (commitStep (.inl rfl) (delegateShop_computed 4) (advances_apply (by decide +kernel)))
  apply Run.cons (commitStep (.inl rfl) (evictHost_computed _ 5) (advances_apply (by decide +kernel)))
  exact .nil _

theorem host_evicted_in_time : Run ClusterStep ⟨boot Disk.empty,[]⟩ timelyTrace
      ⟨evictedLast,[delegated,placed,assigned,uncordoned,boot Disk.empty]⟩ ∧
    ∀ transition ∈ timelyTrace, EvictedClear transition.after.current.disk := by
  have stays : ∀ node : Node, (node.disk .nodes)[asBytes (display hostId)]? =
      some (toAllocvec (blankNode hostId.1 .active true)) → ¬EvictedNode node.disk hostId := by
    intro node stored
    simp [evictedNode_stored stored,blankNode]
  refine ⟨timelyTrace_run,(evicted_nodes_clear_iff tidy_empty timelyTrace_run).mpr ?_⟩
  simp only [timelyTrace,mem_cons,not_mem_nil,or_false,forall_eq_or_imp,forall_eq]
  refine ⟨?_,?_,?_,?_,?_⟩ <;>
    intro audited normal <;>
    cases normal
  case refine_3 => exact stays assigned (by decide +kernel)
  case refine_4 => exact ⟨stays placed (by decide +kernel),by decide +kernel⟩
  all_goals trivial

end FleetosControl
