import FleetosControl.Raft.Proposals

/-! `EvictNode`, key by key. Its node is clear where keys and records agree, and revoked until an
entry prunes past the recorded expiry. -/
namespace FleetosControl
open Wire KeyValue

section
variable [FleetosCore] {node : SpiffeId} {key : Bytes} {disk : Disk} {nodeId : String} {expires : Int64}
  {writes : List Write} {kind : ChangeKind}

def nodePrefixLen (key : Bytes) : Option Nat :=
  if key.length < 2 then none else some (2 + leNat (key.take 2))

theorem nodeDelegationPrefix_length (node : SpiffeId) :
    (nodeDelegationPrefix node).length = 2 + (asBytes (display node)).length := by
  simp [nodeDelegationPrefix]

theorem nodeDelegationPrefix_injective (same : nodeDelegationPrefix left = nodeDelegationPrefix right) :
    left = right := by
  have texts := List.append_inj_right same (by simp)
  have parsed := congrArg parse (asBytes_injective texts)
  simpa using parsed

theorem nodePrefixLen_under (under : nodeDelegationPrefix node <+: key) :
    nodePrefixLen key = some (2 + (asBytes (display node)).length % 65536) := by
  obtain ⟨rest,rfl⟩ := under
  have long : ¬(nodeDelegationPrefix node ++ rest).length < 2 := by
    rw [List.length_append,nodeDelegationPrefix_length]
    omega
  have front : (nodeDelegationPrefix node ++ rest).take 2 = leBytes 2 (asBytes (display node)).length := by
    simp [nodeDelegationPrefix]
  rw [nodePrefixLen,if_neg long,front,leNat_leBytes]
  rfl

theorem owner_of_range (short : (asBytes (display node)).length < 65536)
    (under : nodeDelegationPrefix node <+: key) (own : nodeDelegationPrefix owner <+: key)
    (measured : nodePrefixLen key = some (nodeDelegationPrefix owner).length) : owner = node := by
  have lengths := (nodePrefixLen_under under).symm.trans measured
  rw [Nat.mod_eq_of_lt short,← nodeDelegationPrefix_length] at lengths
  have equal := Option.some.inj lengths
  apply nodeDelegationPrefix_injective
  exact (List.prefix_of_prefix_length_le own under equal.ge).eq_of_length equal.symm

variable [Formats]

def issuedTo (node : SpiffeId) (bytes : Bytes) : Bool :=
  match fromBytes (α := DelegationRecord) bytes with
  | .ok record => record.nodeId = node
  | .error _ => false

def hostedOn (node : SpiffeId) (bytes : Bytes) : Bool :=
  match fromBytes (α := Placement) bytes with
  | .ok placement => placement.nodeId = node
  | .error _ => false

theorem hostedOn_iff (node : SpiffeId) (bytes : Bytes) :
    hostedOn node bytes = true ↔ ∃ placement : Placement, fromBytes bytes = .ok placement ∧ placement.nodeId = node := by
  unfold hostedOn
  split
  case h_1 placement decoded => simp [decoded]
  case h_2 failure decoded => simp [decoded]

def Filed (keyspace : Keyspace) (key bytes : Bytes) : Prop :=
  match keyspace with
  | .activeDelegations =>
    ∀ record : DelegationRecord, fromBytes bytes = .ok record → key = compositeDelegationKey record.nodeId record.delegationId
  | .placements => ∀ placement : Placement, fromBytes bytes = .ok placement → key = asBytes placement.podId
  | _ => True

def DelegationsFiled (disk : Disk) : Prop :=
  ∀ key bytes : Bytes, (disk .activeDelegations)[key]? = some bytes → Filed .activeDelegations key bytes

def PlacementsFiled (disk : Disk) : Prop :=
  ∀ key bytes : Bytes, (disk .placements)[key]? = some bytes → Filed .placements key bytes

/-- As `Filed`, and the length bytes of a delegation's key give the length of its node id. -/
def KeyAgrees (keyspace : Keyspace) (key bytes : Bytes) : Prop :=
  Filed keyspace key bytes ∧ (keyspace = .activeDelegations → ∀ record : DelegationRecord, fromBytes bytes = .ok record →
    nodePrefixLen key = some (nodeDelegationPrefix record.nodeId).length)

theorem filed_of_agree (agree : Every KeyAgrees disk) : Every Filed disk :=
  fun keyspace key bytes stored => (agree keyspace key bytes stored).1

def inRange (node : SpiffeId) (key bytes : Bytes) : Bool :=
  (nodeDelegationPrefix node).isPrefixOf key && (fromBytes (α := DelegationRecord) bytes).isOk

theorem inRange_eq_issuedTo (agree : Every KeyAgrees disk)
    (short : (asBytes (display node)).length < 65536)
    (stored : (disk .activeDelegations)[key]? = some bytes) :
    inRange node key bytes = issuedTo node bytes := by
  unfold inRange issuedTo
  cases decoded : fromBytes (α := DelegationRecord) bytes with
  | error failure => simp [Except.isOk,Except.toBool]
  | ok record =>
    have own : nodeDelegationPrefix record.nodeId <+: key := by
      rw [(agree _ _ _ stored).1 record decoded]
      exact List.prefix_append _ _
    have same : nodeDelegationPrefix node <+: key ↔ record.nodeId = node := by
      constructor
      · intro under
        exact owner_of_range short under own ((agree _ _ _ stored).2 rfl record decoded)
      · rintro rfl
        exact own
    simp only [Except.isOk,Except.toBool,Bool.and_true]
    rw [Bool.eq_iff_iff,List.isPrefixOf_iff_prefix,decide_eq_true_iff]
    exact same

theorem revokeDelegationsOf_eq_moves (filed : DelegationsFiled disk) (node : SpiffeId) :
    revokeDelegationsOf disk node = moves disk .activeDelegations .revokedDelegations (inRange node) := by
  unfold revokeDelegationsOf moves
  have stored : ∀ entry ∈ (disk .activeDelegations).toList, (disk .activeDelegations)[entry.1]? = some entry.2 :=
    fun entry member => Std.ExtTreeMap.mem_toList_iff_getElem?_eq_some.mp member
  -- entry by entry: what does not decode is skipped, what decodes is moved under the key it has
  generalize (disk .activeDelegations).toList = entries at stored ⊢
  induction entries with
  | nil => rfl
  | cons entry entries ih =>
    have rest := ih fun later member => stored later (mem_cons_of_mem _ member)
    have found := stored entry mem_cons_self
    cases decoded : fromBytes (α := DelegationRecord) entry.2 with
    | error failure =>
      have skipped : inRange node entry.1 entry.2 = false := by simp [inRange,decoded,Except.isOk,Except.toBool]
      cases under : (nodeDelegationPrefix node).isPrefixOf entry.1 <;>
        simpa [under,skipped,decoded] using rest
    | ok record =>
      have ranged : inRange node entry.1 entry.2 = (nodeDelegationPrefix node).isPrefixOf entry.1 := by
        simp [inRange,decoded,Except.isOk,Except.toBool]
      have key := filed _ _ found record decoded
      cases under : (nodeDelegationPrefix node).isPrefixOf entry.1 with
      | false => simpa [under,ranged] using rest
      | true => simpa [under,ranged,decoded,← key] using rest

theorem mem_podKeys (filed : PlacementsFiled disk) (chosen : Placement → Bool) (key : Bytes) :
    key ∈ ((scanRecords Placement disk .placements).filter chosen).map (fun placement => asBytes placement.podId) ↔
      ∃ bytes, (disk .placements)[key]? = some bytes ∧
        ∃ placement : Placement, fromBytes bytes = .ok placement ∧ chosen placement = true := by
  simp only [mem_map,mem_filter,mem_scanRecords]
  constructor
  · rintro ⟨placement,⟨⟨stored,bytes,found,decoded⟩,hit⟩,rfl⟩
    have key := filed _ _ found placement decoded
    exact ⟨bytes,key ▸ found,placement,decoded,hit⟩
  · rintro ⟨bytes,found,placement,decoded,hit⟩
    exact ⟨placement,⟨⟨key,bytes,found,decoded⟩,hit⟩,(filed _ _ found placement decoded).symm⟩

def hostedKeys (disk : Disk) (node : SpiffeId) : List Bytes :=
  ((scanRecords Placement disk .placements).filter fun placement => placement.nodeId = node).map
    fun placement => asBytes placement.podId

theorem mem_hostedKeys (filed : PlacementsFiled disk) (node : SpiffeId) (key : Bytes) :
    key ∈ hostedKeys disk node ↔ ∃ bytes, (disk .placements)[key]? = some bytes ∧ hostedOn node bytes = true := by
  rw [hostedKeys,mem_podKeys filed]
  simp only [hostedOn_iff,decide_eq_true_eq]

def evictedRecord (nodeId : String) (record : Option NodeRecord) : NodeRecord :=
  { record.getD (blankNode nodeId .evicted false) with status := .evicted, schedulable := false }

def evictionWrites (disk : Disk) (node : SpiffeId) (nodeId : String) (record : Option NodeRecord) (expires : Int64) :
    List Write :=
  [put .nodes (asBytes nodeId) (evictedRecord nodeId record)] ++
    moves disk .activeDelegations .revokedDelegations (inRange node) ++
    (hostedKeys disk node).map (.remove .placements) ++
    [put .revokedSvids (asBytes nodeId) (⟨nodeId,expires⟩ : RevokedSvidRecord)]

/-- What the other commands about a node keep of its record. -/
def RewritesNode (disk : Disk) (nodeId : String) (record : NodeRecord) : Prop :=
  ∃ found, readRecord NodeRecord disk .nodes (asBytes nodeId) = .ok found ∧ match found with
    | none => record.nodeId = nodeId ∧ record.status ≠ .evicted
    | some old => record.nodeId = old.nodeId ∧ (record.status = .evicted ↔ old.status = .evicted) ∧
      record.capacityCpuMillicores = old.capacityCpuMillicores ∧ record.capacityMemoryBytes = old.capacityMemoryBytes

theorem setNodeSchedulable_ok {schedulable : Bool} (ok : setNodeSchedulable disk nodeId schedulable = .ok (writes,kind)) :
    ∃ record, writes = [put .nodes (asBytes nodeId) record] ∧ record.schedulable = schedulable ∧
      RewritesNode disk nodeId record := by
  obtain ⟨found,read,ok⟩ := bind_ok ok
  cases found with
  | none =>
    cases ok
    exact ⟨_,rfl,rfl,none,read,rfl,by cases schedulable <;> simp [blankNode]⟩
  | some old =>
    cases ok
    refine ⟨_,rfl,rfl,some old,read,rfl,?_,rfl,rfl⟩
    -- uncordoning only lifts a cordon
    by_cases lifted : (schedulable && decide (old.status = .cordoned)) = true
    · simp_all
    · simp [lifted]

theorem nodeHeartbeat_ok {lastHeartbeat : Int64} (ok : nodeHeartbeat disk nodeId lastHeartbeat = .ok (writes,kind)) :
    writes = [] ∨ ∃ record, writes = [put .nodes (asBytes nodeId) record] ∧ RewritesNode disk nodeId record := by
  obtain ⟨found,read,ok⟩ := bind_ok ok
  cases found with
  | none =>
    cases ok
    exact .inl rfl
  | some old =>
    cases ok
    exact .inr ⟨_,rfl,some old,read,rfl,.rfl,rfl,rfl⟩

section
variable (ok : applyCommand disk (.evictNode nodeId expires) = .ok (writes,kind))
include ok

theorem evictNode_writes : ∃ found middle, readRecord NodeRecord disk .nodes (asBytes nodeId) = .ok found ∧
    writes = put .nodes (asBytes nodeId) (evictedRecord nodeId found) ::
      (middle ++ [put .revokedSvids (asBytes nodeId) (⟨nodeId,expires⟩ : RevokedSvidRecord)]) ∧
    ∀ write ∈ middle, (∃ key, write = .remove .placements key) ∨ write.table = .activeDelegations ∨
      write.table = .revokedDelegations := by
  obtain ⟨node,_,ok⟩ := bind_ok ok
  obtain ⟨found,read,ok⟩ := bind_ok ok
  refine ⟨found,revokeDelegationsOf disk node ++ ((scanRecords Placement disk .placements).filter fun placement =>
    placement.nodeId = node).map fun placement => .remove .placements (asBytes placement.podId),read,?_,?_⟩
  · cases found <;> cases ok <;> simp [evictedRecord,blankNode]
  · intro write member
    rcases mem_append.mp member with delegation | removed
    · obtain ⟨entry,_,made⟩ := mem_flatMap.mp delegation
      split at made
      · rcases mem_cons.mp made with rfl | last
        · exact .inr (.inl rfl)
        · rw [mem_singleton.mp last]
          exact .inr (.inr rfl)
      · cases made
    · obtain ⟨placement,_,rfl⟩ := mem_map.mp removed
      exact .inl ⟨_,rfl⟩

theorem evictNode_nodes : ∃ found, readRecord NodeRecord disk .nodes (asBytes nodeId) = .ok found ∧
      commit disk writes .nodes = (disk .nodes).insert (asBytes nodeId) (toAllocvec (evictedRecord nodeId found)) := by
  obtain ⟨found,middle,read,rfl,moved⟩ := evictNode_writes ok
  refine ⟨found,read,?_⟩
  rw [commit_cons,commit_append,commit_frame _ [_] _ (by simp),commit_frame]
  · rfl
  · intro write member
    rcases moved write member with ⟨_,rfl⟩ | table | table <;> simp [*]

theorem evictNode_revokes : commit disk writes .revokedSvids =
      (disk .revokedSvids).insert (asBytes nodeId) (toAllocvec (⟨nodeId,expires⟩ : RevokedSvidRecord)) := by
  obtain ⟨found,middle,_,rfl,moved⟩ := evictNode_writes ok
  rw [commit_cons,commit_append,commit_cons,commit_nil]
  refine (perform_same _ (put .revokedSvids _ _)).trans ?_
  rw [put_table,commit_frame]
  · rfl
  · intro write member
    rcases moved write member with ⟨_,rfl⟩ | table | table <;> simp [*]

end

theorem evictNode_eq (filed : DelegationsFiled disk) (parsed : parse nodeId = .ok node)
    (stored : readRecord NodeRecord disk .nodes (asBytes nodeId) = .ok record) (expires : Int64) :
    applyCommand disk (.evictNode nodeId expires) = .ok (evictionWrites disk node nodeId record expires,.eviction) := by
  have accepted : parseSpiffe nodeId = .ok node := by simp [parseSpiffe,parsed,Except.mapError]
  unfold applyCommand evictNode
  simp only [accepted,stored,revokeDelegationsOf_eq_moves filed,Bind.bind,Except.bind]
  cases record <;> simp [evictionWrites,evictedRecord,hostedKeys,blankNode,Pure.pure,Except.pure,Function.comp_def]

theorem evictNode_ok (filed : DelegationsFiled disk)
    (ok : applyCommand disk (.evictNode nodeId expires) = .ok (writes,kind)) :
    ∃ node record, parse nodeId = .ok node ∧ writes = evictionWrites disk node nodeId record expires := by
  obtain ⟨node,accepted,rest⟩ := bind_ok ok
  obtain ⟨record,read,_⟩ := bind_ok rest
  have parsed := mapError_ok.mp accepted
  have applied := evictNode_eq filed parsed read expires
  cases applied.symm.trans ok
  exact ⟨node,record,parsed,rfl⟩

section
variable (disk : Disk) (node : SpiffeId) (nodeId : String) (record : Option NodeRecord) (expires : Int64)

theorem evictionWrites_active (key : Bytes) :
    (commit disk (evictionWrites disk node nodeId record expires) .activeDelegations)[key]? =
      (disk .activeDelegations)[key]?.filter fun bytes => !inRange node key bytes := by
  rw [evictionWrites,List.append_assoc,commit_between _ _ _ _ _ (by simp) (by simp [or_imp,forall_and])]
  exact commit_moves_source disk (inRange node) (by decide) key

theorem evictionWrites_revoked (key : Bytes) :
    (commit disk (evictionWrites disk node nodeId record expires) .revokedDelegations)[key]? =
      ((disk .activeDelegations)[key]?.filter (inRange node key)).or (disk .revokedDelegations)[key]? := by
  rw [evictionWrites,List.append_assoc,commit_between _ _ _ _ _ (by simp) (by simp [or_imp,forall_and])]
  exact commit_moves_target disk (inRange node) (by decide) key

theorem evictionWrites_placements (filed : PlacementsFiled disk) (key : Bytes) :
    (commit disk (evictionWrites disk node nodeId record expires) .placements)[key]? =
      (disk .placements)[key]?.filter fun bytes => !hostedOn node bytes := by
  have earlier : ∀ write ∈ moves disk .activeDelegations .revokedDelegations (inRange node), write.table ≠ .placements := by
    intro write member
    rcases moves_table disk (inRange node) write member with named | named <;> simp [named]
  rw [evictionWrites,commit_between _ _ _ _ _ (by simpa using earlier) (by simp),commit_removes]
  simp only [mem_hostedKeys filed]
  cases found : (disk .placements)[key]? with
  | none => simp
  | some bytes => cases hosted : hostedOn node bytes <;> simp [hosted,Option.filter]

end

theorem evict_filed (filed : Every Filed disk) (ok : applyCommand disk (.evictNode nodeId expires) = .ok (writes,kind)) :
    Every Filed (commit disk writes) := by
  obtain ⟨node,record,_,rfl⟩ := evictNode_ok (filed .activeDelegations) ok
  intro keyspace key bytes stored
  cases keyspace
  case placements =>
    rw [evictionWrites_placements disk node nodeId record expires (filed .placements)] at stored
    exact filed _ _ _ (Option.filter_eq_some_iff.mp stored).1
  case activeDelegations =>
    rw [evictionWrites_active] at stored
    exact filed _ _ _ (Option.filter_eq_some_iff.mp stored).1
  all_goals trivial

/-- Delegations are revoked as they were, placements gone, the record marked and the SVID revoked. -/
structure Evicts (before : Disk) (node : SpiffeId) (nodeId : String) (record : Option NodeRecord) (expires : Int64)
    (after : Disk) : Prop where
  active : ∀ key : Bytes, (after .activeDelegations)[key]? =
    (before .activeDelegations)[key]?.filter fun bytes => !issuedTo node bytes
  revoked : ∀ key : Bytes, (after .revokedDelegations)[key]? =
    ((before .activeDelegations)[key]?.filter (issuedTo node)).or (before .revokedDelegations)[key]?
  placements : ∀ key : Bytes, (after .placements)[key]? =
    (before .placements)[key]?.filter fun bytes => !hostedOn node bytes
  nodes : after .nodes = (before .nodes).insert (asBytes nodeId) (toAllocvec (evictedRecord nodeId record))
  revokedSvids : after .revokedSvids =
    (before .revokedSvids).insert (asBytes nodeId) (toAllocvec (⟨nodeId,expires⟩ : RevokedSvidRecord))
  frame : ∀ keyspace : Keyspace, keyspace ≠ .activeDelegations → keyspace ≠ .revokedDelegations →
    keyspace ≠ .placements → keyspace ≠ .nodes → keyspace ≠ .revokedSvids → after keyspace = before keyspace

theorem evict_node_effect {disk : Disk} (agree : Every KeyAgrees disk) {node : SpiffeId} {nodeId : String}
    (parsed : parse nodeId = .ok node) (short : (asBytes (display node)).length < 65536)
    {record : Option NodeRecord} (stored : readRecord NodeRecord disk .nodes (asBytes nodeId) = .ok record)
    (expires : Int64) : ∃ writes, applyCommand disk (.evictNode nodeId expires) = .ok (writes,.eviction) ∧
      Evicts disk node nodeId record expires (commit disk writes) := by
  have applied := evictNode_eq (filed_of_agree agree .activeDelegations) parsed stored expires
  refine ⟨_,applied,?_,?_,?_,?_,?_,?_⟩
  · intro key
    rw [evictionWrites_active]
    cases found : (disk .activeDelegations)[key]? with
    | none => rfl
    | some bytes => simp [Option.filter,inRange_eq_issuedTo agree short found]
  · intro key
    rw [evictionWrites_revoked]
    cases found : (disk .activeDelegations)[key]? with
    | none => rfl
    | some bytes => simp [Option.filter,inRange_eq_issuedTo agree short found]
  · exact evictionWrites_placements disk node nodeId record expires (filed_of_agree agree .placements)
  · obtain ⟨found,read,nodes⟩ := evictNode_nodes applied
    cases stored.symm.trans read
    exact nodes
  · exact evictNode_revokes applied
  · intro keyspace active revoked placements nodes revokedSvids
    apply applyCommand_frame applied
    simp [touches,active,revoked,placements,nodes,revokedSvids]

end

section
open Reference

def hostId : SpiffeId := ⟨"spiffe://data.example.internal/ns/system/node/host-1",by decide⟩

def neighbourId : SpiffeId := ⟨"spiffe://data.example.internal/ns/system/node/host-10",by decide⟩

def shopId : SpiffeId := ⟨"spiffe://data.example.internal/ns/acme/sa/shop",by decide⟩

def shopOn (podId : String) (node : SpiffeId) : Placement := ⟨podId,"acme","shop","web",0,node,⟨500,268435456⟩⟩

def shopDelegation (node : SpiffeId) : DelegationRecord :=
  ⟨"del-1",node,shopId,some 0,1700000000,1700014400,1700007200⟩

def hostedDisk : Disk := commit Disk.empty
  [put .placements (asBytes "pod-1") (shopOn "pod-1" hostId),
    put .placements (asBytes "pod-2") (shopOn "pod-2" neighbourId),
    put .activeDelegations (compositeDelegationKey hostId "del-1") (shopDelegation hostId),
    put .activeDelegations (compositeDelegationKey neighbourId "del-1") (shopDelegation neighbourId)]

theorem hostedDisk_agrees : Every KeyAgrees hostedDisk := by
  apply commit_every (every_empty KeyAgrees)
  simp only [mem_cons,not_mem_nil,or_false,forall_eq_or_imp,forall_eq,put,Write.Keeps,KeyAgrees,Filed,
    fromBytes_iff,reduceCtorEq,false_implies,and_true]
  refine ⟨?_,?_,⟨?_,?_⟩,⟨?_,?_⟩⟩
  case refine_4 =>
    rintro _ _ rfl
    decide +kernel
  case refine_6 =>
    rintro _ _ rfl
    decide +kernel
  all_goals
    rintro _ rfl
    rfl

theorem evict_host_effect : ∃ writes, applyCommand hostedDisk (.evictNode hostId.1 1700086400) = .ok (writes,.eviction) ∧
    Evicts hostedDisk hostId hostId.1 none 1700086400 (commit hostedDisk writes) :=
  evict_node_effect hostedDisk_agrees rfl (by decide +kernel) rfl 1700086400

end

variable [FleetosCore] [Formats] {disk : Disk} {nodeId : String} {expires : Int64} {writes : List Write}
  {kind : ChangeKind} {before after : Node} {entry : Entry}

def RevokedAs (disk : Disk) (spiffeId : String) (record : RevokedSvidRecord) : Prop :=
  ∃ bytes, (disk .revokedSvids)[asBytes spiffeId]? = some bytes ∧ fromBytes bytes = .ok record

def RevokedFiled (disk : Disk) : Prop :=
  ∀ (key bytes : Bytes) (record : RevokedSvidRecord), (disk .revokedSvids)[key]? = some bytes →
    fromBytes bytes = .ok record → key = asBytes record.spiffeId

def PlacedOn (disk : Disk) (node : SpiffeId) : Prop :=
  ∃ placement ∈ scanRecords Placement disk .placements, placement.nodeId = node

def Entry.Evicts (entry : Entry) (nodeId : String) (expires : Int64) : Prop :=
  ∃ audited, entry.payload = .normal audited ∧ audited.cmd = .evictNode nodeId expires

def Entry.Prunes (entry : Entry) (cutoff : Int64) : Prop :=
  ∃ audited, entry.payload = .normal audited ∧ audited.cmd = .pruneExpiredRevokedSvids cutoff

def Entry.Places (entry : Entry) (record : Placement) : Prop :=
  ∃ audited, entry.payload = .normal audited ∧ audited.cmd = .commitPlacement record

theorem Advances.revokedSvids (advances : Advances before entry after) :
    (∃ nodeId expires, entry.Evicts nodeId expires ∧ after.disk .revokedSvids =
      (before.disk .revokedSvids).insert (asBytes nodeId) (toAllocvec (⟨nodeId,expires⟩ : RevokedSvidRecord))) ∨
    (∃ cutoff, entry.Prunes cutoff ∧ after.disk .revokedSvids =
      commit before.disk (pruneExpiredRevokedSvids before.disk cutoff) .revokedSvids) ∨
    after.disk .revokedSvids = before.disk .revokedSvids := by
  rcases advances.cases with ⟨audited,writes,kind,normal,ok,contents⟩ | ⟨_,same⟩
  case inr => exact .inr (.inr (same .revokedSvids rfl))
  have stored := contents .revokedSvids rfl
  cases command : audited.cmd <;> rw [command] at ok
  case evictNode nodeId expires =>
    exact .inl ⟨nodeId,expires,⟨audited,normal,command⟩,stored.trans (evictNode_revokes ok)⟩
  case pruneExpiredRevokedSvids cutoff =>
    cases ok
    exact .inr (.inl ⟨cutoff,⟨audited,normal,command⟩,stored⟩)
  all_goals
    exact .inr (.inr (stored.trans (applyCommand_frame ok .revokedSvids (by simp [touches]))))

theorem prune_lookup (disk : Disk) (cutoff : Int64) (key : Bytes) :
    (commit disk (pruneExpiredRevokedSvids disk cutoff) .revokedSvids)[key]? =
      if ∃ record ∈ scanRecords RevokedSvidRecord disk .revokedSvids,
          record.expiresAtUnix < cutoff ∧ asBytes record.spiffeId = key then none
      else (disk .revokedSvids)[key]? := by
  have removes := commit_removes disk Keyspace.revokedSvids
    (((scanRecords RevokedSvidRecord disk .revokedSvids).filter fun record => record.expiresAtUnix < cutoff).map
      fun record => asBytes record.spiffeId) key
  rw [List.map_map] at removes
  unfold pruneExpiredRevokedSvids
  refine removes.trans ?_
  congr 1
  simp [and_assoc]

theorem advances_revokedFiled (advances : Advances before entry after) (filed : RevokedFiled before.disk) :
    RevokedFiled after.disk := by
  intro key bytes record stored decoded
  rcases advances.revokedSvids with ⟨nodeId,expires,_,contents⟩ | ⟨cutoff,_,contents⟩ | contents
  · rw [contents] at stored
    rcases insert_eq_some.mp stored with ⟨rfl,rfl⟩ | ⟨_,kept⟩
    · rw [fromBytes_iff] at decoded
      rw [← decoded]
    · exact filed key bytes record kept decoded
  · rw [contents,prune_lookup] at stored
    split at stored
    · cases stored
    · exact filed key bytes record stored decoded
  · exact filed key bytes record (contents ▸ stored) decoded

theorem advances_revokedAs (advances : Advances before entry after) (filed : RevokedFiled before.disk)
    (revoked : RevokedAs before.disk spiffeId record) :
    RevokedAs after.disk spiffeId record ∨
      (∃ expires, entry.Evicts spiffeId expires ∧ RevokedAs after.disk spiffeId ⟨spiffeId,expires⟩) ∨
      ∃ cutoff, entry.Prunes cutoff ∧ record.expiresAtUnix < cutoff := by
  obtain ⟨bytes,stored,decoded⟩ := revoked
  rcases advances.revokedSvids with ⟨nodeId,expires,evicts,contents⟩ | ⟨cutoff,prunes,contents⟩ | contents
  · by_cases same : asBytes spiffeId = asBytes nodeId
    · obtain rfl := asBytes_injective same
      refine .inr (.inl ⟨expires,evicts,_,?_,fromBytes_toAllocvec _⟩)
      rw [contents]
      exact insert_eq_some.mpr (.inl ⟨rfl,rfl⟩)
    · refine .inl ⟨bytes,?_,decoded⟩
      rw [contents]
      exact insert_eq_some.mpr (.inr ⟨same,stored⟩)
  · by_cases expired : ∃ found ∈ scanRecords RevokedSvidRecord before.disk .revokedSvids,
        found.expiresAtUnix < cutoff ∧ asBytes found.spiffeId = asBytes spiffeId
    · obtain ⟨found,scanned,past,named⟩ := expired
      obtain ⟨key,other,kept,read⟩ := mem_scanRecords.mp scanned
      rw [filed key other found kept read,named,stored,Option.some.injEq] at kept
      rw [← kept,decoded,Except.ok.injEq] at read
      exact .inr (.inr ⟨cutoff,prunes,read ▸ past⟩)
    · refine .inl ⟨bytes,?_,decoded⟩
      rw [contents,prune_lookup,if_neg expired]
      exact stored
  · exact .inl ⟨bytes,contents ▸ stored,decoded⟩

theorem freePlacement_inserts_nothing {placements : List Placement}
    (freed : .insert .placements key bytes ∈ placements.flatMap (freePlacement tenantId workloadId)) : False := by
  obtain ⟨placement,_,inside⟩ := mem_flatMap.mp freed
  rcases mem_cons.mp inside with same | last
  · cases same
  · cases mem_singleton.mp last

variable [Merges] {key bytes : Bytes} {before after : Node} {entry : Entry}

def Entry.Proposable (entry : Entry) : Prop := ∀ audited, entry.payload = .normal audited → audited.cmd.Proposable

theorem placement_written {cmd : FleetosCommand} (proposable : cmd.Proposable)
    (ok : applyCommand disk cmd = .ok (writes,kind)) (inserted : .insert .placements key bytes ∈ writes) :
    (∃ record, cmd = .commitPlacement record ∧ key = asBytes record.podId ∧ bytes = toAllocvec record) ∨
      ∃ found newPodId, found ∈ scanRecords Placement disk .placements ∧
        cmd = .reassignPodId found.tenantId found.service found.role found.ordinal newPodId ∧
        key = asBytes newPodId ∧ bytes = toAllocvec { found with podId := newPodId } := by
  cases cmd
  case commitPlacement record =>
    cases ok
    obtain ⟨_,rfl,rfl⟩ := Write.insert.inj (mem_singleton.mp inserted)
    exact .inl ⟨record,rfl,rfl,rfl⟩
  case reassignPodId tenantId service role ordinal newPodId =>
    cases ok
    unfold reassignPodId at inserted
    simp only at inserted
    split at inserted
    case h_2 => cases inserted
    case h_1 found first =>
      simp only [mem_cons,not_mem_nil,or_false,reduceCtorEq,false_or,put,KeyValue.Write.insert.injEq,
        false_and] at inserted
      obtain ⟨_,rfl,rfl⟩ := inserted
      have slot := List.find?_some first
      simp only [Bool.and_eq_true,decide_eq_true_eq] at slot
      obtain ⟨⟨⟨rfl,rfl⟩,rfl⟩,rfl⟩ := slot
      exact .inr ⟨found,newPodId,List.mem_of_find?_eq_some first,rfl,rfl,rfl⟩
  case applyManifests updates =>
    cases ok
    have kept := applyManifests_table proposable inserted
    simp at kept
  case evictNode nodeId expires =>
    obtain ⟨found,middle,_,rfl,moved⟩ := evictNode_writes ok
    rcases mem_cons.mp inserted with same | later
    · cases same
    · rcases mem_append.mp later with inside | last
      · rcases moved _ inside with ⟨_,same⟩ | table | table
        · cases same
        · cases table
        · cases table
      · cases mem_singleton.mp last
  case deleteWorkload tenantId workloadId =>
    cases ok
    rcases mem_cons.mp inserted with same | freed
    · cases same
    · exact (freePlacement_inserts_nothing freed).elim
  case scaleWorkload record =>
    cases ok
    rcases mem_cons.mp inserted with same | freed
    · cases same
    · exact (freePlacement_inserts_nothing freed).elim
  case removePlacement =>
    cases ok
    cases mem_singleton.mp inserted
  all_goals
    have table := applyCommand_within _ _ _ _ ok _ inserted
    simp [touches] at table

theorem Advances.placement (advances : Advances before entry after) (proposable : entry.Proposable) {placement}
    (stored : (after.disk .placements)[key]? = some bytes) (decoded : fromBytes bytes = .ok placement) :
    (before.disk .placements)[key]? = some bytes ∨ ∃ audited, entry.payload = .normal audited ∧
      key = asBytes placement.podId ∧ (audited.cmd = .commitPlacement placement ∨
        ∃ found ∈ scanRecords Placement before.disk .placements, placement = { found with podId := placement.podId } ∧
          audited.cmd = .reassignPodId found.tenantId found.service found.role found.ordinal placement.podId) := by
  rcases advances.cases with ⟨audited,writes,kind,normal,ok,contents⟩ | ⟨_,same⟩
  case inr =>
    rw [same .placements rfl] at stored
    exact .inl stored
  rw [contents .placements rfl] at stored
  rcases commit_found stored with earlier | inserted
  · exact .inl earlier
  · refine .inr ⟨audited,normal,?_⟩
    rcases placement_written (proposable audited normal) ok inserted with
      ⟨record,named,rfl,rfl⟩ | ⟨found,newPodId,listed,named,rfl,rfl⟩
    · rw [fromBytes_iff] at decoded
      subst decoded
      exact ⟨rfl,.inl named⟩
    · rw [fromBytes_iff] at decoded
      subst decoded
      exact ⟨rfl,.inr ⟨found,listed,rfl,named⟩⟩

theorem advances_placedOn (advances : Advances before entry after) (proposable : entry.Proposable) {node}
    (placed : PlacedOn after.disk node) :
    PlacedOn before.disk node ∨ ∃ record, entry.Places record ∧ record.nodeId = node := by
  obtain ⟨placement,scanned,rfl⟩ := placed
  obtain ⟨key,bytes,stored,decoded⟩ := mem_scanRecords.mp scanned
  rcases advances.placement proposable stored decoded with earlier | ⟨audited,normal,_,placed | ⟨found,listed,same,_⟩⟩
  · exact .inl ⟨placement,mem_scanRecords.mpr ⟨key,bytes,earlier,decoded⟩,rfl⟩
  · exact .inr ⟨placement,⟨audited,normal,placed⟩,rfl⟩
  · exact .inl ⟨found,listed,by rw [same]⟩

end FleetosControl
