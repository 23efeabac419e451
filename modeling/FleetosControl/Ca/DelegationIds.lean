import FleetosControl.Ca.KeyContents
import FleetosControl.Controllers.PodIds

/-! The names of delegations: the node, the workload, the ordinal and the second of issue. Of keys
that agree in all of them, the later replaces the earlier. -/
namespace FleetosControl
open Wire KeyValue Trace Std

def BarFree (text : String) : Prop := '|' ∉ text.toList

instance (text : String) : Decidable (BarFree text) := inferInstanceAs (Decidable ('|' ∉ text.toList))

def ordinalText (ordinal : Option UInt32) : String := (ordinal.map toString).getD "none"

theorem ordinalText_barFree (ordinal : Option UInt32) : BarFree (ordinalText ordinal) := by
  cases ordinal with
  | none => decide
  | some value => exact Separated.not_mem_repr (by decide) value.toNat

theorem ordinalText_inj (same : ordinalText left = ordinalText right) : left = right := by
  have numbered (value : UInt32) : ordinalText (some value) ≠ "none" := by
    intro named
    have letter : 'n' ∉ (ordinalText (some value)).toList := Separated.not_mem_repr (by decide) value.toNat
    rw [named] at letter
    exact letter (by decide)
  cases left with
  | none =>
    cases right with
    | none => rfl
    | some value => exact (numbered value same.symm).elim
  | some value =>
    cases right with
    | none => exact (numbered value same).elim
    | some other => exact congrArg some (toString_ordinal_inj.mp same)

def issueText (target : String) (ordinal : Option UInt32) (issuedAt : Int64) : List Char :=
  target.toList ++ '|'::((ordinalText ordinal).toList ++ '|'::(toString issuedAt).toList)

theorem computeDelegationId_toList (nodeId target : String) (ordinal : Option UInt32) (issuedAt : Int64) :
    (computeDelegationId nodeId target ordinal issuedAt).toList = nodeId.toList ++ '|'::issueText target ordinal issuedAt := by
  simp [computeDelegationId,issueText,ordinalText,String.toList_append]

section
variable {node other target workload : String} {ordinal index : Option UInt32} {issuedAt second : Int64}

theorem issueText_inj (plain : BarFree target) (free : BarFree workload)
    (same : issueText target ordinal issuedAt = issueText workload index second) :
    target = workload ∧ ordinal = index ∧ issuedAt = second := by
  obtain ⟨targets,rest⟩ := (Separated.join_inj_first plain free).mp same
  obtain ⟨ordinals,times⟩ :=
    (Separated.join_inj_first (ordinalText_barFree ordinal) (ordinalText_barFree index)).mp rest
  refine ⟨String.toList_inj.mp targets,ordinalText_inj (String.toList_inj.mp ordinals),?_⟩
  exact Int64.toInt.inj (Separated.toString_int_inj.mp (String.toList_inj.mp times))

theorem computeDelegationId_inj (nodes : BarFree node) (others : BarFree other) (targets : BarFree target)
    (workloads : BarFree workload)
    (same : computeDelegationId node target ordinal issuedAt = computeDelegationId other workload index second) :
    node = other ∧ target = workload ∧ ordinal = index ∧ issuedAt = second := by
  have texts := congrArg String.toList same
  rw [computeDelegationId_toList,computeDelegationId_toList] at texts
  obtain ⟨names,rest⟩ := (Separated.join_inj_first nodes others).mp texts
  exact ⟨String.toList_inj.mp names,issueText_inj targets workloads rest⟩

end

section
variable [FleetosCore]

/-- A key that was handed out: the record proposed for it, and the second in its name. -/
structure Issuance where
  record : DelegationRecord
  issuedAt : Int64

namespace Issuance

def key (issuance : Issuance) : Bytes := compositeDelegationKey issuance.record.nodeId issuance.record.delegationId

structure Named (issuance : Issuance) : Prop where
  named : issuance.record.delegationId = computeDelegationId (display issuance.record.nodeId)
    (display issuance.record.targetSvidId) issuance.record.targetOrdinal issuance.issuedAt

structure Plain (issuance : Issuance) : Prop where
  node : BarFree (display issuance.record.nodeId)
  target : BarFree (display issuance.record.targetSvidId)

def Apart (first second : Issuance) : Prop :=
  ¬(first.record.nodeId = second.record.nodeId ∧ first.record.targetSvidId = second.record.targetSvidId ∧
    first.record.targetOrdinal = second.record.targetOrdinal ∧ first.issuedAt = second.issuedAt)

end Issuance

theorem display_inj (same : display left = display right) : left = right := by
  have parsed := congrArg parse same
  simpa using parsed

section
variable {first second : Issuance} (named : first.Named) (renamed : second.Named)
include named renamed

theorem delegationId_of_together (together : ¬first.Apart second) :
    first.record.delegationId = second.record.delegationId := by
  obtain ⟨nodes,targets,ordinals,seconds⟩ := not_not.mp together
  rw [named.named,renamed.named,nodes,targets,ordinals,seconds]

variable (plain : first.Plain) (free : second.Plain)
include plain free

theorem delegationId_apart (apart : first.Apart second) : first.record.delegationId ≠ second.record.delegationId := by
  intro same
  rw [named.named,renamed.named] at same
  obtain ⟨nodes,targets,ordinals,seconds⟩ :=
    computeDelegationId_inj plain.node free.node plain.target free.target same
  exact apart ⟨display_inj nodes,display_inj targets,ordinals,seconds⟩

/-- Both ids start with the name of their node, so that a key shows that name twice before its first bar. -/
theorem key_apart (apart : first.Apart second) : first.key ≠ second.key := by
  intro same
  have texts : (display first.record.nodeId ++ first.record.delegationId).toList =
      (display second.record.nodeId ++ second.record.delegationId).toList := by
    rw [Issuance.key,Issuance.key,compositeDelegationKey,compositeDelegationKey,nodeDelegationPrefix,nodeDelegationPrefix,
      List.append_assoc,List.append_assoc] at same
    have tails := List.append_inj_right same (by simp)
    rw [← asBytes_append,← asBytes_append] at tails
    exact congrArg String.toList (asBytes_injective tails)
  rw [named.named,renamed.named,String.toList_append,String.toList_append,computeDelegationId_toList,
    computeDelegationId_toList,← List.append_assoc,← List.append_assoc] at texts
  have twice : ∀ {text : List Char}, '|' ∉ text → '|' ∉ text ++ text := by simp
  obtain ⟨doubled,rest⟩ := (Separated.join_inj_first (twice plain.node) (twice free.node)).mp texts
  have lengths := congrArg List.length doubled
  rw [List.length_append,List.length_append] at lengths
  have names := List.append_inj_left doubled (by omega)
  obtain ⟨targets,ordinals,seconds⟩ := issueText_inj plain.target free.target rest
  exact apart ⟨display_inj (String.toList_inj.mp names),display_inj targets,ordinals,seconds⟩

end

variable [Formats]

structure RecordsKept (past : List Issuance) (disk : Disk) : Prop where
  stored : ∀ issuance ∈ past, (disk .activeDelegations)[issuance.key]? = some (toAllocvec issuance.record) ∨
    (disk .revokedDelegations)[issuance.key]? = some (toAllocvec issuance.record)
  origin : ∀ key bytes : Bytes,
    (disk .activeDelegations)[key]? = some bytes ∨ (disk .revokedDelegations)[key]? = some bytes →
      ∃ issuance ∈ past, key = issuance.key ∧ bytes = toAllocvec issuance.record

/-- Some of the active delegations are revoked, under the keys and with the values they had. -/
structure Revokes (before after : Disk) (chosen : Bytes → Bytes → Bool) : Prop where
  active : ∀ key : Bytes, (after .activeDelegations)[key]? =
    (before .activeDelegations)[key]?.filter fun bytes => !chosen key bytes
  revoked : ∀ key : Bytes, (after .revokedDelegations)[key]? =
    ((before .activeDelegations)[key]?.filter (chosen key)).or (before .revokedDelegations)[key]?

theorem revokes_nothing (active : after .activeDelegations = before .activeDelegations)
    (revoked : after .revokedDelegations = before .revokedDelegations) : Revokes before after fun _ _ => false := by
  refine ⟨fun key => ?_,fun key => ?_⟩
  · rw [active]
    cases (before .activeDelegations)[key]? <;> rfl
  · rw [revoked]
    cases (before .activeDelegations)[key]? <;> rfl

section
variable {past : List Issuance} {before after : Disk}

theorem RecordsKept.filed (kept : RecordsKept past before) : DelegationsFiled before := by
  intro key bytes stored record decoded
  obtain ⟨issuance,_,rfl,rfl⟩ := kept.origin key bytes (.inl stored)
  rw [fromBytes_iff] at decoded
  rw [← decoded]
  rfl

theorem recordsKept_revokes (kept : RecordsKept past before) (distinct : (past.map Issuance.key).Nodup)
    {chosen : Bytes → Bytes → Bool} (revokes : Revokes before after chosen) : RecordsKept past after := by
  refine ⟨?_,?_⟩
  · intro issuance member
    cases active : (before .activeDelegations)[issuance.key]? with
    | none =>
      have already : (before .revokedDelegations)[issuance.key]? = some (toAllocvec issuance.record) := by
        simpa [active] using kept.stored issuance member
      exact .inr (by rw [revokes.revoked,active,already]; rfl)
    | some bytes =>
      -- the key has one issuance, so that what is active under it is its record
      obtain ⟨other,earlier,same,rfl⟩ := kept.origin _ _ (.inl active)
      obtain rfl := List.inj_on_of_nodup_map distinct member earlier same
      cases taken : chosen issuance.key (toAllocvec issuance.record) with
      | false => exact .inl (by rw [revokes.active,active]; simp [Option.filter,taken])
      | true => exact .inr (by rw [revokes.revoked,active]; simp [Option.filter,taken])
  · intro key bytes found
    refine kept.origin key bytes ?_
    rw [revokes.active,revokes.revoked,Option.or_eq_some_iff,Option.filter_eq_some_iff,Option.filter_eq_some_iff] at found
    rcases found with ⟨active,_⟩ | ⟨active,_⟩ | ⟨_,revoked⟩
    · exact .inl active
    · exact .inl active
    · exact .inr revoked

theorem recordsKept_issued (kept : RecordsKept past before) {issuance : Issuance}
    (fresh : ∀ earlier ∈ past, earlier.key ≠ issuance.key)
    (active : after .activeDelegations = (before .activeDelegations).insert issuance.key (toAllocvec issuance.record))
    (revoked : after .revokedDelegations = before .revokedDelegations) : RecordsKept (past ++ [issuance]) after := by
  refine ⟨?_,?_⟩
  · intro stored member
    rw [active,revoked]
    rcases mem_append.mp member with earlier | new
    · rcases kept.stored stored earlier with found | found
      · exact .inl (insert_eq_some.mpr (.inr ⟨fresh stored earlier,found⟩))
      · exact .inr found
    · obtain rfl := mem_singleton.mp new
      exact .inl (insert_eq_some.mpr (.inl ⟨rfl,rfl⟩))
  · intro key bytes found
    rw [active,revoked,insert_eq_some] at found
    rcases found with (⟨own,value⟩ | ⟨_,earlier⟩) | earlier
    · exact ⟨issuance,mem_append_right _ (mem_singleton_self _),own,value.symm⟩
    · obtain ⟨origin,member,facts⟩ := kept.origin key bytes (.inl earlier)
      exact ⟨origin,mem_append_left _ member,facts⟩
    · obtain ⟨origin,member,facts⟩ := kept.origin key bytes (.inr earlier)
      exact ⟨origin,mem_append_left _ member,facts⟩

end

theorem revokeDelegation_revokes (ok : revokeDelegation disk nodeId delegationId = .ok (writes,kind)) :
    ∃ chosen, Revokes disk (commit disk writes) chosen := by
  obtain ⟨node,_,ok⟩ := bind_ok ok
  simp only at ok
  split at ok
  case h_2 =>
    cases ok
    exact ⟨_,revokes_nothing rfl rfl⟩
  case h_1 bytes stored =>
    cases ok
    refine ⟨fun key _ => key = compositeDelegationKey node delegationId,fun key => ?_,fun key => ?_⟩
    · rw [commit_cons,commit_cons,commit_nil]
      change ((disk .activeDelegations).erase _)[key]? = _
      by_cases same : key = compositeDelegationKey node delegationId
      · subst same
        simp [stored,Option.filter]
      · have apart : ¬compare (compositeDelegationKey node delegationId) key = .eq :=
          fun equal => same (LawfulEqCmp.eq_of_compare equal).symm
        rw [ExtTreeMap.getElem?_erase,if_neg apart]
        cases (disk .activeDelegations)[key]? <;> simp [Option.filter,same]
    · rw [commit_cons,commit_cons,commit_nil]
      change ((disk .revokedDelegations).insert _ bytes)[key]? = _
      by_cases same : key = compositeDelegationKey node delegationId
      · subst same
        simp [stored,Option.filter]
      · have apart : ¬compare (compositeDelegationKey node delegationId) key = .eq :=
          fun equal => same (LawfulEqCmp.eq_of_compare equal).symm
        simp [ExtTreeMap.getElem?_insert,apart,same]

theorem Advances.revokes (advances : Advances before entry after)
    (other : ∀ audited, entry.payload = .normal audited → ∀ record, audited.cmd ≠ .issueDelegation record)
    (filed : DelegationsFiled before.disk) : ∃ chosen, Revokes before.disk after.disk chosen := by
  rcases advances.cases with ⟨audited,writes,kind,normal,ok,contents⟩ | ⟨_,same⟩
  case inr => exact ⟨_,revokes_nothing (same .activeDelegations rfl) (same .revokedDelegations rfl)⟩
  have active := contents .activeDelegations rfl
  have revoked := contents .revokedDelegations rfl
  suffices moved : ∃ chosen, Revokes before.disk (commit before.disk writes) chosen by
    obtain ⟨chosen,holds⟩ := moved
    exact ⟨chosen,fun key => active ▸ holds.active key,fun key => revoked ▸ holds.revoked key⟩
  cases command : audited.cmd <;> rw [command] at ok
  case issueDelegation record => exact (other audited normal record command).elim
  case revokeDelegation => exact revokeDelegation_revokes ok
  case evictNode =>
    obtain ⟨node,record,_,rfl⟩ := evictNode_ok filed ok
    exact ⟨_,fun key => evictionWrites_active _ _ _ _ _ key,fun key => evictionWrites_revoked _ _ _ _ _ key⟩
  all_goals
    exact ⟨_,revokes_nothing (applyCommand_frame ok .activeDelegations (by simp [touches]))
      (applyCommand_frame ok .revokedDelegations (by simp [touches]))⟩

section
variable [SpiffeParts] [ProofCore] [DelegatedKeyCore] {before after : Node}
  {entry : Entry}

inductive DelegationEvent where
  | issued (issuance : Issuance) (entry : Entry)
  | applied (entry : Entry)

def DelegationEvent.issuance : DelegationEvent → Option Issuance
  | .issued issuance _ => some issuance
  | .applied _ => none

/-- A call is answered from some state and its proposal commits, or an entry commits that issues nothing. -/
inductive DelegationStep : Node → DelegationEvent → Node → Prop where
  | issued {before after : Node} {call : KeyCall} {config : DelegationConfig} {requestId : String}
      {req : DelegatedKeyRequest} {delegated : Delegated} {record : DelegationRecord} {entry : Entry} :
      call.answer config requestId req = .ok delegated → delegated.proposal.cmd = .issueDelegation record →
      entry.payload = .normal delegated.proposal → Advances before entry after →
      DelegationStep before (.issued ⟨record,config.issuedAt⟩ entry) after
  | applied {before after : Node} {entry : Entry} :
      (∀ audited, entry.payload = .normal audited → ∀ record, audited.cmd ≠ .issueDelegation record) →
      Advances before entry after → DelegationStep before (.applied entry) after

def issuances (trace : List (Transition Node DelegationEvent)) : List Issuance := trace.filterMap (·.label.issuance)

theorem DelegationStep.named {issuance} (step : DelegationStep before (.issued issuance entry) after) : issuance.Named := by
  cases step with
  | issued answered proposed _ _ =>
    obtain ⟨request,bundle,key,_,issued,command,_⟩ := answer_ok answered
    rw [command] at proposed
    cases proposed
    exact ⟨(issueDelegatedKey_ok issued).named⟩

theorem DelegationStep.stores {issuance} (step : DelegationStep before (.issued issuance entry) after) :
    after.disk .activeDelegations =
        (before.disk .activeDelegations).insert issuance.key (toAllocvec issuance.record) ∧
      after.disk .revokedDelegations = before.disk .revokedDelegations := by
  cases step with
  | issued _ proposed payload advances =>
    obtain ⟨writes,kind,ok,contents⟩ := advances.applied payload
    rw [proposed] at ok
    cases ok
    refine ⟨?_,?_⟩
    · rw [contents .activeDelegations rfl,commit_cons,commit_nil]
      rfl
    · rw [contents .revokedDelegations rfl,commit_cons,commit_nil]
      rfl

theorem DelegationStep.kept (step : DelegationStep before event after) (kept : RecordsKept past before.disk)
    (distinct : ((past ++ event.issuance.toList).map Issuance.key).Nodup) :
    RecordsKept (past ++ event.issuance.toList) after.disk ∧
      ∀ issuance ∈ event.issuance, (before.disk .activeDelegations)[issuance.key]? = none ∧
        (before.disk .revokedDelegations)[issuance.key]? = none := by
  cases event with
  | applied entry =>
    simp only [DelegationEvent.issuance,Option.toList_none,List.append_nil] at distinct ⊢
    refine ⟨?_,by simp⟩
    cases step with
    | applied other advances =>
      obtain ⟨chosen,revokes⟩ := advances.revokes other kept.filed
      exact recordsKept_revokes kept distinct revokes
  | issued issuance entry =>
    simp only [DelegationEvent.issuance,Option.toList_some,List.map_append,List.map_cons,List.map_nil] at distinct ⊢
    have fresh : ∀ earlier ∈ past, earlier.key ≠ issuance.key := by
      intro earlier member same
      exact (List.nodup_append.mp distinct).2.2 earlier.key (List.mem_map_of_mem member) issuance.key
        (mem_singleton_self _) same
    obtain ⟨active,revoked⟩ := step.stores
    refine ⟨recordsKept_issued kept fresh active revoked,?_⟩
    intro stored same
    cases same
    refine ⟨Option.eq_none_iff_forall_ne_some.mpr fun bytes found => ?_,
      Option.eq_none_iff_forall_ne_some.mpr fun bytes found => ?_⟩
    · obtain ⟨earlier,member,same,_⟩ := kept.origin _ _ (.inl found)
      exact fresh earlier member same.symm
    · obtain ⟨earlier,member,same,_⟩ := kept.origin _ _ (.inr found)
      exact fresh earlier member same.symm

theorem issuances_cons (transition : Transition Node DelegationEvent) (rest : List (Transition Node DelegationEvent)) :
    issuances (transition :: rest) = transition.label.issuance.toList ++ issuances rest := by
  unfold issuances
  rw [List.filterMap_cons]
  cases transition.label.issuance <;> rfl

section
variable {first last : Node} {trace : List (Transition Node DelegationEvent)} (run : Run DelegationStep first trace last)
include run

theorem issuances_named : ∀ issuance ∈ issuances trace, issuance.Named := by
  intro issuance member
  obtain ⟨⟨before,event,after⟩,taken,issued⟩ := mem_filterMap.mp member
  have step := run.step_of_mem _ taken
  cases event with
  | applied entry => cases issued
  | issued own entry =>
    cases issued
    exact DelegationStep.named step

theorem run_recordsKept (kept : RecordsKept past first.disk)
    (distinct : ((past ++ issuances trace).map Issuance.key).Nodup) :
    RecordsKept (past ++ issuances trace) last.disk ∧ ∀ transition ∈ trace, ∀ issuance ∈ transition.label.issuance,
        (transition.before.disk .activeDelegations)[issuance.key]? = none ∧
          (transition.before.disk .revokedDelegations)[issuance.key]? = none := by
  induction run generalizing past with
  | nil => exact ⟨by simpa [issuances] using kept,by simp⟩
  | cons taken rest ih =>
    rw [issuances_cons,← List.append_assoc] at distinct ⊢
    have head := (List.nodup_append.mp (List.map_append ▸ distinct)).1
    obtain ⟨next,fresh⟩ := taken.kept kept head
    obtain ⟨final,later⟩ := ih next distinct
    refine ⟨final,?_⟩
    intro transition member
    rcases mem_cons.mp member with rfl | member
    · exact fresh
    · exact later transition member

end

/-- Ids differ exactly if no two keys are issued for one node, workload and ordinal in one second. -/
theorem delegation_ids_iff {first last : Node} {trace : List (Transition Node DelegationEvent)}
    (run : Run DelegationStep first trace last) (active : first.disk .activeDelegations = ∅)
    (revoked : first.disk .revokedDelegations = ∅) (plain : ∀ issuance ∈ issuances trace, issuance.Plain) :
    ((issuances trace).Pairwise (fun earlier later => earlier.record.delegationId ≠ later.record.delegationId) ∧
      (∀ transition ∈ trace, ∀ issuance ∈ transition.label.issuance,
        (transition.before.disk .activeDelegations)[issuance.key]? = none ∧
          (transition.before.disk .revokedDelegations)[issuance.key]? = none) ∧
      ∀ issuance ∈ issuances trace,
        (last.disk .activeDelegations)[issuance.key]? = some (toAllocvec issuance.record) ∨
          (last.disk .revokedDelegations)[issuance.key]? = some (toAllocvec issuance.record)) ↔
    (issuances trace).Pairwise Issuance.Apart := by
  have named := issuances_named run
  constructor
  · rintro ⟨ids,_⟩
    refine ids.imp_of_mem ?_
    intro earlier later member other differ
    exact not_not.mp fun together => differ (delegationId_of_together (named _ member) (named _ other) together)
  · intro apart
    have distinct : ((issuances trace).map Issuance.key).Nodup := by
      rw [List.Nodup,List.pairwise_map]
      refine apart.imp_of_mem ?_
      intro earlier later member other
      exact key_apart (named _ member) (named _ other) (plain _ member) (plain _ other)
    have empty : RecordsKept [] first.disk := ⟨by simp,by simp [active,revoked]⟩
    obtain ⟨kept,fresh⟩ := run_recordsKept run empty distinct
    refine ⟨apart.imp_of_mem ?_,fresh,kept.stored⟩
    intro earlier later member other
    exact delegationId_apart (named _ member) (named _ other) (plain _ member) (plain _ other)

end

end

open Reference

def renewedShop (second : Int64) : DelegationRecord :=
  ⟨computeDelegationId hostId.1 shopId.1 (some 0) second,hostId,shopId,some 0,second,second + 600,second + 300⟩

def delegateAgain (second : Int64) : Entry :=
  ⟨logIdAt 5,.normal ⟨.issueDelegation (renewedShop second),some ⟨"req-2",hostId.1,shopId.1,second.toUInt64⟩⟩⟩

def delegatedTwice (second : Int64) : Node := (apply delegated [delegateAgain second]).1

def firstIssuance : Issuance :=
  ⟨⟨computeDelegationId hostId.1 shopId.1 (some 0) 1700000000,hostId,shopId,some 0,1700000000,1700014400,1700007200⟩,
    1700000000⟩

def twiceTrace (second : Int64) : List (Transition Node DelegationEvent) :=
  [⟨boot Disk.empty,.applied (uncordonHost 1),uncordoned⟩,⟨uncordoned,.applied (assignShop 2),assigned⟩,
    ⟨assigned,.applied (placeShop 3),placed⟩,⟨placed,.issued firstIssuance (delegateShop 4),delegated⟩,
    ⟨delegated,.issued ⟨renewedShop second,second⟩ (delegateAgain second),delegatedTwice second⟩]

theorem twiceTrace_run (second : Int64)
    (again : Advances delegated (delegateAgain second) (delegatedTwice second))
    (answered : ∃ response, (KeyCall.node placed.disk (some hostId)).answer
      { delegationConfig with issuedAt := second, now := second } "req-2" ⟨hostId.1,shopId.1,some 0,600⟩ =
        .ok ⟨⟨.issueDelegation (renewedShop second),some ⟨"req-2",hostId.1,shopId.1,second.toUInt64⟩⟩,response⟩) :
    Run DelegationStep (boot Disk.empty) (twiceTrace second) (delegatedTwice second) := by
  obtain ⟨response,ok⟩ := answered
  obtain ⟨given,first⟩ : ∃ given, (KeyCall.node placed.disk (some hostId)).answer delegationConfig "req-1"
      ⟨hostId.1,shopId.1,some 0,0⟩ = .ok ⟨⟨.issueDelegation firstIssuance.record,
        some ⟨"req-1",hostId.1,shopId.1,1700000000⟩⟩,given⟩ := ⟨_,rfl⟩
  refine .cons (.applied ?_ (advances_apply (by decide +kernel)))
    (.cons (.applied ?_ (advances_apply (by decide +kernel))) (.cons (.applied ?_ (advances_apply (by decide +kernel)))
    (.cons (.issued first rfl rfl (advances_apply (by decide +kernel))) (.cons (.issued ok rfl rfl again) (.nil _)))))
  all_goals
    intro audited normal record issued
    cases normal
    cases issued

theorem second_key_beside_first : (issuances (twiceTrace 1700000001)).length = 2 ∧
    ∀ issuance ∈ issuances (twiceTrace 1700000001),
      ((delegatedTwice 1700000001).disk .activeDelegations)[issuance.key]? = some (toAllocvec issuance.record) ∨
        ((delegatedTwice 1700000001).disk .revokedDelegations)[issuance.key]? = some (toAllocvec issuance.record) := by
  have run := twiceTrace_run 1700000001 (advances_apply (by decide +kernel)) ⟨_,rfl⟩
  refine ⟨rfl,((delegation_ids_iff run rfl rfl ?_).mpr ?_).2.2⟩
  · intro issuance member
    simp only [issuances,twiceTrace,DelegationEvent.issuance,List.filterMap_cons,List.filterMap_nil,mem_cons,
      not_mem_nil,or_false] at member
    rcases member with rfl | rfl <;> exact ⟨by decide +kernel,by decide +kernel⟩
  · simp only [issuances,twiceTrace,DelegationEvent.issuance,List.filterMap_cons,List.filterMap_nil]
    simp [Issuance.Apart,firstIssuance]

/-- Within the second the new record takes the place of the first one, whose key has hours to run. -/
theorem second_key_over_first : ∃ last trace, Run DelegationStep (boot Disk.empty) trace last ∧ ∃ later : Issuance,
    issuances trace = [firstIssuance,later] ∧ firstIssuance.record.delegationId = later.record.delegationId ∧
    firstIssuance.record ≠ later.record ∧
    (last.disk .activeDelegations)[firstIssuance.key]? = some (toAllocvec later.record) ∧
    (last.disk .revokedDelegations)[firstIssuance.key]? = none := by
  have shorter : firstIssuance.record.expiresAt ≠ (renewedShop 1700000000).expiresAt := by decide +kernel
  refine ⟨delegatedTwice 1700000000,twiceTrace 1700000000,?_,⟨renewedShop 1700000000,1700000000⟩,rfl,rfl,
    fun same => shorter (congrArg (·.expiresAt) same),by decide +kernel,by decide +kernel⟩
  exact twiceTrace_run 1700000000 (advances_apply (by decide +kernel)) ⟨_,rfl⟩

end FleetosControl
