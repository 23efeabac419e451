import FleetosControl.Raft.LogStore

/-! Snapshots while entries commit: whether one describes its own data, and whether the current one
reaches as far as the latest built or installed. -/
namespace FleetosControl
open Wire KeyValue Trace Std

section
variable [FleetosCore] [Formats] {earlier lastApplied : Option LogId} {later : LogId} {stored : StoredMembership}
  {disk : Disk} {entry : Entry} {before after : Node} {response : FleetosResponse} {fresh : Bool}

structure Building where
  node : Node
  builder : Builder

inductive BuildEvent where
  | commit (entry : Entry)
  | build

-- The engine applies entries in log order, past what has been applied.
inductive BuildStep : Building → BuildEvent → Building → Prop where
  | commit {before : Node} {after builder} {entry : Entry} {response lastApplied stored} :
      appliedState before.disk = .ok (lastApplied,stored) → LogId.Before lastApplied entry.logId = true →
      applyEntry before entry = .ok (after,response) →
      BuildStep ⟨before,builder⟩ (.commit entry) ⟨after,builder⟩
  | build {node : Node} {before after : Builder} :
      before.step node.disk = .ok after → BuildStep ⟨node,before⟩ .build ⟨node,after⟩

def Describes (snapshot : Snapshot) : Prop :=
  ∃ contents : ApplicationSnapshot, fromBytes snapshot.data = .ok contents ∧
    appliedState contents.restore = .ok (snapshot.info.lastLogId,snapshot.info.lastMembership) ∧
    snapshot.info.snapshotId = snapshotId snapshot.info.lastLogId

def Entry.isMembership (entry : Entry) : Bool :=
  match entry.payload with
  | .membership _ => true
  | _ => false

def undisturbed (transition : Transition Building BuildEvent) : Bool :=
  match transition.label,transition.before.builder with
  | .commit _,.viewed _ => false
  | .commit _,.collected _ => false
  | .commit entry,.appliedRead _ _ => !entry.isMembership
  | _,_ => true

theorem describes_collected (view : Disk) (info : SnapshotMeta) :
    Describes ⟨info,toAllocvec (⟨collectKeyspacesFromView view⟩ : ApplicationSnapshot)⟩ ↔
      appliedState view = .ok (info.lastLogId,info.lastMembership) ∧ info.snapshotId = snapshotId info.lastLogId := by
  have restored := appliedState_congr (restore_collect view .raftState (by decide))
  constructor
  · rintro ⟨contents,decoded,state,name⟩
    obtain rfl : _ = contents := by simpa using decoded
    exact ⟨restored.symm.trans state,name⟩
  · rintro ⟨state,name⟩
    exact ⟨_,by simp,restored.trans state,name⟩

/-- The membership on record was applied no later than the last entry. -/
def Readable (disk : Disk) (lastApplied : Option LogId) (stored : StoredMembership) : Prop :=
  appliedState disk = .ok (lastApplied,stored) ∧
    ∀ id, stored.logId = some id → ∃ last, lastApplied = some last ∧ id.index ≤ last.index

def Overtaken (earlier later : Option LogId) : Prop := ∃ id, later = some id ∧ LogId.Before earlier id = true

theorem before_trans (first : LogId.Before earlier middle = true) (second : LogId.Before (some middle) later = true) :
    LogId.Before earlier later = true := by
  cases earlier with
  | none => rfl
  | some id =>
    simp only [LogId.Before,decide_eq_true_eq] at first second ⊢
    exact UInt64.lt_trans first second

theorem Overtaken.trans (first : Overtaken earlier middle) (second : LogId.Before middle later = true) :
    Overtaken earlier (some later) := by
  obtain ⟨id,rfl,before⟩ := first
  exact ⟨later,rfl,before_trans before second⟩

theorem Overtaken.ne {later} (overtaken : Overtaken earlier later) : earlier ≠ later := by
  obtain ⟨id,rfl,before⟩ := overtaken
  rintro rfl
  simp only [LogId.Before,decide_eq_true_eq] at before
  exact UInt64.lt_irrefl _ before

theorem Readable.before_membership (readable : Readable disk lastApplied stored)
    (after : LogId.Before lastApplied later = true) : LogId.Before stored.logId later = true := by
  cases known : stored.logId with
  | none => rfl
  | some id =>
    obtain ⟨last,rfl,below⟩ := readable.2 id known
    simp only [LogId.Before,decide_eq_true_eq] at after ⊢
    exact UInt64.lt_of_le_of_lt below after

theorem Readable.commit (readable : Readable before.disk lastApplied stored)
    (later : LogId.Before lastApplied entry.logId = true) (ok : applyEntry before entry = .ok (after,response)) :
    Readable after.disk (some entry.logId) (membershipAfter entry stored) := by
  refine ⟨applyEntry_appliedState ok readable.1,?_⟩
  intro id known
  refine ⟨entry.logId,rfl,?_⟩
  have unchanged : stored.logId = some id → id.index ≤ entry.logId.index := by
    intro known
    have before := readable.before_membership later
    rw [known] at before
    simp only [LogId.Before,decide_eq_true_eq] at before
    exact UInt64.le_of_lt before
  unfold membershipAfter at known
  split at known
  · obtain rfl := Option.some.inj known
    exact UInt64.le_refl _
  · exact unchanged known

/-- The same as on record while no commit disturbed it, overtaken from then on. -/
def Tracks (fresh : Bool) (building : Building) : Prop :=
  ∃ lastApplied stored, Readable building.node.disk lastApplied stored ∧ match building.builder with
    | .start => fresh = true
    | .viewed view => ∃ viewApplied viewStored, appliedState view = .ok (viewApplied,viewStored) ∧
        if fresh then lastApplied = viewApplied ∧ stored = viewStored else Overtaken viewApplied lastApplied
    | .collected data => ∃ view viewApplied viewStored,
        data = toAllocvec (⟨collectKeyspacesFromView view⟩ : ApplicationSnapshot) ∧
        appliedState view = .ok (viewApplied,viewStored) ∧
        if fresh then lastApplied = viewApplied ∧ stored = viewStored else Overtaken viewApplied lastApplied
    | .appliedRead data readApplied => ∃ view viewApplied viewStored,
        data = toAllocvec (⟨collectKeyspacesFromView view⟩ : ApplicationSnapshot) ∧
        appliedState view = .ok (viewApplied,viewStored) ∧
        if fresh then readApplied = viewApplied ∧ stored = viewStored
        else Overtaken viewApplied readApplied ∨ Overtaken viewStored.logId stored.logId
    | .built snapshot => Describes snapshot ↔ fresh = true

theorem membershipAfter_of_not (other : entry.isMembership = false) (stored : StoredMembership) :
    membershipAfter entry stored = stored := by
  unfold membershipAfter
  split
  case h_1 membership payload => simp [Entry.isMembership,payload] at other
  case h_2 => rfl

theorem membershipAfter_logId (changes : entry.isMembership = true) (stored : StoredMembership) :
    (membershipAfter entry stored).logId = some entry.logId := by
  unfold Entry.isMembership at changes
  unfold membershipAfter
  split at changes <;> simp_all

theorem tracks_commit (known : appliedState before.disk = .ok (lastApplied,stored))
    (later : LogId.Before lastApplied entry.logId = true) (ok : applyEntry before entry = .ok (after,response))
    (tracks : Tracks fresh ⟨before,builder⟩) :
    Tracks (fresh && undisturbed ⟨⟨before,builder⟩,.commit entry,⟨after,builder⟩⟩) ⟨after,builder⟩ := by
  obtain ⟨last,membership,readable,tracks⟩ := tracks
  obtain ⟨rfl,rfl⟩ : last = lastApplied ∧ membership = stored := by
    have same := readable.1.symm.trans known
    simpa using same
  refine ⟨_,_,readable.commit later ok,?_⟩
  cases builder with
  | start => simpa [undisturbed] using tracks
  | viewed view =>
    obtain ⟨viewApplied,viewStored,state,relation⟩ := tracks
    refine ⟨viewApplied,viewStored,state,?_⟩
    simp only [undisturbed,Bool.and_false]
    cases fresh with
    | true =>
      obtain ⟨rfl,_⟩ := relation
      exact ⟨_,rfl,later⟩
    | false => exact Overtaken.trans relation later
  | collected data =>
    obtain ⟨view,viewApplied,viewStored,collected,state,relation⟩ := tracks
    refine ⟨view,viewApplied,viewStored,collected,state,?_⟩
    simp only [undisturbed,Bool.and_false]
    cases fresh with
    | true =>
      obtain ⟨rfl,_⟩ := relation
      exact ⟨_,rfl,later⟩
    | false => exact Overtaken.trans relation later
  | appliedRead data readApplied =>
    obtain ⟨view,viewApplied,viewStored,collected,state,relation⟩ := tracks
    refine ⟨view,viewApplied,viewStored,collected,state,?_⟩
    have overtaking := readable.before_membership later
    cases changes : entry.isMembership with
    | false => simpa [undisturbed,changes,membershipAfter_of_not changes] using relation
    | true =>
      simp only [undisturbed,changes,Bool.not_true,Bool.and_false]
      rw [membershipAfter_logId changes]
      cases fresh with
      | true =>
        obtain ⟨_,rfl⟩ := relation
        exact .inr ⟨_,rfl,overtaking⟩
      | false => exact Or.imp_right (fun overtaken => Overtaken.trans overtaken overtaking) relation
  | built snapshot => simpa [undisturbed] using tracks

theorem tracks_build {node : Node} {before after : Builder} (ok : before.step node.disk = .ok after)
    (tracks : Tracks fresh ⟨node,before⟩) : Tracks fresh ⟨node,after⟩ := by
  obtain ⟨last,stored,readable,tracks⟩ := tracks
  obtain ⟨readLast,found,readStored,foundEq⟩ := appliedState_ok readable.1
  refine ⟨last,stored,readable,?_⟩
  cases before with
  | start =>
    cases ok
    obtain rfl : fresh = true := tracks
    exact ⟨last,stored,readable.1,rfl,rfl⟩
  | viewed view =>
    cases ok
    obtain ⟨viewApplied,viewStored,state,relation⟩ := tracks
    exact ⟨view,viewApplied,viewStored,rfl,state,relation⟩
  | collected data =>
    obtain ⟨readApplied,read,ok⟩ := bind_ok ok
    cases ok
    obtain rfl : last = readApplied := by simpa using readLast.symm.trans read
    obtain ⟨view,viewApplied,viewStored,collected,state,relation⟩ := tracks
    refine ⟨view,viewApplied,viewStored,collected,state,?_⟩
    cases fresh with
    | true => exact relation
    | false => exact .inl relation
  | appliedRead data readApplied =>
    obtain ⟨membership,read,ok⟩ := bind_ok ok
    cases ok
    obtain rfl : found = membership := by simpa using readStored.symm.trans read
    subst foundEq
    obtain ⟨view,viewApplied,viewStored,rfl,state,relation⟩ := tracks
    change Describes _ ↔ _
    rw [describes_collected,state]
    cases fresh with
    | true =>
      obtain ⟨rfl,same⟩ := relation
      simp [same]
    | false =>
      simp only [Except.ok.injEq,Prod.mk.injEq,and_true,Bool.false_eq_true,iff_false]
      rintro ⟨sameApplied,sameStored⟩
      rcases relation with applied | membership
      · exact applied.ne sameApplied
      · exact membership.ne (congrArg StoredMembership.logId sameStored)
  | built snapshot =>
    cases ok
    exact tracks

theorem tracks_step {before after event} (taken : BuildStep before event after) (tracks : Tracks fresh before) :
    Tracks (fresh && undisturbed ⟨before,event,after⟩) after := by
  cases taken with
  | commit known later ok => exact tracks_commit known later ok tracks
  | build ok =>
    rw [show undisturbed _ = true from rfl,Bool.and_true]
    exact tracks_build ok tracks

theorem tracks_run (run : Run BuildStep first trace last) (tracks : Tracks fresh first) :
    Tracks (fresh && trace.all undisturbed) last := by
  induction run generalizing fresh with
  | nil => simpa using tracks
  | cons taken _ ih =>
    rw [List.all_cons,← Bool.and_assoc]
    exact ih (tracks_step taken tracks)

/-- Exactly if no entry commits before the applied log id is read, nor a membership before its read. -/
theorem built_describes_iff (node last : Node) (lastApplied : Option LogId) (stored : StoredMembership)
    (readable : Readable node.disk lastApplied stored) (snapshot : Snapshot)
    (trace : List (Transition Building BuildEvent))
    (run : Run BuildStep ⟨node,.start⟩ trace ⟨last,.built snapshot⟩) :
    Describes snapshot ↔ ∀ transition ∈ trace, undisturbed transition = true := by
  obtain ⟨_,_,_,outcome⟩ := tracks_run run ⟨lastApplied,stored,readable,rfl⟩
  rw [← List.all_eq_true]
  exact outcome

theorem builder_reads (known : appliedState disk = .ok (lastApplied,stored)) (data : Bytes)
    (readApplied : Option LogId) :
    (Builder.collected data).step disk = .ok (.appliedRead data lastApplied) ∧
      (Builder.appliedRead data readApplied).step disk =
        .ok (.built ⟨⟨readApplied,stored,snapshotId readApplied⟩,data⟩) := by
  obtain ⟨applied,found,membership,rfl⟩ := appliedState_ok known
  constructor
  · simp [Builder.step,applied,Bind.bind,Except.bind,Pure.pure,Except.pure]
  · simp [Builder.step,membership,Bind.bind,Except.bind,Pure.pure,Except.pure]

end

section
open Reference

theorem fresh_readable : Readable Disk.empty none .default := ⟨appliedState_empty,by simp [StoredMembership.default]⟩

theorem undisturbed_build_describes : ∃ snapshot trace last,
    Run BuildStep ⟨boot Disk.empty,.start⟩ trace ⟨last,.built snapshot⟩ ∧
      snapshot.info.lastLogId = some (logIdAt 1) ∧ Describes snapshot := by
  obtain ⟨one,_,applied⟩ := applyEntry_of_payload (boot Disk.empty) (commandAt 1 (.deleteTenant "acme")) rfl
  have state := applyEntry_appliedState applied appliedState_empty
  have run : Run BuildStep ⟨boot Disk.empty,.start⟩ _ _ :=
    .cons (.commit appliedState_empty rfl applied) (.cons (.build rfl) (.cons (.build rfl)
      (.cons (.build (builder_reads state _ none).1) (.cons (.build (builder_reads state _ _).2) (.nil _)))))
  refine ⟨_,_,_,run,rfl,(built_describes_iff _ _ _ _ fresh_readable _ _ run).mpr ?_⟩
  simp [undisturbed]

/-- The entry is named by the metadata and missing from the data. -/
theorem commit_during_build_is_lost : ∃ snapshot trace last,
    Run BuildStep ⟨boot Disk.empty,.start⟩ trace ⟨last,.built snapshot⟩ ∧ snapshot.info.lastLogId = some (logIdAt 2) ∧
      (∃ contents : ApplicationSnapshot, fromBytes snapshot.data = .ok contents ∧
        appliedState contents.restore = .ok (some (logIdAt 1),.default)) ∧
      ¬ Describes snapshot := by
  obtain ⟨one,_,first⟩ := applyEntry_of_payload (boot Disk.empty) (commandAt 1 (.deleteTenant "acme")) rfl
  obtain ⟨two,_,second⟩ := applyEntry_of_payload one (commandAt 2 (.deleteTenant "acme")) rfl
  have stateOne := applyEntry_appliedState first appliedState_empty
  have stateTwo := applyEntry_appliedState second stateOne
  have run : Run BuildStep ⟨boot Disk.empty,.start⟩ _ _ :=
    .cons (.commit appliedState_empty rfl first) (.cons (.build rfl) (.cons (.build rfl)
      (.cons (.commit stateOne rfl second) (.cons (.build (builder_reads stateTwo _ none).1)
        (.cons (.build (builder_reads stateTwo _ _).2) (.nil _))))))
  refine ⟨_,_,_,run,rfl,⟨⟨collectKeyspacesFromView one.disk⟩,by simp,?_⟩,?_⟩
  · exact (appliedState_congr (restore_collect one.disk .raftState (by decide))).trans stateOne
  · rw [describes_collected,stateOne]
    rintro ⟨same,_⟩
    have ids := congrArg Prod.fst (Except.ok.inj same)
    revert ids
    decide

end

section
variable [FleetosCore] [Formats] {left right : Disk} {before after : Node}

structure Replica where
  node : Node
  latest : Option SnapshotMeta

inductive CoverEvent where
  | applied (entry : Entry)
  | built (snapshot : Snapshot)
  | installed (info : SnapshotMeta) (data : Bytes)
  | purged (logId : LogId)

/-- Nothing is purged past the latest snapshot, and none is installed that ends before the purged part. -/
inductive CoverStep : Replica → CoverEvent → Replica → Prop where
  | applied {node after latest entry response} :
      applyEntry node entry = .ok (after,response) → CoverStep ⟨node,latest⟩ (.applied entry) ⟨after,latest⟩
  | built {node : Node} {latest snapshot} : buildSnapshot node.disk = .ok snapshot →
      CoverStep ⟨node,latest⟩ (.built snapshot) ⟨node,some snapshot.info⟩
  | installed {node : Node} {after latest} {info : SnapshotMeta} {data} :
      (∀ id, lastPurged node.disk = .ok (some id) → some id ≤ info.lastLogId) →
      installSnapshot node info data = .ok after →
      CoverStep ⟨node,latest⟩ (.installed info data) ⟨after,some info⟩
  | purged {node} {latest : SnapshotMeta} {logId} : some logId ≤ latest.lastLogId →
      CoverStep ⟨node,some latest⟩ (.purged logId) ⟨{ node with disk := purgeLog node.disk logId },some latest⟩

def CanSend (disk : Disk) (need : Option LogId) : Prop :=
  ∃ snapshot, getCurrentSnapshot disk = .ok (some snapshot) ∧ need ≤ snapshot.info.lastLogId

structure Covered (replica : Replica) : Prop where
  latest : ∀ info, replica.latest = some info → CanSend replica.node.disk info.lastLogId
  purged : ∀ id, lastPurged replica.node.disk = .ok (some id) → CanSend replica.node.disk (some id)

/-- A build finds a stored snapshot that already reaches as far. -/
def BuildCovered (transition : Transition Replica CoverEvent) : Prop :=
  match transition.label with
  | .built snapshot => CanSend transition.before.node.disk snapshot.info.lastLogId
  | _ => True

theorem reach_refl (id : Option LogId) : id ≤ id := by
  cases id <;> simp

theorem reach_trans {first second third : Option LogId} (left : first ≤ second) (right : second ≤ third) :
    first ≤ third := by
  cases first <;> cases second <;> cases third <;> simp at left right ⊢
  exact left.trans right

theorem getCurrentSnapshot_congr (info : (left .raftState)[snapshotMetaKey]? = (right .raftState)[snapshotMetaKey]?)
    (data : left .raftSnapshot = right .raftSnapshot) : getCurrentSnapshot left = getCurrentSnapshot right := by
  have read : readRecord SnapshotMeta left .raftState snapshotMetaKey =
      readRecord SnapshotMeta right .raftState snapshotMetaKey := by
    simp only [readRecord,info]
  simp only [getCurrentSnapshot,read,data]

theorem lastPurged_congr (same : left .raftLogMeta = right .raftLogMeta) : lastPurged left = lastPurged right := by
  simp only [lastPurged,same]

theorem raftStateAfter_snapshotMeta (entry : Entry) (contents : Contents) :
    (raftStateAfter entry contents)[snapshotMetaKey]? = contents[snapshotMetaKey]? := by
  have applied : lastAppliedKey ≠ snapshotMetaKey := by decide
  have membership : lastMembershipKey ≠ snapshotMetaKey := by decide
  unfold raftStateAfter
  rw [ExtTreeMap.getElem?_insert]
  simp only [LawfulEqCmp.compare_eq_iff_eq,applied,if_false]
  split
  · rw [ExtTreeMap.getElem?_insert]
    simp [membership]
  · rfl

theorem applyEntry_currentSnapshot (ok : applyEntry before entry = .ok (after,response)) :
    getCurrentSnapshot after.disk = getCurrentSnapshot before.disk ∧ lastPurged after.disk = lastPurged before.disk := by
  obtain ⟨_,_,_,_,effect⟩ := applyEntry_effect ok
  constructor
  · apply getCurrentSnapshot_congr
    · rw [effect.raftState,raftStateAfter_snapshotMeta]
    · exact effect.frame .raftSnapshot rfl (by decide) (by decide) (by decide)
  · exact lastPurged_congr (effect.frame .raftLogMeta rfl (by decide) (by decide) (by decide))

theorem installSnapshot_currentSnapshot (ok : installSnapshot before info data = .ok after) :
    getCurrentSnapshot after.disk = .ok (some ⟨info,data⟩) ∧ lastPurged after.disk = lastPurged before.disk := by
  obtain ⟨snapshot,_,effect⟩ := installSnapshot_effect ok
  constructor
  · have read : readRecord SnapshotMeta after.disk .raftState snapshotMetaKey = .ok (some info) := by
      apply readRecord_of_lookup
      rw [effect.raftState]
      simp
    have stored : (after.disk .raftSnapshot)[snapshotDataKey]? = some data := by
      rw [effect.raftSnapshot]
      simp
    simp [getCurrentSnapshot,read,stored,Bind.bind,Except.bind,Pure.pure,Except.pure]
  · exact lastPurged_congr (effect.frame .raftLogMeta (by decide) (by decide))

theorem purgeLog_currentSnapshot (disk : Disk) (logId : LogId) :
    getCurrentSnapshot (purgeLog disk logId) = getCurrentSnapshot disk ∧
      lastPurged (purgeLog disk logId) = .ok (some logId) := by
  have frame : ∀ keyspace : Keyspace, keyspace ≠ .raftLog → keyspace ≠ .raftLogMeta →
      purgeLog disk logId keyspace = disk keyspace := by
    intro keyspace noLog noMeta
    apply commit_frame
    intro write member
    rcases mem_append.mp member with removed | recorded
    · obtain ⟨key,_,rfl⟩ := mem_map.mp removed
      exact noLog.symm
    · rw [mem_singleton.mp recorded]
      exact noMeta.symm
  constructor
  · apply getCurrentSnapshot_congr
    · rw [frame .raftState (by decide) (by decide)]
    · exact frame .raftSnapshot (by decide) (by decide)
  · have stored : (purgeLog disk logId .raftLogMeta)[lastPurgedKey]? = some (toAllocvec logId) := by
      rw [purgeLog,commit_append]
      simp [put,perform,Write.on]
    simp [lastPurged,stored,Except.mapError,Except.map]

theorem covered_step {before after : Replica} {event : CoverEvent} (taken : CoverStep before event after)
    (condition : BuildCovered ⟨before,event,after⟩) (covered : Covered before) : Covered after := by
  cases taken with
  | applied ok =>
    obtain ⟨current,purged⟩ := applyEntry_currentSnapshot ok
    refine ⟨fun info known => ?_,fun id known => ?_⟩
    · obtain ⟨snapshot,stored,reach⟩ := covered.latest info known
      exact ⟨snapshot,current.trans stored,reach⟩
    · obtain ⟨snapshot,stored,reach⟩ := covered.purged id (purged.symm.trans known)
      exact ⟨snapshot,current.trans stored,reach⟩
  | built ok =>
    refine ⟨fun info known => ?_,covered.purged⟩
    obtain rfl := Option.some.inj known
    exact condition
  | installed ahead ok =>
    obtain ⟨current,purged⟩ := installSnapshot_currentSnapshot ok
    refine ⟨fun info known => ?_,fun id known => ?_⟩
    · obtain rfl := Option.some.inj known
      exact ⟨_,current,reach_refl _⟩
    · exact ⟨_,current,ahead id (purged.symm.trans known)⟩
  | purged reach =>
    rename_i node latest logId
    obtain ⟨current,purged⟩ := purgeLog_currentSnapshot node.disk logId
    obtain ⟨snapshot,stored,further⟩ := covered.latest latest rfl
    refine ⟨fun info known => ?_,fun id known => ?_⟩
    · obtain rfl := Option.some.inj known
      exact ⟨snapshot,current.trans stored,further⟩
    · have same : id = logId := by simpa using (purged.symm.trans known).symm
      exact ⟨snapshot,current.trans stored,same ▸ reach_trans reach further⟩

/-- Exactly if a stored snapshot already reaches as far: a built one is never stored. -/
theorem snapshots_cover_iff (initial : Node) (unpurged : (initial.disk .raftLogMeta)[lastPurgedKey]? = none)
    (trace : List (Transition Replica CoverEvent)) (last : Replica) (run : Run CoverStep ⟨initial,none⟩ trace last) :
    (∀ transition ∈ trace, Covered transition.after) ↔ ∀ transition ∈ trace, BuildCovered transition := by
  constructor
  · intro covered transition member
    have after := covered transition member
    have taken := run.step_of_mem transition member
    obtain ⟨before,event,result⟩ := transition
    cases taken with
    | built ok => exact after.latest _ rfl
    | applied | installed | purged => trivial
  · intro condition transition member
    have start : Covered ⟨initial,none⟩ := by
      refine ⟨fun info known => (nomatch known),fun id known => ?_⟩
      simp [lastPurged,unpurged] at known
    have states := run.invariant Covered BuildCovered (fun _ _ _ => covered_step) start condition
    exact (states.1 transition member).2

end

open Reference

theorem build_after_install_covered : ∃ trace last, Run CoverStep ⟨boot Disk.empty,none⟩ trace last ∧
    trace.length = 2 ∧ ∀ transition ∈ trace, Covered transition.after := by
  obtain ⟨leader,_,applied⟩ := applyEntry_of_payload (boot Disk.empty) (commandAt 1 (.deleteTenant "acme")) rfl
  have state := applyEntry_appliedState applied appliedState_empty
  obtain ⟨follower,installed,moved⟩ := installSnapshot_collected (boot Disk.empty)
    ⟨some (logIdAt 1),.default,"snap-1-1"⟩ leader.disk
  have rebuilt := buildSnapshot_of_state (moved.appliedState.trans state)
  have current := (installSnapshot_currentSnapshot installed).1
  have run : Run CoverStep ⟨boot Disk.empty,none⟩ _ _ :=
    .cons (.installed (by intro id known; simp [lastPurged,boot,Disk.empty] at known) installed)
      (.cons (.built rebuilt) (.nil _))
  refine ⟨_,_,run,rfl,(snapshots_cover_iff _ (by simp [boot,Disk.empty]) _ _ run).mpr ?_⟩
  simp only [mem_cons,not_mem_nil,or_false,forall_eq_or_imp,forall_eq]
  exact ⟨trivial,_,current,reach_refl _⟩

/-- A snapshot is built after the first entry and the log purged up to it: there is nothing to send. -/
theorem built_snapshot_is_not_stored : ∃ trace last, Run CoverStep ⟨boot Disk.empty,none⟩ trace last ∧
    lastPurged last.node.disk = .ok (some (logIdAt 1)) ∧ getCurrentSnapshot last.node.disk = .ok none ∧
    ¬ ∀ transition ∈ trace, Covered transition.after := by
  obtain ⟨one,_,applied⟩ := applyEntry_of_payload (boot Disk.empty) (commandAt 1 (.deleteTenant "acme")) rfl
  have state := applyEntry_appliedState applied appliedState_empty
  obtain ⟨current,purged⟩ := purgeLog_currentSnapshot one.disk (logIdAt 1)
  have absent : getCurrentSnapshot (purgeLog one.disk (logIdAt 1)) = .ok none :=
    current.trans ((applyEntry_currentSnapshot applied).1.trans rfl)
  have run : Run CoverStep ⟨boot Disk.empty,none⟩ _ _ :=
    .cons (.applied applied) (.cons (.built (buildSnapshot_of_state state))
      (.cons (.purged (reach_refl (some (logIdAt 1)))) (.nil _)))
  refine ⟨_,_,run,purged,absent,?_⟩
  intro covered
  obtain ⟨snapshot,stored,_⟩ := (covered _ (by simp; right; right; rfl)).purged _ purged
  cases absent.symm.trans stored

end FleetosControl
