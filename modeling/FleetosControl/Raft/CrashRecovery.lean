import Mathlib.Data.List.Nodup
import FleetosControl.Raft.StateMachine

/-! Replaying a log: from different starting points, by a process that may stop at any moment, and with
a version counter in memory. The commit of an entry is the single durable step. -/
namespace FleetosControl
open Wire KeyValue Std

/-- The record of the installed snapshot in the Raft state apart. -/
def SameContents (left right : Disk) : Prop :=
  (∀ keyspace ∈ snapshotKeyspaces, keyspace ≠ .raftState → left keyspace = right keyspace) ∧
    (left .raftState).erase snapshotMetaKey = (right .raftState).erase snapshotMetaKey

/-- The same, leaving out what is numbered by the version counter. -/
def SameReplicated (left right : Disk) : Prop :=
  (∀ keyspace ∈ snapshotKeyspaces, keyspace ≠ .raftState → keyspace ≠ .version → keyspace ≠ .auditLog →
      left keyspace = right keyspace) ∧
    (left .raftState).erase snapshotMetaKey = (right .raftState).erase snapshotMetaKey

theorem sameContents_iff (left right : Disk) : SameContents left right ↔
    SameReplicated left right ∧ left .version = right .version ∧ left .auditLog = right .auditLog := by
  constructor
  · intro same
    exact ⟨⟨fun keyspace member state _ _ => same.1 keyspace member state,same.2⟩,
      same.1 .version (by decide) (by decide),same.1 .auditLog (by decide) (by decide)⟩
  · rintro ⟨replicated,version,auditLog⟩
    refine ⟨?_,replicated.2⟩
    intro keyspace member state
    by_cases isVersion : keyspace = .version
    · rw [isVersion,version]
    by_cases isAudit : keyspace = .auditLog
    · rw [isAudit,auditLog]
    exact replicated.1 keyspace member state isVersion isAudit

section
variable {left right : Disk}

theorem SameContents.symm (same : SameContents left right) : SameContents right left :=
  ⟨fun keyspace member state => (same.1 keyspace member state).symm,same.2.symm⟩

theorem SameReplicated.application (same : SameReplicated left right) : SameApplication left right := by
  intro keyspace inside
  have listed : keyspace ∈ snapshotKeyspaces ∧ keyspace ≠ .raftState ∧ keyspace ≠ .version ∧ keyspace ≠ .auditLog := by
    revert inside
    cases keyspace <;> decide
  exact same.1 keyspace listed.1 listed.2.1 listed.2.2.1 listed.2.2.2

section
variable [FleetosCore] [Formats] {node last before after left right leftLast : Node} {log second : List Entry}
  {entry : Entry} {response : FleetosResponse}

inductive Applies : Node → List Entry → Node → Prop where
  | nil (node : Node) : Applies node [] node
  | cons {node next last entry response entries} :
      applyEntry node entry = .ok (next,response) → Applies next entries last → Applies node (entry::entries) last

theorem applies_of_apply (applied : (apply node log).2 = .ok responses) : Applies node log (apply node log).1 := by
  induction log generalizing node responses with
  | nil => exact .nil node
  | cons entry entries ih =>
    cases first : applyEntry node entry with
    | error e => simp [apply,first] at applied
    | ok result =>
      obtain ⟨next,response⟩ := result
      simp only [apply,first] at applied ⊢
      cases rest : (apply next entries).2 with
      | error e => simp [rest,Except.map] at applied
      | ok others => exact .cons first (ih rest)

theorem Applies.apply_eq (applied : Applies node log last) : ∃ responses, apply node log = (last,.ok responses) := by
  induction applied with
  | nil node => exact ⟨[],rfl⟩
  | cons first _ ih =>
    obtain ⟨responses,rest⟩ := ih
    exact ⟨_,by simp only [apply,first,rest]; rfl⟩

theorem Applies.append (left : Applies node first middle) (right : Applies middle second last) :
    Applies node (first ++ second) last := by
  induction left with
  | nil => exact right
  | cons ok _ ih => exact .cons ok (ih right)

theorem Applies.split (first : List Entry) (applied : Applies node (first ++ second) last) :
    ∃ middle, Applies node first middle ∧ Applies middle second last := by
  induction first generalizing node with
  | nil => exact ⟨node,.nil node,applied⟩
  | cons entry entries ih =>
    cases applied with
    | cons ok rest =>
      obtain ⟨middle,left,right⟩ := ih rest
      exact ⟨middle,.cons ok left,right⟩

theorem Applies.version (applied : Applies node log last) : last.version = node.version + UInt64.ofNat log.length := by
  induction applied with
  | nil => simp
  | cons ok _ ih =>
    obtain ⟨_,_,_,_,effect⟩ := applyEntry_effect ok
    rw [ih,effect.version,List.length_cons,UInt64.ofNat_add,UInt64.add_assoc,UInt64.add_comm 1]
    rfl

def Loaded (node : Node) : Prop := initialVersion node.disk = node.version

theorem loaded_boot (disk : Disk) : Loaded (boot disk) := rfl

theorem applyEntry_loaded (ok : applyEntry before entry = .ok (after,response)) : Loaded after := by
  obtain ⟨_,_,_,_,effect⟩ := applyEntry_effect ok
  apply initialVersion_of_lookup
  rw [effect.persisted,effect.version]
  simp

theorem Applies.loaded (applied : Applies node log last) (start : Loaded node) : Loaded last := by
  induction applied with
  | nil => exact start
  | cons ok _ ih => exact ih (applyEntry_loaded ok)

theorem Applies.loaded_of_ne_nil (applied : Applies node log last) (some : log ≠ []) : Loaded last := by
  cases applied with
  | nil => contradiction
  | cons ok rest => exact rest.loaded (applyEntry_loaded ok)

theorem erase_insert_comm (contents : Contents) (erased inserted value : Bytes) (other : inserted ≠ erased) :
    (contents.insert inserted value).erase erased = (contents.erase erased).insert inserted value := by
  apply ExtTreeMap.ext_getElem?
  intro key
  simp only [ExtTreeMap.getElem?_erase,ExtTreeMap.getElem?_insert,LawfulEqCmp.compare_eq_iff_eq]
  by_cases isErased : erased = key
  · subst isErased
    simp [other]
  · simp [isErased]

theorem raftStateAfter_erase (entry : Entry) (contents : Contents) :
    (raftStateAfter entry contents).erase snapshotMetaKey = raftStateAfter entry (contents.erase snapshotMetaKey) := by
  have applied : lastAppliedKey ≠ snapshotMetaKey := by decide
  have membership : lastMembershipKey ≠ snapshotMetaKey := by decide
  unfold raftStateAfter
  rw [erase_insert_comm _ _ _ _ applied]
  cases entry.payload with
  | blank => rfl
  | normal audited => rfl
  | membership m => simp only [erase_insert_comm _ _ _ _ membership]

theorem applyEntry_agree (same : SameReplicated left.disk right.disk)
    (ok : applyEntry left entry = .ok (leftAfter,response)) :
    ∃ rightAfter response', applyEntry right entry = .ok (rightAfter,response') ∧
      SameReplicated leftAfter.disk rightAfter.disk := by
  obtain ⟨writes,kind,payload,_,effect⟩ := applyEntry_effect ok
  have payload' := payload
  rw [payloadWrites_congr same.application] at payload'
  obtain ⟨rightAfter,response',ok'⟩ := applyEntry_of_payload right entry payload'
  obtain ⟨writes',kind',payload'',_,effect'⟩ := applyEntry_effect ok'
  obtain ⟨rfl,rfl⟩ : writes = writes' ∧ kind = kind' := by
    rw [payload'] at payload''
    simpa using payload''
  refine ⟨rightAfter,response',ok',?_,?_⟩
  · intro keyspace member state version auditLog
    have before := same.1 keyspace member state version auditLog
    cases inside : keyspace.application with
    | true => rw [effect.application _ inside,effect'.application _ inside,commit_congr _ _ _ _ before]
    | false =>
      rw [effect.frame _ inside version auditLog state,effect'.frame _ inside version auditLog state,before]
  · rw [effect.raftState,effect'.raftState,raftStateAfter_erase,raftStateAfter_erase,same.2]

theorem Applies.agree (applied : Applies left log leftLast) (same : SameReplicated left.disk right.disk) :
    ∃ rightLast, Applies right log rightLast ∧ SameReplicated leftLast.disk rightLast.disk := by
  induction applied generalizing right with
  | nil => exact ⟨right,.nil right,same⟩
  | cons ok _ ih =>
    obtain ⟨next,response,ok',agreed⟩ := applyEntry_agree same ok
    obtain ⟨last,rest,agreed⟩ := ih agreed
    exact ⟨last,.cons ok' rest,agreed⟩

theorem Applies.agree_numbered (applied : Applies left log leftLast) (applied' : Applies right log rightLast)
    (counter : left.version = right.version) (version : left.disk .version = right.disk .version)
    (auditLog : left.disk .auditLog = right.disk .auditLog) :
    leftLast.disk .version = rightLast.disk .version ∧ leftLast.disk .auditLog = rightLast.disk .auditLog := by
  induction applied generalizing right with
  | nil =>
    cases applied'
    exact ⟨version,auditLog⟩
  | cons ok _ ih =>
    cases applied' with
    | cons ok' rest =>
      obtain ⟨_,_,_,_,effect⟩ := applyEntry_effect ok
      obtain ⟨_,_,_,_,effect'⟩ := applyEntry_effect ok'
      apply ih rest
      · rw [effect.version,effect'.version,counter]
      · rw [effect.persisted,effect'.persisted,version,counter]
      · rw [effect.auditLog,effect'.auditLog,auditLog,counter]

theorem Transferred.agree (transferred : Transferred before info view after) : SameContents view after.disk := by
  refine ⟨fun keyspace member state => (transferred.contents keyspace member state).symm,?_⟩
  rw [transferred.raftState]
  apply ExtTreeMap.ext_getElem?
  intro key
  simp only [ExtTreeMap.getElem?_erase,ExtTreeMap.getElem?_insert,LawfulEqCmp.compare_eq_iff_eq]
  by_cases same : snapshotMetaKey = key <;> simp [same]

/-- The install replaces the persisted version but not the counter in memory. -/
theorem install_then_apply_same_iff (initial : Disk) (log : List Entry) (i : Nat) (responses : List FleetosResponse)
    (applied : (apply (boot initial) log).2 = .ok responses) (snapshot : Snapshot)
    (built : buildSnapshot (apply (boot initial) (log.take (i + 1))).1.disk = .ok snapshot) (running : Node) :
    ∃ installed, installSnapshot running snapshot.info snapshot.data = .ok installed ∧
      (∃ responses', (apply installed (log.drop (i + 1))).2 = .ok responses') ∧
      (SameContents (apply installed (log.drop (i + 1))).1.disk (apply (boot initial) log).1.disk ↔
        log.drop (i + 1) = [] ∨ running.version = initialVersion (apply (boot initial) (log.take (i + 1))).1.disk) := by
  have whole := applies_of_apply applied
  obtain ⟨taken,left,right⟩ : ∃ taken, Applies (boot initial) (log.take (i + 1)) taken ∧
      Applies taken (log.drop (i + 1)) (apply (boot initial) log).1 := by
    apply Applies.split
    rwa [List.take_append_drop]
  obtain ⟨_,takenEq⟩ := left.apply_eq
  rw [takenEq] at built ⊢
  obtain ⟨_,_,data⟩ := buildSnapshot_ok built
  rw [data]
  obtain ⟨installed,ok,transferred⟩ := installSnapshot_collected running snapshot.info taken.disk
  have same := (sameContents_iff _ _).mp transferred.agree
  obtain ⟨last,rest,agreed⟩ := right.agree same.1
  obtain ⟨responses',restEq⟩ := rest.apply_eq
  have takenLoaded : initialVersion taken.disk = taken.version := left.loaded (loaded_boot initial)
  refine ⟨installed,ok,⟨responses',by rw [restEq]⟩,?_⟩
  rw [restEq,takenLoaded]
  constructor
  · intro contents
    by_cases empty : log.drop (i + 1) = []
    · exact .inl empty
    · right
      have versions := initialVersion_congr (contents.1 .version (by decide) (by decide))
      rw [rest.loaded_of_ne_nil empty,right.loaded_of_ne_nil empty,rest.version,right.version,
        transferred.version] at versions
      exact (UInt64.add_left_inj _).mp versions
  · rintro (empty | counter)
    · rw [empty] at rest right
      cases rest
      cases right
      exact transferred.agree.symm
    · have counters : taken.version = installed.version := by rw [transferred.version,counter]
      have numbered := right.agree_numbered rest counters same.2.1 same.2.2
      exact ((sameContents_iff _ _).mpr ⟨agreed,numbered⟩).symm

end

open Reference in
theorem install_then_apply_at_version :
    ∃ installed, installSnapshot ⟨Disk.empty,1⟩ ⟨some (logIdAt 1),.default,"snap-1-1"⟩
        (toAllocvec (⟨collectKeyspacesFromView (apply (boot Disk.empty) (twoCommands.take 1)).1.disk⟩ :
          ApplicationSnapshot)) = .ok installed ∧
      (∃ responses, (apply installed (twoCommands.drop 1)).2 = .ok responses) ∧
      (SameContents (apply installed (twoCommands.drop 1)).1.disk (apply (boot Disk.empty) twoCommands).1.disk ↔
        twoCommands.drop 1 = [] ∨ 1 = initialVersion (apply (boot Disk.empty) (twoCommands.take 1)).1.disk) :=
  install_then_apply_same_iff Disk.empty twoCommands 0 [⟨1⟩,⟨2⟩] (by decide)
    ⟨⟨some (logIdAt 1),.default,"snap-1-1"⟩,_⟩ (by decide +kernel) ⟨Disk.empty,1⟩

open Reference in
/-- A fresh node that installs the snapshot of the first entry hands out version 1 again for the second. -/
theorem install_then_apply_differs : ∃ snapshot installed,
      buildSnapshot (apply (boot Disk.empty) (twoCommands.take 1)).1.disk = .ok snapshot ∧
      installSnapshot (boot Disk.empty) snapshot.info snapshot.data = .ok installed ∧
      (apply (boot Disk.empty) twoCommands).2 = .ok [⟨1⟩,⟨2⟩] ∧
      ¬ SameContents (apply installed (twoCommands.drop 1)).1.disk (apply (boot Disk.empty) twoCommands).1.disk := by
  have observed : (do
      let snapshot ← buildSnapshot (apply (boot Disk.empty) (twoCommands.take 1)).1.disk
      let installed ← installSnapshot (boot Disk.empty) snapshot.info snapshot.data
      pure (initialVersion (apply installed (twoCommands.drop 1)).1.disk)) = Except.ok 1 := by decide +kernel
  obtain ⟨snapshot,built,observed⟩ := bind_ok observed
  obtain ⟨installed,install,observed⟩ := bind_ok observed
  refine ⟨snapshot,installed,built,install,by decide,?_⟩
  intro same
  have versions := initialVersion_congr (same.1 .version (by decide) (by decide))
  rw [Except.ok.inj observed] at versions
  revert versions
  decide

end

open Trace

section
variable [FleetosCore] [Formats] {node last : Node} {log : List Entry} {lastApplied : Option LogId}

inductive Process where
  | down
  | idle (version : UInt64) (remaining : List Entry)
  | prepared (entry : Prepared) (remaining : List Entry)

structure Machine where
  disk : Disk
  process : Process

inductive CrashEvent where
  | start | prepare | commit | crash
  deriving DecidableEq

def LogId.Before : Option LogId → LogId → Bool
  | none, _ => true
  | some earlier, later => earlier.index < later.index

def entriesAfter (lastApplied : Option LogId) (log : List Entry) : List Entry :=
  log.filter fun entry => LogId.Before lastApplied entry.logId

inductive CrashStep (log : List Entry) : Machine → CrashEvent → Machine → Prop where
  | start {disk lastApplied stored} : appliedState disk = .ok (lastApplied,stored) →
      CrashStep log ⟨disk,.down⟩ .start ⟨disk,.idle (initialVersion disk) (entriesAfter lastApplied log)⟩
  | prepare {disk} {version : UInt64} {entry remaining prepared} : prepareEntry ⟨disk,version⟩ entry = .ok prepared →
      CrashStep log ⟨disk,.idle version (entry::remaining)⟩ .prepare ⟨disk,.prepared prepared remaining⟩
  | commit {disk prepared remaining} : CrashStep log ⟨disk,.prepared prepared remaining⟩ .commit
        ⟨commit disk prepared.batch,.idle prepared.version remaining⟩
  | crash {disk process} : CrashStep log ⟨disk,process⟩ .crash ⟨disk,.down⟩

def Process.Follows (node : Node) (rest : List Entry) : Process → Prop
  | .down => True
  | .idle version remaining => version = node.version ∧ remaining = rest
  | .prepared batch remaining => ∃ entry, rest = entry::remaining ∧ prepareEntry node entry = .ok batch

structure Stands (initial : Disk) (machine : Machine) (done rest : List Entry) (node : Node) : Prop where
  replayed : Applies (boot initial) done node
  disk : node.disk = machine.disk
  process : machine.process.Follows node rest

def lastLogId (start : Option LogId) (entries : List Entry) : Option LogId :=
  entries.foldl (fun _ entry => some entry.logId) start

theorem Applies.appliedState (applied : Applies node log last)
    (known : appliedState node.disk = .ok (lastApplied,stored)) :
    ∃ membership, FleetosControl.appliedState last.disk = .ok (lastLogId lastApplied log,membership) := by
  induction applied generalizing lastApplied stored with
  | nil => exact ⟨stored,known⟩
  | cons ok _ ih => exact ih (applyEntry_appliedState ok known)

theorem entriesAfter_done
    (ordered : (done ++ rest).Pairwise fun earlier later => earlier.logId.index < later.logId.index)
    (later : ∀ entry ∈ done ++ rest, LogId.Before lastApplied entry.logId = true) :
    entriesAfter (lastLogId lastApplied done) (done ++ rest) = rest := by
  obtain rfl | ⟨earlier,last,rfl⟩ := List.eq_nil_or_concat' done
  · exact List.filter_eq_self.mpr later
  · obtain ⟨inner,_,across⟩ := List.pairwise_append.mp ordered
    obtain ⟨_,_,before⟩ := List.pairwise_append.mp inner
    have applied : lastLogId lastApplied (earlier ++ [last]) = some last.logId := by
      simp [lastLogId]
    have dropped : (earlier ++ [last]).filter (fun entry => LogId.Before (some last.logId) entry.logId) = [] := by
      rw [List.filter_eq_nil_iff]
      intro entry member
      simp only [LogId.Before,decide_eq_true_eq]
      rcases mem_append.mp member with first | same
      · exact UInt64.lt_asymm (before entry first last mem_cons_self)
      · rw [mem_singleton.mp same]
        exact UInt64.lt_irrefl _
    have kept : rest.filter (fun entry => LogId.Before (some last.logId) entry.logId) = rest := by
      rw [List.filter_eq_self]
      intro entry member
      simpa [LogId.Before] using across last (by simp) entry member
    rw [applied,entriesAfter,List.filter_append,dropped,kept,List.nil_append]

theorem applyEntry_of_prepare (ok : prepareEntry node entry = .ok prepared) :
    applyEntry node entry = .ok (⟨commit node.disk prepared.batch,prepared.version⟩,⟨prepared.version⟩) := by
  simp [applyEntry,ok,Bind.bind,Except.bind,Pure.pure,Except.pure]

section
variable {initial : Disk} {log : List Entry} {lastApplied : Option LogId} {stored : StoredMembership}

theorem stands_step (ordered : log.Pairwise fun earlier later => earlier.logId.index < later.logId.index)
    (known : appliedState initial = .ok (lastApplied,stored))
    (later : ∀ entry ∈ log, LogId.Before lastApplied entry.logId = true) (taken : CrashStep log before event after)
    (stands : ∃ done rest node, log = done ++ rest ∧ Stands initial before done rest node) :
    ∃ done rest node, log = done ++ rest ∧ Stands initial after done rest node := by
  obtain ⟨done,rest,⟨contents,version⟩,rfl,⟨replayed,disk,process⟩⟩ := stands
  cases taken with
  | start read =>
    obtain rfl : contents = _ := disk
    obtain ⟨membership,state⟩ := replayed.appliedState known
    rw [read] at state
    obtain ⟨rfl,rfl⟩ : _ = lastLogId lastApplied done ∧ _ = membership := by simpa using state
    have loaded := replayed.loaded (loaded_boot initial)
    exact ⟨done,rest,⟨contents,version⟩,rfl,replayed,rfl,loaded,entriesAfter_done ordered later⟩
  | prepare ok =>
    obtain rfl : contents = _ := disk
    obtain ⟨rfl,rfl⟩ := process
    exact ⟨done,_,_,rfl,replayed,rfl,_,rfl,ok⟩
  | commit =>
    obtain rfl : contents = _ := disk
    obtain ⟨entry,rfl,ok⟩ := process
    have applied := applyEntry_of_prepare ok
    exact ⟨done ++ [entry],_,_,by simp,replayed.append (.cons applied (.nil _)),rfl,rfl,rfl⟩
  | crash => exact ⟨done,rest,⟨contents,version⟩,rfl,replayed,disk,trivial⟩

end

def auditRecords (version : UInt64) : List Entry → List (UInt64 × AuditRecord)
  | [] => []
  | entry::entries =>
    (auditRecord (version + 1) entry.payload).toList.map (fun record => (version + 1,record)) ++
      auditRecords (version + 1) entries

def Entry.isNormal (entry : Entry) : Bool :=
  match entry.payload with
  | .normal _ => true
  | _ => false

/-- Every entry has consumed one version, and the commands have left one audit record each. -/
structure ExactlyOnce (initial : Disk) (log : List Entry) (final : Disk) : Prop where
  version : initialVersion final = initialVersion initial + UInt64.ofNat log.length
  auditLog : final .auditLog = (initial .auditLog).insertMany
    ((auditRecords (initialVersion initial) log).map fun (version,record) => (u64be version,toAllocvec record))
  distinct : ((auditRecords (initialVersion initial) log).map Prod.fst).Nodup
  commands : (auditRecords (initialVersion initial) log).length = log.countP Entry.isNormal

theorem Applies.auditLog (applied : Applies node log last) : last.disk .auditLog = (node.disk .auditLog).insertMany
      ((auditRecords node.version log).map fun (version,record) => (u64be version,toAllocvec record)) := by
  induction applied with
  | nil => simp [auditRecords]
  | cons ok _ ih =>
    obtain ⟨_,_,_,_,effect⟩ := applyEntry_effect ok
    rw [ih,effect.version,effect.auditLog,auditRecords,auditLogAfter]
    cases auditRecord _ _ with
    | none => simp
    | some record => simp [ExtTreeMap.insertMany_cons]

theorem mem_auditRecords {version other : UInt64} (member : other ∈ (auditRecords version log).map Prod.fst) :
    ∃ steps, 0 < steps ∧ steps ≤ log.length ∧ other = version + UInt64.ofNat steps := by
  induction log generalizing version with
  | nil => simp [auditRecords] at member
  | cons entry entries ih =>
    rw [auditRecords,List.map_append,mem_append] at member
    rcases member with first | rest
    · refine ⟨1,Nat.one_pos,by simp,?_⟩
      simp only [List.map_map,mem_map,Function.comp_apply] at first
      obtain ⟨_,_,rfl⟩ := first
      rfl
    · obtain ⟨steps,_,bound,rfl⟩ := ih rest
      refine ⟨steps + 1,Nat.succ_pos _,by simpa using bound,?_⟩
      rw [UInt64.ofNat_add,UInt64.add_assoc,UInt64.add_comm 1]
      rfl

theorem auditRecords_nodup (version : UInt64) (log : List Entry) (short : log.length ≤ 2^64) :
    ((auditRecords version log).map Prod.fst).Nodup := by
  induction log generalizing version with
  | nil => simp [auditRecords]
  | cons entry entries ih =>
    rw [List.length_cons] at short
    have shorter : entries.length < 2^64 := by omega
    have rest := ih (version + 1) (Nat.le_of_lt shorter)
    rw [auditRecords,List.map_append]
    cases auditRecord (version + 1) entry.payload with
    | none => simpa using rest
    | some record =>
      refine List.nodup_cons.mpr ⟨?_,rest⟩
      intro repeated
      obtain ⟨steps,positive,bound,same⟩ := mem_auditRecords repeated
      have zero : UInt64.ofNat steps = 0 := by
        have cancelled : version + 1 + 0 = version + 1 + UInt64.ofNat steps := by simpa using same
        exact ((UInt64.add_right_inj _).mp cancelled).symm
      have wrapped : steps % 2^64 = 0 := by simpa using congrArg UInt64.toNat zero
      omega

theorem auditRecords_length (version : UInt64) (log : List Entry) :
    (auditRecords version log).length = log.countP Entry.isNormal := by
  induction log generalizing version with
  | nil => rfl
  | cons entry entries ih =>
    rw [auditRecords,List.length_append,ih,List.countP_cons]
    cases payload : entry.payload <;> simp [auditRecord,Entry.isNormal,payload,Nat.add_comm]

theorem length_le_of_ordered (low : Nat) (bound : low ≤ 2^64)
    (ordered : log.Pairwise fun earlier later => earlier.logId.index < later.logId.index)
    (above : ∀ entry ∈ log, low ≤ entry.logId.index.toNat) : low + log.length ≤ 2^64 := by
  induction log generalizing low with
  | nil => simpa using bound
  | cons entry entries ih =>
    obtain ⟨first,rest⟩ := List.pairwise_cons.mp ordered
    have here := above entry mem_cons_self
    have top := entry.logId.index.toNat_lt
    have next := ih (entry.logId.index.toNat + 1) (by omega) rest (by
      intro other member
      exact UInt64.lt_iff_toNat_lt.mp (first other member))
    rw [List.length_cons]
    omega

theorem Applies.exactlyOnce (ordered : log.Pairwise fun earlier later => earlier.logId.index < later.logId.index)
    (applied : Applies (boot initial) log last) : ExactlyOnce initial log last.disk := by
  have short : 0 + log.length ≤ 2^64 := length_le_of_ordered 0 (Nat.zero_le _) ordered (fun _ _ => Nat.zero_le _)
  have loaded : initialVersion last.disk = last.version := applied.loaded (loaded_boot initial)
  refine ⟨?_,applied.auditLog,auditRecords_nodup _ _ (by omega),auditRecords_length _ _⟩
  rw [loaded,applied.version,boot_version]

theorem Applies.apply_append (applied : Applies node first middle) (second : List Entry) :
    (apply node (first ++ second)).1 = (apply middle second).1 := by
  induction applied with
  | nil => rfl
  | cons ok _ ih => simpa only [List.cons_append,apply,ok] using ih

/-- Crashes leave a prefix of the replay, and re-applying from the persisted log id ends in the whole. -/
theorem crash_recovery_exact (initial : Disk) (log : List Entry) (lastApplied : Option LogId)
    (stored : StoredMembership) (ordered : log.Pairwise fun earlier later => earlier.logId.index < later.logId.index)
    (known : appliedState initial = .ok (lastApplied,stored))
    (later : ∀ entry ∈ log, LogId.Before lastApplied entry.logId = true) (machine : Machine)
    (trace : List (Transition Machine CrashEvent)) (run : Run (CrashStep log) ⟨initial,.down⟩ trace machine) :
    (∃ k ≤ log.length, machine.disk = (apply (boot initial) (log.take k)).1.disk) ∧
      (∃ lastApplied stored, appliedState machine.disk = .ok (lastApplied,stored) ∧
        (apply (boot machine.disk) (entriesAfter lastApplied log)).1.disk = (apply (boot initial) log).1.disk) ∧
      (∀ version, machine.process = .idle version [] → machine.disk = (apply (boot initial) log).1.disk) ∧
      (∀ responses, (apply (boot initial) log).2 = .ok responses →
        ExactlyOnce initial log (apply (boot initial) log).1.disk) := by
  have invariant := run.invariant
    (fun machine => ∃ done rest node, log = done ++ rest ∧ Stands initial machine done rest node) (fun _ => True)
    (fun _ _ _ taken _ stands => stands_step ordered known later taken stands)
    ⟨[],log,boot initial,rfl,.nil _,rfl,trivial⟩ (fun _ _ => trivial)
  obtain ⟨done,rest,node,rfl,⟨replayed,disk,process⟩⟩ := invariant.2
  obtain ⟨responses,replay⟩ := replayed.apply_eq
  obtain ⟨membership,state⟩ := replayed.appliedState known
  have rebooted : boot machine.disk = node := by
    have loaded : initialVersion node.disk = node.version := replayed.loaded (loaded_boot initial)
    rw [← disk,boot,loaded]
  refine ⟨⟨done.length,by simp,?_⟩,⟨_,membership,disk ▸ state,?_⟩,?_,?_⟩
  · rw [List.take_left,replay,disk]
  · rw [rebooted,entriesAfter_done ordered later,replayed.apply_append]
  · intro version idle
    rw [idle] at process
    obtain ⟨_,rfl⟩ := process
    rw [replayed.apply_append]
    exact disk.symm
  · intro responses applied
    exact (applies_of_apply applied).exactlyOnce ordered

end

open Reference in
theorem crash_around_first_commit : ∃ machine trace, Run (CrashStep twoCommands) ⟨Disk.empty,.down⟩ trace machine ∧
    trace.map Transition.label = [.start,.prepare,.crash,.start,.prepare,.commit,.crash] ∧
    ∃ lastApplied stored, appliedState machine.disk = .ok (lastApplied,stored) ∧
      (apply (boot machine.disk) (entriesAfter lastApplied twoCommands)).1.disk =
        (apply (boot Disk.empty) twoCommands).1.disk := by
  have whole : entriesAfter none twoCommands = twoCommands := rfl
  have start : CrashStep twoCommands ⟨Disk.empty,.down⟩ .start ⟨Disk.empty,.idle 0 (entriesAfter none twoCommands)⟩ :=
    .start appliedState_empty
  rw [whole] at start
  have prepare : ∃ prepared, prepareEntry (boot Disk.empty) (commandAt 1 (.deleteTenant "acme")) = .ok prepared :=
    ⟨_,rfl⟩
  obtain ⟨prepared,prepare⟩ := prepare
  have prepare : CrashStep twoCommands ⟨Disk.empty,.idle 0 twoCommands⟩ .prepare
      ⟨Disk.empty,.prepared prepared [commandAt 2 (.deleteTenant "acme")]⟩ := .prepare prepare
  have run : Run (CrashStep twoCommands) ⟨Disk.empty,.down⟩ _ _ :=
    .cons start (.cons prepare (.cons .crash (.cons start (.cons prepare (.cons .commit (.cons .crash (.nil _)))))))
  have recovered := (crash_recovery_exact Disk.empty twoCommands none .default (by decide) appliedState_empty
    (by decide) _ _ run).2.1
  exact ⟨_,_,run,rfl,recovered⟩

section
variable [FleetosCore] [Formats] {before after : Node} {event : VersionEvent}

inductive VersionEvent where
  | applied (entry : Entry) (version : UInt64)
  | installed (info : SnapshotMeta) (data : Bytes)
  | restarted

inductive VersionStep : Node → VersionEvent → Node → Prop where
  | applied {before after entry response} :
      applyEntry before entry = .ok (after,response) → VersionStep before (.applied entry response.version) after
  | installed {before after info data} :
      installSnapshot before info data = .ok after → VersionStep before (.installed info data) after
  | restarted {before : Node} : VersionStep before .restarted (boot before.disk)

def handedOut (transition : Transition Node VersionEvent) : Option UInt64 :=
  match transition.label with
  | .applied _ version => some version
  | _ => none

/-- The counter never falls below the persisted version, and no audit record is overwritten. -/
structure VersionsSafe (trace : List (Transition Node VersionEvent)) : Prop where
  increasing : (trace.filterMap handedOut).Pairwise (· < ·)
  current : ∀ transition ∈ trace, initialVersion transition.before.disk ≤ transition.before.version ∧
    initialVersion transition.after.disk ≤ transition.after.version
  kept : ∀ transition ∈ trace, (handedOut transition).isSome → ∀ key record : Bytes,
    (transition.before.disk .auditLog)[key]? = some record → (transition.after.disk .auditLog)[key]? = some record

structure Numbered (node : Node) : Prop where
  persisted : initialVersion node.disk ≤ node.version
  keys : ∀ key ∈ node.disk .auditLog, ∃ version ≤ node.version, key = u64be version

/-- No entry exhausts the counter, no snapshot is ahead of it, and a restart finds it persisted. -/
def CounterCovers (transition : Transition Node VersionEvent) : Prop :=
  match transition.label with
  | .applied _ _ => transition.before.version < transition.before.version + 1
  | .installed _ data => ∀ snapshot : ApplicationSnapshot, fromBytes data = .ok snapshot →
      initialVersion snapshot.restore ≤ transition.before.version ∧
        ∀ key ∈ snapshot.restore .auditLog, ∃ version ≤ transition.before.version, key = u64be version
  | .restarted => initialVersion transition.before.disk = transition.before.version

theorem mem_auditLogAfter {version : UInt64} (member : key ∈ auditLogAfter version entry contents) :
    key = u64be version ∨ key ∈ contents := by
  unfold auditLogAfter at member
  split at member
  · rw [ExtTreeMap.mem_insert,LawfulEqCmp.compare_eq_iff_eq] at member
    exact member.imp_left Eq.symm
  · exact .inr member

theorem Numbered.applied (numbered : Numbered before) (room : before.version < before.version + 1)
    (ok : applyEntry before entry = .ok (after,response)) :
    Numbered after := by
  obtain ⟨_,_,_,_,effect⟩ := applyEntry_effect ok
  have loaded : initialVersion after.disk = after.version := applyEntry_loaded ok
  refine ⟨UInt64.le_of_eq loaded,?_⟩
  intro key member
  rw [effect.auditLog] at member
  rw [effect.version]
  rcases mem_auditLogAfter member with rfl | earlier
  · exact ⟨_,UInt64.le_refl _,rfl⟩
  · obtain ⟨version,below,rfl⟩ := numbered.keys key earlier
    exact ⟨version,UInt64.le_trans below (UInt64.le_of_lt room),rfl⟩

theorem Numbered.installed (below : CounterCovers ⟨before,.installed info data,after⟩)
    (ok : installSnapshot before info data = .ok after) :
    Numbered after ∧ after.version = before.version := by
  obtain ⟨snapshot,decoded,effect⟩ := installSnapshot_effect ok
  obtain ⟨version,keys⟩ := below snapshot decoded
  have restoredVersion := effect.restored .version (by decide) (by decide)
  have restoredAudit := effect.restored .auditLog (by decide) (by decide)
  refine ⟨⟨?_,?_⟩,effect.version⟩
  · rw [initialVersion_congr restoredVersion,effect.version]
    exact version
  · rw [restoredAudit,effect.version]
    exact keys

theorem Numbered.step (taken : VersionStep before event after) (below : CounterCovers ⟨before,event,after⟩)
    (numbered : Numbered before) : Numbered after := by
  cases taken with
  | applied ok => exact numbered.applied below ok
  | installed ok => exact (Numbered.installed below ok).1
  | restarted =>
    have same : initialVersion before.disk = before.version := below
    refine ⟨UInt64.le_refl _,?_⟩
    rw [boot_version,same]
    exact numbered.keys

theorem version_le_of_step (taken : VersionStep before event after) (below : CounterCovers ⟨before,event,after⟩) :
    before.version ≤ after.version ∧ ∀ version, handedOut ⟨before,event,after⟩ = some version →
      before.version < version ∧ version = after.version := by
  cases taken with
  | applied ok =>
    have room : before.version < before.version + 1 := below
    obtain ⟨_,_,_,rfl,effect⟩ := applyEntry_effect ok
    rw [effect.version]
    refine ⟨UInt64.le_of_lt room,?_⟩
    rintro version ⟨⟩
    exact ⟨room,rfl⟩
  | installed ok =>
    rw [(Numbered.installed below ok).2]
    exact ⟨UInt64.le_refl _,by rintro _ ⟨⟩⟩
  | restarted =>
    have same : initialVersion before.disk = before.version := below
    rw [boot_version,same]
    exact ⟨UInt64.le_refl _,by rintro _ ⟨⟩⟩

theorem handedOut_increasing (run : Run VersionStep first trace last)
    (below : ∀ transition ∈ trace, CounterCovers transition) :
    (∀ version ∈ trace.filterMap handedOut, first.version < version) ∧
      (trace.filterMap handedOut).Pairwise (· < ·) := by
  induction run with
  | nil => simp
  | cons taken rest ih =>
    obtain ⟨above,increasing⟩ := ih (fun transition member => below transition (mem_cons_of_mem _ member))
    obtain ⟨grows,handed⟩ := version_le_of_step taken (below _ mem_cons_self)
    have later := fun version member => UInt64.lt_of_le_of_lt grows (above version member)
    rw [List.filterMap_cons]
    split
    case h_1 => exact ⟨later,increasing⟩
    case h_2 version out =>
      obtain ⟨greater,same⟩ := handed version out
      refine ⟨?_,List.pairwise_cons.mpr ⟨?_,increasing⟩⟩
      · intro other member
        rcases mem_cons.mp member with rfl | member
        · exact greater
        · exact later other member
      · rw [same]
        exact above

theorem audit_kept_of_step (taken : VersionStep before event after) (below : CounterCovers ⟨before,event,after⟩)
    (numbered : Numbered before) (applied : (handedOut ⟨before,event,after⟩).isSome) (key record : Bytes)
    (present : (before.disk .auditLog)[key]? = some record) : (after.disk .auditLog)[key]? = some record := by
  cases taken with
  | applied ok =>
    have room : before.version < before.version + 1 := below
    obtain ⟨_,_,_,_,effect⟩ := applyEntry_effect ok
    have member : key ∈ before.disk .auditLog := by
      rw [ExtTreeMap.mem_iff_isSome_getElem?,present]
      rfl
    obtain ⟨version,old,rfl⟩ := numbered.keys key member
    have fresh : u64be (before.version + 1) ≠ u64be version := by
      intro same
      rw [u64be_inj.mp same] at room
      exact absurd old (UInt64.not_le.mpr room)
    rw [effect.auditLog]
    unfold auditLogAfter
    split
    · rw [ExtTreeMap.getElem?_insert]
      simp [fresh,present]
    · exact present
  | installed ok => cases applied
  | restarted => cases applied

/-- In every run whose steps keep the counter at or above what is stored, the
versions handed out are safe. -/
theorem versions_safe_of_run (initial last : Node) (trace : List (Transition Node VersionEvent))
    (start : Numbered initial) (run : Run VersionStep initial trace last)
    (below : ∀ transition ∈ trace, CounterCovers transition) : VersionsSafe trace := by
  have states := (run.invariant Numbered CounterCovers (fun _ _ _ taken meets numbered => numbered.step taken meets)
    start below).1
  refine ⟨(handedOut_increasing run below).2,?_,?_⟩
  · intro transition member
    exact ⟨(states transition member).1.persisted,(states transition member).2.persisted⟩
  · intro transition member applied key record present
    exact audit_kept_of_step (run.step_of_mem transition member) (below transition member)
      (states transition member).1 applied key record present

end

theorem numbered_fresh : Numbered (boot Disk.empty) := by
  refine ⟨UInt64.le_refl _,?_⟩
  intro key member
  simp [Disk.empty] at member

open Reference in
theorem versions_safe_across_restart : ∃ trace last, Run VersionStep (boot Disk.empty) trace last ∧
    trace.filterMap handedOut = [1,2] ∧ VersionsSafe trace := by
  obtain ⟨one,response,first⟩ := applyEntry_of_payload (boot Disk.empty) (commandAt 1 (.deleteTenant "acme")) rfl
  obtain ⟨_,_,_,rfl,effect⟩ := applyEntry_effect first
  have loaded : initialVersion one.disk = one.version := applyEntry_loaded first
  have counter : one.version = 1 := effect.version
  obtain ⟨two,response,second⟩ := applyEntry_of_payload (boot one.disk) (commandAt 2 (.deleteTenant "acme")) rfl
  obtain ⟨_,_,_,rfl,_⟩ := applyEntry_effect second
  have run : Run VersionStep (boot Disk.empty) _ two :=
    .cons (.applied first) (.cons .restarted (.cons (.applied second) (.nil two)))
  refine ⟨_,two,run,?_,versions_safe_of_run _ _ _ numbered_fresh run ?_⟩
  · simp only [List.filterMap_cons,handedOut,List.filterMap_nil,boot_version,loaded,counter]
    rfl
  · intro transition member
    simp only [mem_cons,not_mem_nil,or_false] at member
    rcases member with rfl | rfl | rfl
    · exact (by decide : (0 : UInt64) < 0 + 1)
    · exact loaded
    · change (boot one.disk).version < (boot one.disk).version + 1
      rw [boot_version,loaded,counter]
      decide

open Reference in
/-- The next audit record goes over the first of the two that came with the snapshot. -/
theorem install_exposes_audit_records : ∃ snapshot installed last,
    buildSnapshot (apply (boot Disk.empty) twoCommands).1.disk = .ok snapshot ∧
    Run VersionStep (boot Disk.empty) [⟨boot Disk.empty,.installed snapshot.info snapshot.data,installed⟩,
      ⟨installed,.applied (commandAt 3 (.deleteSagRule "open")) 1,last⟩] last ∧
    initialVersion installed.disk = 2 ∧ installed.version = 0 ∧
    (∃ old new, (installed.disk .auditLog)[u64be 1]? = some old ∧ (last.disk .auditLog)[u64be 1]? = some new ∧
      old ≠ new) ∧
    ¬ VersionsSafe [⟨boot Disk.empty,.installed snapshot.info snapshot.data,installed⟩,
      ⟨installed,.applied (commandAt 3 (.deleteSagRule "open")) 1,last⟩] := by
  have observed : (do
      let snapshot ← buildSnapshot (apply (boot Disk.empty) twoCommands).1.disk
      let installed ← installSnapshot (boot Disk.empty) snapshot.info snapshot.data
      let (last,response) ← applyEntry installed (commandAt 3 (.deleteSagRule "open"))
      pure ([initialVersion installed.disk,installed.version,response.version],
        [(installed.disk .auditLog)[u64be 1]?,(last.disk .auditLog)[u64be 1]?])) =
      Except.ok ([2,0,1],[some (toAllocvec (⟨1,"","system","DeleteTenant","",0⟩ : AuditRecord)),
        some (toAllocvec (⟨1,"","system","DeleteSagRule","",0⟩ : AuditRecord))]) := by decide +kernel
  obtain ⟨snapshot,built,observed⟩ := bind_ok observed
  obtain ⟨installed,install,observed⟩ := bind_ok observed
  obtain ⟨⟨last,⟨version⟩⟩,applied,observed⟩ := bind_ok observed
  have values := Except.ok.inj observed
  simp only [Prod.mk.injEq,List.cons.injEq,and_true] at values
  obtain ⟨⟨persisted,counter,rfl⟩,received,rewritten⟩ := values
  have run : Run VersionStep (boot Disk.empty) [⟨boot Disk.empty,.installed snapshot.info snapshot.data,installed⟩,
      ⟨installed,.applied (commandAt 3 (.deleteSagRule "open")) 1,last⟩] last :=
    .cons (.installed install) (.cons (.applied applied) (.nil last))
  refine ⟨snapshot,installed,last,built,run,persisted,counter,⟨_,_,received,rewritten,by decide⟩,?_⟩
  intro safe
  have low := (safe.current _ mem_cons_self).2
  rw [persisted,counter] at low
  revert low
  decide

end FleetosControl
