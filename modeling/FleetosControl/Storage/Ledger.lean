import FleetosControl.Raft.StateMachine

/-! What the commands meant by the bytes in the workloads keyspace: for every key the last thing
that was put there. -/
namespace FleetosControl
open Wire KeyValue Trace Std

inductive Stored where
  | workload (record : WorkloadSpecRecord)
  | cron (record : CronWorkloadRecord)
  | applied (bytes : Bytes)
  deriving DecidableEq

abbrev Ledger := ExtTreeMap Bytes Stored compare

theorem commit_first (disk : Disk) {rest} (own : write.table = .workloads)
    (elsewhere : ∀ other ∈ rest, other.table ≠ .workloads) :
    commit disk (write::rest) .workloads = write.on (disk .workloads) := by
  rw [commit_cons,commit_frame _ _ _ elsewhere,← own,perform_same]

section
variable [FleetosCore]

namespace Ledger

def fileUpdate (ledger : Ledger) (update : ManifestUpdate) : Ledger :=
  if manifestKeyspace update.targetKeyspace = some .workloads then
    ledger.insert update.targetKey (.applied update.newRecordBytes)
  else ledger

def file (ledger : Ledger) : FleetosCommand → Ledger
  | .submitWorkloadSpec record | .scaleWorkload record | .resizeWorkload record | .triggerCronWorkload record _ =>
    ledger.insert (workloadKey record.tenantId record.workloadId) (.workload record)
  | .submitCronWorkload record _ =>
    ledger.insert (asBytes ("cron:" ++ record.tenantId ++ ":" ++ record.cronWorkloadId)) (.cron record)
  | .deleteWorkload tenantId workloadId => ledger.erase (workloadKey tenantId workloadId)
  | .applyManifests updates => updates.foldl fileUpdate ledger
  | _ => ledger

def fileEntry (ledger : Ledger) (entry : Entry) : Ledger :=
  match entry.payload with
  | .normal audited => ledger.file audited.cmd
  | _ => ledger

def after (trace : List (Transition Node Entry)) : Ledger :=
  trace.foldl (fun ledger transition => ledger.fileEntry transition.label) ∅

end Ledger

inductive FleetosCommand.Files : FleetosCommand → Bytes → Stored → Prop where
  | submit (record : WorkloadSpecRecord) :
      Files (.submitWorkloadSpec record) (workloadKey record.tenantId record.workloadId) (.workload record)
  | scale (record : WorkloadSpecRecord) :
      Files (.scaleWorkload record) (workloadKey record.tenantId record.workloadId) (.workload record)
  | resize (record : WorkloadSpecRecord) :
      Files (.resizeWorkload record) (workloadKey record.tenantId record.workloadId) (.workload record)
  | trigger (record : WorkloadSpecRecord) (checkpoint : CronCheckpointRecord) :
      Files (.triggerCronWorkload record checkpoint) (workloadKey record.tenantId record.workloadId) (.workload record)
  | cron (record : CronWorkloadRecord) (checkpoint : CronCheckpointRecord) :
      Files (.submitCronWorkload record checkpoint)
        (asBytes ("cron:" ++ record.tenantId ++ ":" ++ record.cronWorkloadId)) (.cron record)
  | update : update ∈ updates → manifestKeyspace update.targetKeyspace = some .workloads →
      Files (.applyManifests updates) update.targetKey (.applied update.newRecordBytes)

def Entry.Files (entry : Entry) (key : Bytes) (stored : Stored) : Prop :=
  ∃ audited, entry.payload = .normal audited ∧ audited.cmd.Files key stored

namespace Ledger

variable {ledger : Ledger} {key : Bytes} {stored : Stored} {trace : List (Transition Node Entry)}

theorem updates_cases {updates : List ManifestUpdate}
    (found : (updates.foldl fileUpdate ledger)[key]? = some stored) :
    ledger[key]? = some stored ∨ FleetosCommand.Files (.applyManifests updates) key stored := by
  induction updates generalizing ledger with
  | nil => exact .inl found
  | cons update updates ih =>
    rcases ih found with here | later
    · unfold fileUpdate at here
      split at here
      case isTrue target =>
        rcases insert_eq_some.mp here with ⟨rfl,rfl⟩ | ⟨_,kept⟩
        · exact .inr (.update mem_cons_self target)
        · exact .inl kept
      · exact .inl here
    · cases later with
      | update member target => exact .inr (.update (mem_cons_of_mem _ member) target)

theorem file_cases (found : (ledger.file cmd)[key]? = some stored) :
    ledger[key]? = some stored ∨ cmd.Files key stored := by
  unfold file at found
  split at found
  case h_7 updates => exact updates_cases found
  case h_8 => exact .inl found
  case h_6 tenantId workloadId =>
    rw [ExtTreeMap.getElem?_erase] at found
    split at found
    · cases found
    · exact .inl found
  all_goals
    rcases insert_eq_some.mp found with ⟨rfl,rfl⟩ | ⟨_,kept⟩
    · exact .inr (by constructor)
    · exact .inl kept

theorem fileEntry_cases (found : (ledger.fileEntry entry)[key]? = some stored) :
    ledger[key]? = some stored ∨ entry.Files key stored := by
  unfold fileEntry at found
  split at found
  case h_1 audited normal =>
    rcases file_cases found with kept | filed
    · exact .inl kept
    · exact .inr ⟨audited,normal,filed⟩
  · exact .inl found

theorem filed_cases
    (found : (trace.foldl (fun ledger transition => ledger.fileEntry transition.label) ledger)[key]? = some stored) :
    ledger[key]? = some stored ∨ ∃ transition ∈ trace, transition.label.Files key stored := by
  induction trace generalizing ledger with
  | nil => exact .inl found
  | cons transition trace ih =>
    rcases ih found with here | ⟨later,member,filed⟩
    · rcases fileEntry_cases here with kept | filed
      · exact .inl kept
      · exact .inr ⟨transition,mem_cons_self,filed⟩
    · exact .inr ⟨later,mem_cons_of_mem _ member,filed⟩

theorem after_cases (found : (after trace)[key]? = some stored) :
    ∃ transition ∈ trace, transition.label.Files key stored :=
  (filed_cases found).resolve_left (by simp)

end Ledger

variable [Formats]

def Stored.bytes : Stored → Bytes
  | .workload record => toAllocvec record
  | .cron record => toAllocvec record
  | .applied bytes => bytes

namespace Ledger

def contents (ledger : Ledger) : Contents := ledger.map fun _ stored => stored.bytes

@[simp] theorem contents_lookup (ledger : Ledger) (key : Bytes) :
    ledger.contents[key]? = ledger[key]?.map Stored.bytes := by
  simp [contents]

theorem contents_toList (ledger : Ledger) :
    ledger.contents.toList = ledger.toList.map fun entry => (entry.1,entry.2.bytes) := by
  rw [contents,ExtTreeMap.toList_map]

@[simp] theorem contents_insert (ledger : Ledger) (key : Bytes) (stored : Stored) :
    contents (ledger.insert key stored) = ledger.contents.insert key stored.bytes := by
  apply ExtTreeMap.ext_getElem?
  intro other
  simp only [contents_lookup,ExtTreeMap.getElem?_insert]
  split <;> rfl

@[simp] theorem contents_erase (ledger : Ledger) (key : Bytes) :
    contents (ledger.erase key) = ledger.contents.erase key := by
  apply ExtTreeMap.ext_getElem?
  intro other
  simp only [contents_lookup,ExtTreeMap.getElem?_erase]
  split <;> rfl

variable {write : Write} {ledger : Ledger} {disk : Disk} {before last : Node} {entry : Entry}
  {trace : List (Transition Node Entry)}

theorem commit_freed (disk : Disk) (own : write.table = .workloads) (tenantId workloadId : String)
    (placements : List Placement) :
    commit disk (write::placements.flatMap (freePlacement tenantId workloadId)) .workloads =
      write.on (disk .workloads) := by
  apply commit_first disk own
  intro other member named
  have freed := within_freed tenantId workloadId placements other member
  rw [named] at freed
  revert freed
  decide

theorem scaleWorkload_stores (disk : Disk) (record : WorkloadSpecRecord) :
    (commit disk (scaleWorkload disk record) .workloads)[workloadKey record.tenantId record.workloadId]? =
      some (toAllocvec record) := by
  rw [scaleWorkload,commit_freed disk rfl]
  exact ExtTreeMap.getElem?_insert_self

theorem updates_refine (holds : disk .workloads = ledger.contents) (updates : List ManifestUpdate) :
    commit disk (applyManifests updates) .workloads = contents (updates.foldl fileUpdate ledger) := by
  induction updates generalizing disk ledger with
  | nil => exact holds
  | cons update updates ih =>
    rw [List.foldl_cons,applyManifests,List.filterMap_cons]
    unfold fileUpdate
    cases target : manifestKeyspace update.targetKeyspace with
    | none => exact ih holds
    | some keyspace =>
      simp only [Option.map_some,commit_cons]
      apply ih
      by_cases own : keyspace = .workloads
      · subst own
        simp [perform,Write.on,holds,Stored.bytes]
      · rw [perform_other _ (.insert keyspace _ _) _ own,if_neg (by simpa using own)]
        exact holds

theorem file_refines (holds : disk .workloads = ledger.contents) (ok : applyCommand disk cmd = .ok (writes,kind)) :
    commit disk writes .workloads = (ledger.file cmd).contents := by
  by_cases touched : Keyspace.workloads ∈ cmd.touches
  · cases cmd
    case submitWorkloadSpec record =>
      cases ok
      rw [commit_first disk rfl (by simp),file,contents_insert,← holds]
      rfl
    case resizeWorkload record =>
      cases ok
      rw [commit_first disk rfl (by simp),file,contents_insert,← holds]
      rfl
    case scaleWorkload record =>
      cases ok
      rw [scaleWorkload,commit_freed disk rfl,file,contents_insert,← holds]
      rfl
    case triggerCronWorkload record checkpoint =>
      cases ok
      rw [commit_first disk rfl (by simp [put]),file,contents_insert,← holds]
      rfl
    case submitCronWorkload record checkpoint =>
      cases ok
      rw [commit_first disk rfl (by simp [put]),file,contents_insert,← holds]
      rfl
    case deleteWorkload tenantId workloadId =>
      cases ok
      rw [deleteWorkload,commit_freed disk rfl,file,contents_erase,← holds]
      rfl
    case applyManifests updates =>
      cases ok
      exact updates_refine holds updates
    all_goals exact absurd touched (by simp [touches])
  · have same : ledger.file cmd = ledger := by
      cases cmd <;> first | rfl | exact absurd (by simp [touches]) touched
    rw [applyCommand_frame ok .workloads touched,same]
    exact holds

theorem fileEntry_refines {after} (holds : before.disk .workloads = ledger.contents)
    (advances : Advances before entry after) : after.disk .workloads = (ledger.fileEntry entry).contents := by
  rcases advances.cases with ⟨audited,writes,kind,normal,ok,contents⟩ | ⟨other,same⟩
  · simp only [contents .workloads rfl,fileEntry,normal]
    exact file_refines holds ok
  · have skipped : ledger.fileEntry entry = ledger := by
      unfold fileEntry
      cases payload : entry.payload with
      | normal audited => exact absurd payload (other audited)
      | _ => rfl
    rw [same .workloads rfl,skipped]
    exact holds

theorem exists_contents (contents : Contents) : ∃ ledger : Ledger, contents = ledger.contents ∧
    ∀ (key : Bytes) (stored : Stored), ledger[key]? = some stored → contents[key]? = some stored.bytes := by
  have same : contents = Ledger.contents (contents.map fun _ bytes => .applied bytes) := by
    apply ExtTreeMap.ext_getElem?
    intro key
    rw [contents_lookup,ExtTreeMap.getElem?_map,Option.map_map]
    exact (Option.map_id' (x := contents[key]?)).symm
  refine ⟨_,same,fun key stored found => ?_⟩
  rw [same,contents_lookup,found,Option.map_some]

theorem found_cases {after} (advances : Advances before entry after) {key bytes}
    (found : (after.disk .workloads)[key]? = some bytes) :
    (before.disk .workloads)[key]? = some bytes ∨ ∃ stored, entry.Files key stored := by
  obtain ⟨ledger,holds,lookup⟩ := exists_contents (before.disk .workloads)
  rw [fileEntry_refines holds advances,contents_lookup,map_eq_some_iff] at found
  obtain ⟨stored,there,rfl⟩ := found
  rcases fileEntry_cases there with kept | filed
  · exact .inl (lookup key stored kept)
  · exact .inr ⟨stored,filed⟩

theorem run_from {first : Node} (holds : first.disk .workloads = ledger.contents)
    (run : Run Advances first trace last) :
    last.disk .workloads =
      contents (trace.foldl (fun ledger transition => ledger.fileEntry transition.label) ledger) := by
  induction run generalizing ledger with
  | nil => exact holds
  | cons taken _ ih => exact ih (fileEntry_refines holds taken)

theorem after_refines (run : Run Advances (boot Disk.empty) trace last) : last.disk .workloads = (after trace).contents :=
  run_from (by simp [contents,Disk.empty]) run

end Ledger

end

open Reference

def requested (cmd : FleetosCommand) (target : String) : AuditedCommand :=
  ⟨cmd,some ((adminServer Disk.empty).buildAuditContext fleetctlProxy "req-1" target)⟩

def submitShop (spec : WorkloadSpec) : AuditedCommand :=
  requested (.submitWorkloadSpec ⟨spec.tenantId,spec.workloadId,encodeWorkloadSpec spec,[]⟩) spec.workloadId

def takenFirst (audited : AuditedCommand) : Node := (apply (boot Disk.empty) [⟨logIdAt 1,.normal audited⟩]).1

def firstStep (audited : AuditedCommand) : List (Transition Node Entry) :=
  [⟨boot Disk.empty,⟨logIdAt 1,.normal audited⟩,takenFirst audited⟩]

theorem first_run (ok : (applyEntry (boot Disk.empty) ⟨logIdAt 1,.normal audited⟩).isOk = true) :
    Run Advances (boot Disk.empty) (firstStep audited) (takenFirst audited) := .cons (advances_apply ok) (.nil _)

end FleetosControl
