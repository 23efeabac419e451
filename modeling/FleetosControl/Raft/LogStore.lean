import FleetosControl.Lib.Selection
import FleetosControl.Raft.CrashRecovery

/-! The Raft log: entries under their big-endian index and the watermark of the last purge, read
against a list of entries in index order. -/
namespace FleetosControl
open Wire KeyValue Std

def lastPurgedKey : Bytes := asBytes "last_purged"

structure LogState where
  lastPurgedLogId : Option LogId
  lastLogId : Option LogId
  deriving DecidableEq

def lastKeyValue (contents : Contents) : Option (Bytes × Bytes) :=
  contents.keys.getLast?.bind fun key => contents[key]?.map fun value => (key,value)

-- `range(index..)` and `range(..=index)` over the keys of the log
def keysFrom (disk : Disk) (index : UInt64) : List Bytes :=
  (disk .raftLog).keys.filter fun key => (compare key (u64be index)).isGE

def keysUpTo (disk : Disk) (index : UInt64) : List Bytes :=
  (disk .raftLog).keys.filter fun key => (compare key (u64be index)).isLE

def truncateLog (disk : Disk) (logId : LogId) : Disk :=
  commit disk ((keysFrom disk logId.index).map fun key => .remove .raftLog key)

section
variable [FleetosCore] [Formats] {disk : Disk} {log : RefLog}

def appendLog (disk : Disk) (entries : List Entry) : Disk :=
  commit disk (entries.map fun entry => put .raftLog (u64be entry.logId.index) entry)

def purgeLog (disk : Disk) (logId : LogId) : Disk :=
  commit disk ((keysUpTo disk logId.index).map (fun key => .remove .raftLog key) ++
    [put .raftLogMeta lastPurgedKey logId])

def lastPurged (disk : Disk) : Except StorageError (Option LogId) :=
  match (disk .raftLogMeta)[lastPurgedKey]? with
  | some bytes => ((fromBytes bytes).mapError .readLogs).map some
  | none => .ok none

def getLogState (disk : Disk) : Except StorageError LogState := do
  let lastLogId := (lastKeyValue (disk .raftLog)).bind fun (_,value) =>
    (fromBytes (α := Entry) value).toOption.map Entry.logId
  let purged ← lastPurged disk
  pure ⟨purged,lastLogId⟩

inductive LogCall where
  | append (entries : List Entry)
  | truncate (logId : LogId)
  | purge (logId : LogId)

def LogCall.run (disk : Disk) : LogCall → Disk
  | .append entries => appendLog disk entries
  | .truncate logId => truncateLog disk logId
  | .purge logId => purgeLog disk logId

structure RefLog where
  entries : List Entry
  purged : Option LogId

namespace RefLog

def empty : RefLog := ⟨[],none⟩

def run (log : RefLog) : LogCall → RefLog
  | .append entries => { log with entries := log.entries ++ entries }
  | .truncate logId => { log with entries := log.entries.filter fun entry => entry.logId.index < logId.index }
  | .purge logId => ⟨log.entries.filter fun entry => logId.index < entry.logId.index,some logId⟩

/-- Entries are appended in index order, nothing purged is truncated, and the watermark does not move back. -/
def Allows (log : RefLog) : LogCall → Prop
  | .append entries =>
    (log.entries ++ entries).Pairwise (fun earlier later => earlier.logId.index < later.logId.index) ∧
      ∀ entry ∈ entries, LogId.Before log.purged entry.logId = true
  | .truncate logId => LogId.Before log.purged logId = true
  | .purge logId => ∀ purged, log.purged = some purged → purged.index ≤ logId.index

/-- The last stored entry's, or the watermark when every entry has been purged. -/
def lastLogId (log : RefLog) : Option LogId :=
  match log.entries.getLast? with
  | some entry => some entry.logId
  | none => log.purged

end RefLog

inductive Calls : RefLog → List LogCall → RefLog → Prop where
  | nil (log : RefLog) : Calls log [] log
  | cons {log last : RefLog} {call : LogCall} {calls : List LogCall} :
      log.Allows call → Calls (log.run call) calls last → Calls log (call::calls) last

structure Holds (disk : Disk) (log : RefLog) : Prop where
  ordered : log.entries.Pairwise fun earlier later => earlier.logId.index < later.logId.index
  unpurged : ∀ entry ∈ log.entries, LogId.Before log.purged entry.logId = true
  stored : ∀ key, (disk .raftLog)[key]? =
    (log.entries.find? fun entry => u64be entry.logId.index = key).map toAllocvec
  watermark : (disk .raftLogMeta)[lastPurgedKey]? = log.purged.map toAllocvec

structure StoredEntries (disk : Disk) (entries : List Entry) : Prop where
  ordered : entries.Pairwise fun earlier later => earlier.logId.index < later.logId.index
  stored : ∀ key, (disk .raftLog)[key]? = (entries.find? fun entry => u64be entry.logId.index = key).map toAllocvec

theorem Holds.entries (holds : Holds disk log) : StoredEntries disk log.entries := ⟨holds.ordered,holds.stored⟩

theorem holds_fresh (log : disk .raftLog = ∅) (meta' : (disk .raftLogMeta)[lastPurgedKey]? = none) :
    Holds disk .empty := by
  refine ⟨.nil,by simp [RefLog.empty],?_,by simpa [RefLog.empty] using meta'⟩
  intro key
  simp [log,RefLog.empty]

variable {entries : List Entry}

theorem StoredEntries.append_one (log : StoredEntries disk entries) (entry : Entry)
    (last : ∀ earlier ∈ entries, earlier.logId.index < entry.logId.index) :
    StoredEntries (appendLog disk [entry]) (entries ++ [entry]) := by
  refine ⟨?_,?_⟩
  · refine List.pairwise_append.mpr ⟨log.ordered,by simp,?_⟩
    intro earlier member later same
    rw [mem_singleton.mp same]
    exact last earlier member
  · intro key
    have written : (appendLog disk [entry] .raftLog)[key]? =
        if u64be entry.logId.index = key then some (toAllocvec entry) else (disk .raftLog)[key]? := by
      simp [appendLog,put,perform,Write.on,ExtTreeMap.getElem?_insert]
    rw [written,log.stored key,List.find?_append]
    by_cases same : u64be entry.logId.index = key
    · have absent : (entries.find? fun earlier => u64be earlier.logId.index = key) = none := by
        rw [List.find?_eq_none]
        intro earlier member found
        have equal : earlier.logId.index = entry.logId.index := by simpa [← same] using found
        exact UInt64.lt_irrefl _ (equal ▸ last earlier member)
      simp [same,absent]
    · simp [same]

theorem StoredEntries.append (log : StoredEntries disk entries)
    (ordered : (entries ++ more).Pairwise fun earlier later => earlier.logId.index < later.logId.index) :
    StoredEntries (appendLog disk more) (entries ++ more) := by
  induction more generalizing disk entries with
  | nil => simpa [appendLog] using log
  | cons entry more ih =>
    have one := log.append_one entry
      (fun earlier member => (List.pairwise_append.mp ordered).2.2 earlier member entry mem_cons_self)
    have rest := ih one (by simpa using ordered)
    simpa [appendLog] using rest

theorem holds_append (holds : Holds disk log) (entries : List Entry) (allowed : log.Allows (.append entries)) :
    Holds (appendLog disk entries) (log.run (.append entries)) := by
  obtain ⟨ordered,after⟩ := allowed
  have log := holds.entries.append ordered
  refine ⟨log.ordered,?_,log.stored,?_⟩
  · intro entry member
    exact (mem_append.mp member).elim (holds.unpurged entry) (after entry)
  · have frame : appendLog disk entries .raftLogMeta = disk .raftLogMeta := by
      apply commit_frame
      simp [put]
    rw [frame]
    exact holds.watermark

theorem removeKeys_lookup (disk : Disk) (gone : Bytes → Bool) (key : Bytes) :
    (commit disk (((disk .raftLog).keys.filter gone).map fun key => .remove .raftLog key) .raftLog)[key]? =
      if gone key then none else (disk .raftLog)[key]? := by
  rw [commit_removes]
  by_cases member : key ∈ disk .raftLog
  · simp [ExtTreeMap.mem_keys,member]
  · have absent : (disk .raftLog)[key]? = none := ExtTreeMap.getElem?_eq_none member
    simp [absent]

theorem find_filter (entries : List Entry) (keep : Entry → Bool) (gone : Bytes → Bool)
    (opposite : ∀ entry, gone (u64be entry.logId.index) = !keep entry) (key : Bytes) :
    ((entries.filter keep).find? fun entry => u64be entry.logId.index = key) =
      if gone key then none else entries.find? fun entry => u64be entry.logId.index = key := by
  rw [List.find?_filter]
  split
  case isTrue removed =>
    rw [List.find?_eq_none]
    intro entry _ found
    simp only [decide_eq_true_eq] at found
    rw [← found.2,opposite,found.1] at removed
    cases removed
  case isFalse remains =>
    congr 1
    funext entry
    by_cases same : u64be entry.logId.index = key
    · have kept := opposite entry
      rw [same] at kept
      simp only [Bool.not_eq_true] at remains
      rw [remains] at kept
      simp [same,Bool.not_eq_eq_eq_not.mp kept.symm]
    · simp [same]

theorem isGE_u64be (left right : UInt64) : (compare (u64be left) (u64be right)).isGE = !decide (left < right) := by
  rw [compare_u64be,UInt64.compare_eq_toNat_compare_toNat,Nat.compare_eq_ite_lt]
  simp only [UInt64.lt_iff_toNat_lt]
  split_ifs with less greater
  · simp [less]
  · simp [less]
  · simp [less]

theorem isLE_u64be (left right : UInt64) : (compare (u64be left) (u64be right)).isLE = !decide (right < left) := by
  rw [compare_u64be,UInt64.compare_eq_toNat_compare_toNat,Nat.compare_eq_ite_lt]
  simp only [UInt64.lt_iff_toNat_lt]
  split_ifs with less greater
  · simp [Nat.le_of_lt less]
  · simp [greater]
  · simp [greater]

theorem StoredEntries.truncate (log : StoredEntries disk entries) (logId : LogId) :
    StoredEntries (truncateLog disk logId) (entries.filter fun entry => entry.logId.index < logId.index) := by
  refine ⟨log.ordered.filter _,fun key => ?_⟩
  have kept := find_filter entries (fun entry => entry.logId.index < logId.index)
    (fun key => (compare key (u64be logId.index)).isGE) (fun entry => isGE_u64be _ _) key
  refine (removeKeys_lookup disk _ key).trans ?_
  rw [log.stored key,kept]
  split <;> rfl

theorem holds_truncate (holds : Holds disk log) (logId : LogId) :
    Holds (truncateLog disk logId) (log.run (.truncate logId)) := by
  have log := holds.entries.truncate logId
  refine ⟨log.ordered,fun entry member => holds.unpurged entry (List.mem_of_mem_filter member),log.stored,?_⟩
  have frame : truncateLog disk logId .raftLogMeta = disk .raftLogMeta := by
    apply commit_frame
    simp
  rw [frame]
  exact holds.watermark

theorem StoredEntries.purge (log : StoredEntries disk entries) (logId : LogId) :
    StoredEntries (purgeLog disk logId) (entries.filter fun entry => logId.index < entry.logId.index) := by
  refine ⟨log.ordered.filter _,fun key => ?_⟩
  have kept := find_filter entries (fun entry => logId.index < entry.logId.index)
    (fun key => (compare key (u64be logId.index)).isLE) (fun entry => isLE_u64be _ _) key
  have frame : purgeLog disk logId .raftLog =
      commit disk ((keysUpTo disk logId.index).map fun key => .remove .raftLog key) .raftLog := by
    rw [purgeLog,commit_append]
    apply commit_frame
    simp
  rw [frame]
  refine (removeKeys_lookup disk _ key).trans ?_
  rw [log.stored key,kept]
  split <;> rfl

theorem holds_purge (holds : Holds disk log) (logId : LogId) :
    Holds (purgeLog disk logId) (log.run (.purge logId)) := by
  have log := holds.entries.purge logId
  refine ⟨log.ordered,fun entry member => ?_,log.stored,?_⟩
  · simpa [RefLog.run,LogId.Before] using (mem_filter.mp member).2
  · rw [purgeLog,commit_append]
    simp [put,perform,Write.on,RefLog.run]

theorem holds_call (holds : Holds disk log) (call : LogCall) (allowed : log.Allows call) :
    Holds (call.run disk) (log.run call) := by
  cases call with
  | append entries => exact holds_append holds entries allowed
  | truncate logId => exact holds_truncate holds logId
  | purge logId => exact holds_purge holds logId

theorem holds_calls (run : Calls log calls last) (holds : Holds disk log) :
    Holds (calls.foldl LogCall.run disk) last := by
  induction run generalizing disk with
  | nil => exact holds
  | cons allowed _ ih => exact ih (holds_call holds _ allowed)

theorem Holds.last (holds : Holds disk log) : ((lastKeyValue (disk .raftLog)).bind fun (_,value) =>
      (fromBytes (α := Entry) value).toOption.map Entry.logId) = log.entries.getLast?.map Entry.logId := by
  obtain empty | ⟨earlier,last,whole⟩ := List.eq_nil_or_concat' log.entries
  · have cleared : disk .raftLog = ∅ := by
      apply ExtTreeMap.ext_getElem?
      intro key
      simp [holds.stored key,empty]
    simp [lastKeyValue,cleared,empty]
  · have ordered := holds.ordered
    rw [whole] at ordered
    have before := fun entry member => (List.pairwise_append.mp ordered).2.2 entry member last mem_cons_self
    have found : (log.entries.find? fun entry => u64be entry.logId.index = u64be last.logId.index) = some last := by
      have absent : (earlier.find? fun entry => u64be entry.logId.index = u64be last.logId.index) = none := by
        rw [List.find?_eq_none]
        intro entry member same
        have equal : entry.logId.index = last.logId.index := by simpa using same
        exact UInt64.lt_irrefl _ (equal ▸ before entry member)
      rw [whole,List.find?_append,absent]
      simp
    have lookup : (disk .raftLog)[u64be last.logId.index]? = some (toAllocvec last) := by
      rw [holds.stored,found]
      rfl
    have greatest : (disk .raftLog).keys.getLast? = some (u64be last.logId.index) := by
      rw [← ExtTreeMap.maxKey?_eq_getLast?_keys,ExtTreeMap.maxKey?_eq_some_iff_mem_and_forall]
      refine ⟨by rw [ExtTreeMap.mem_iff_isSome_getElem?,lookup]; rfl,?_⟩
      intro key member
      rw [ExtTreeMap.mem_iff_isSome_getElem?,holds.stored key,Option.isSome_map] at member
      obtain ⟨entry,some⟩ := Option.isSome_iff_exists.mp member
      have same : u64be entry.logId.index = key := by simpa using List.find?_some some
      have inside : entry ∈ earlier ++ [last] := whole ▸ List.mem_of_find?_eq_some some
      rw [← same,isLE_u64be]
      rcases mem_append.mp inside with old | new
      · simpa using UInt64.lt_asymm (before entry old)
      · rw [mem_singleton.mp new]
        simp
    simp [lastKeyValue,greatest,lookup,whole,Except.toOption]

theorem Holds.getLogState (holds : Holds disk log) :
    FleetosControl.getLogState disk = .ok ⟨log.purged,log.entries.getLast?.map Entry.logId⟩ := by
  have purged : lastPurged disk = .ok log.purged := by
    unfold lastPurged
    rw [holds.watermark]
    cases log.purged <;> simp [Except.mapError,Except.map]
  unfold FleetosControl.getLogState
  rw [holds.last,purged]
  rfl

theorem Holds.purged_le_last (holds : Holds disk log) {purged last} (some : log.purged = some purged)
    (known : log.lastLogId = Option.some last) : purged.index ≤ last.index := by
  unfold RefLog.lastLogId at known
  split at known
  case h_1 entry found =>
    obtain rfl := Option.some.inj known
    have after := holds.unpurged entry (List.mem_of_getLast? found)
    rw [some] at after
    exact UInt64.le_of_lt (by simpa [LogId.Before] using after)
  case h_2 =>
    rw [some] at known
    obtain rfl := Option.some.inj known
    exact UInt64.le_refl _

/-- Exactly while an entry is stored or nothing has been purged: an emptied log reports no last id. -/
theorem log_state_contract_iff (disk : Disk) (log : disk .raftLog = ∅)
    (unpurged : (disk .raftLogMeta)[lastPurgedKey]? = none) (calls : List LogCall) (last : RefLog)
    (run : Calls .empty calls last) :
    (getLogState (calls.foldl LogCall.run disk) = .ok ⟨last.purged,last.lastLogId⟩ ↔
      last.entries ≠ [] ∨ last.purged = none) ∧
    (∀ purged id, last.purged = some purged → last.lastLogId = some id → purged.index ≤ id.index) := by
  have holds := holds_calls run (holds_fresh log unpurged)
  refine ⟨?_,fun purged id => holds.purged_le_last⟩
  rw [holds.getLogState]
  unfold RefLog.lastLogId
  cases stored : last.entries.getLast? with
  | some entry =>
    have nonempty : last.entries ≠ [] := by
      intro empty
      simp [empty] at stored
    simp [nonempty]
  | none =>
    have empty : last.entries = [] := List.getLast?_eq_none_iff.mp stored
    simp [empty,eq_comm]

end

section
open Reference

def purgedToTheEnd : List LogCall := [.append [⟨logIdAt 1,.blank⟩],.purge (logIdAt 1)]

theorem calls_append_two : Calls .empty [.append [⟨logIdAt 1,.blank⟩,⟨logIdAt 2,.blank⟩],.purge (logIdAt 1)]
    ⟨[⟨logIdAt 2,.blank⟩],some (logIdAt 1)⟩ :=
  .cons ⟨by decide,by simp [RefLog.empty,LogId.Before]⟩ (.cons (by simp [RefLog.Allows,RefLog.run,RefLog.empty]) (.nil _))

theorem calls_purgedToTheEnd : Calls .empty purgedToTheEnd ⟨[],some (logIdAt 1)⟩ :=
  .cons ⟨by decide,by simp [RefLog.empty,LogId.Before]⟩ (.cons (by simp [RefLog.Allows,RefLog.run,RefLog.empty]) (.nil _))

theorem log_state_after_partial_purge :
    getLogState (([.append [⟨logIdAt 1,.blank⟩,⟨logIdAt 2,.blank⟩],.purge (logIdAt 1)] : List LogCall).foldl
      LogCall.run Disk.empty) = .ok ⟨some (logIdAt 1),some (logIdAt 2)⟩ :=
  (log_state_contract_iff Disk.empty rfl rfl _ _ calls_append_two).1.mpr (.inl (by simp))

/-- One entry appended and purged: the last log id is reported as missing. -/
theorem log_state_after_full_purge : ∃ last, Calls .empty purgedToTheEnd last ∧ last.lastLogId = some (logIdAt 1) ∧
      getLogState (purgedToTheEnd.foldl LogCall.run Disk.empty) = .ok ⟨some (logIdAt 1),none⟩ ∧
      getLogState (purgedToTheEnd.foldl LogCall.run Disk.empty) ≠ .ok ⟨last.purged,last.lastLogId⟩ := by
  refine ⟨_,calls_purgedToTheEnd,rfl,by decide,?_⟩
  decide

end

inductive Bound (κ : Type) where
  | included (key : κ)
  | excluded (key : κ)
  | unbounded

namespace Bound
variable {κ : Type}

def map {μ : Type} (f : κ → μ) : Bound κ → Bound μ
  | included key => included (f key)
  | excluded key => excluded (f key)
  | unbounded => unbounded

def below [Ord κ] : Bound κ → κ → Bool
  | included start, key => (compare start key).isLE
  | excluded start, key => (compare start key).isLT
  | unbounded, _ => true

def above [Ord κ] : Bound κ → κ → Bool
  | included stop, key => (compare key stop).isLE
  | excluded stop, key => (compare key stop).isLT
  | unbounded, _ => true

end Bound

section
variable [FleetosCore] [Formats] {disk : Disk} {entries : List Entry}

def tryGetLogEntries (disk : Disk) (start stop : Bound UInt64) : List Entry :=
  ((disk .raftLog).toList.filter fun entry => (start.map u64be).below entry.1 && (stop.map u64be).above entry.1).filterMap
    fun entry => (fromBytes (α := Entry) entry.2).toOption

/-- Each append goes on where the log ends. -/
def Contiguous : RefLog → List LogCall → Prop
  | _, [] => True
  | log, call::calls => (∀ entries, call = .append entries → (log.entries ++ entries).IsChain fun earlier later =>
      later.logId.index.toNat = earlier.logId.index.toNat + 1) ∧ Contiguous (log.run call) calls

theorem StoredEntries.toList (log : StoredEntries disk entries) :
    (disk .raftLog).toList = entries.map fun entry => (u64be entry.logId.index,toAllocvec entry) := by
  let before (left right : Bytes × Bytes) : Prop := compare left.1 right.1 = .lt
  have antisymm : Antisymm before := ⟨fun _ _ one two => (OrientedCmp.not_lt_of_lt one two).elim⟩
  have irrefl : Irrefl before := ⟨fun _ same => by simp [before] at same⟩
  have distinct : (entries.map fun entry => u64be entry.logId.index).Nodup := by
    refine List.pairwise_map.mpr (log.ordered.imp fun less same => ?_)
    exact UInt64.lt_irrefl _ (u64be_injective same ▸ less)
  refine List.Pairwise.eq_of_mem_iff (r := before) ExtTreeMap.ordered_keys_toList ?_ fun (key,value) => ?_
  · refine List.pairwise_map.mpr (log.ordered.imp fun less => ?_)
    change compare (u64be _) (u64be _) = .lt
    rw [compare_u64be,UInt64.compare_eq_toNat_compare_toNat]
    exact compare_lt_iff_lt.mpr (UInt64.lt_iff_toNat_lt.mp less)
  · rw [ExtTreeMap.mem_toList_iff_getElem?_eq_some,log.stored,map_eq_some_iff,mem_map]
    simp only [Selection.find?_unique distinct,Prod.mk.injEq,and_assoc]

theorem stored_call {log : RefLog} {call : LogCall} (stored : StoredEntries disk log.entries)
    (contiguous : ∀ entries, call = .append entries → (log.entries ++ entries).IsChain fun earlier later =>
      later.logId.index.toNat = earlier.logId.index.toNat + 1) : StoredEntries (call.run disk) (log.run call).entries := by
  cases call with
  | append entries =>
    apply stored.append
    have increasing := (contiguous entries rfl).imp (S := fun earlier later => earlier.logId.index < later.logId.index)
      fun earlier later next => UInt64.lt_iff_toNat_lt.mpr (by omega)
    have trans : IsTrans Entry fun earlier later => earlier.logId.index < later.logId.index :=
      ⟨fun _ _ _ => UInt64.lt_trans⟩
    exact List.isChain_iff_pairwise.mp increasing
  | truncate logId => exact stored.truncate logId
  | purge logId => exact stored.purge logId

theorem stored_calls {log : RefLog} (stored : StoredEntries disk log.entries) (contiguous : Contiguous log calls) :
    StoredEntries (calls.foldl LogCall.run disk) (calls.foldl RefLog.run log).entries := by
  induction calls generalizing disk log with
  | nil => exact stored
  | cons call calls ih => exact ih (stored_call stored contiguous.1) contiguous.2

/-- A range holds the entries of the reference log with an index in it, in their order. -/
theorem log_range_exact (disk : Disk) (fresh : disk .raftLog = ∅) (calls : List LogCall)
    (contiguous : Contiguous .empty calls) (start stop : Bound UInt64) :
    tryGetLogEntries (calls.foldl LogCall.run disk) start stop = (calls.foldl RefLog.run .empty).entries.filter
      (fun entry => start.below entry.logId.index && stop.above entry.logId.index) ∧
    (tryGetLogEntries (calls.foldl LogCall.run disk) start stop).Pairwise
      fun earlier later => earlier.logId.index < later.logId.index := by
  have empty : StoredEntries disk RefLog.empty.entries := ⟨.nil,by simp [fresh,RefLog.empty]⟩
  have stored := stored_calls empty contiguous
  have keys (index : UInt64) : ((start.map u64be).below (u64be index) && (stop.map u64be).above (u64be index)) =
      (start.below index && stop.above index) := by
    cases start <;> cases stop <;> simp [Bound.map,Bound.below,Bound.above,compare_u64be]
  have reads : tryGetLogEntries (calls.foldl LogCall.run disk) start stop =
      (calls.foldl RefLog.run .empty).entries.filter
        (fun entry => start.below entry.logId.index && stop.above entry.logId.index) := by
    rw [tryGetLogEntries,stored.toList,List.filter_map,List.filterMap_map]
    simp [Function.comp_def,keys,Except.toOption]
  exact ⟨reads,reads ▸ stored.ordered.filter _⟩

end

open Reference

theorem log_range_after_truncate : tryGetLogEntries (([.append [⟨logIdAt 1,.blank⟩,⟨logIdAt 2,.blank⟩],
    .truncate (logIdAt 2),.append [⟨logIdAt 2,.blank⟩,⟨logIdAt 3,.blank⟩],.purge (logIdAt 1)] : List LogCall).foldl
      LogCall.run Disk.empty) (.excluded 0) (.included 2) = [⟨logIdAt 2,.blank⟩] :=
  (log_range_exact Disk.empty rfl _ (by simp [Contiguous,RefLog.run,RefLog.empty,logIdAt]) _ _).1

end FleetosControl
