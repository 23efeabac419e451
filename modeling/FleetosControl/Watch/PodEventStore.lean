import FleetosControl.Admin.Admission

/-! Pod events, reported in batches by the node they happened on, and the leader's store of them. Beyond
a cap the first event goes; it is not the oldest once it has happened again. -/
namespace FleetosControl

structure PodEvent where
  podId : String
  nodeId : String
  eventType : String
  reason : String
  message : String
  timestampUnix : UInt64
  count : UInt32
  deriving DecidableEq

def eventTypes : List String :=
  ["Pulled","Created","Started","ProbeFailed","BackOff","OOMKilled","Evicting","GracePeriodExpired","FailedScheduling",
    "Resizing","Resized"]

def isValidEventType (eventType : String) : Bool := eventTypes.contains eventType

def PodEvent.normalize (now : UInt64) (event : PodEvent) : PodEvent :=
  { event with
    count := if event.count = 0 then 1 else event.count
    timestampUnix := if event.timestampUnix = 0 then now else event.timestampUnix }

section
variable [FleetosCore]

def validateEvent (caller : SpiffeId) (event : PodEvent) : Except Status Unit :=
  if event.podId.isEmpty then invalidArgument "event.pod_id cannot be empty"
  else
    match parse event.nodeId with
    | .error _ => invalidArgument "event.node_id is not a valid SPIFFE ID"
    | .ok eventNode =>
      if eventNode ≠ caller then permissionDenied "event.node_id does not match the caller identity"
      else if !isValidEventType event.eventType then invalidArgument ("unknown event_type '" ++ event.eventType ++ "'")
      else .ok ()

def reportPodEvents (now : UInt64) (caller : Peer) (events : List PodEvent) : Except Status (List PodEvent) :=
  match caller with
  | none => .error ⟨.unauthenticated,"no peer identity found"⟩
  | some caller => do
    if FleetosCore.kind caller ≠ .node then permissionDenied "pod events may only be reported by node identities"
    else
      events.forM (validateEvent caller)
      pure (events.map (PodEvent.normalize now))

def watchPodEvents (caller : Peer) : Except Status Unit :=
  match caller with
  | none => .error ⟨.unauthenticated,"no peer identity found"⟩
  | some caller =>
    match FleetosCore.kind caller with
    | .operator | .ctrl => .ok ()
    | _ => permissionDenied "pod event streams are restricted to operator/ctrl identities"

end

open KeyValue Selection

abbrev PodEvents := Std.ExtTreeMap String (List PodEvent) compare

/-- The order in which the concurrent map is iterated. -/
class PodIteration where
  iterate : PodEvents → List (String × List PodEvent)
  iterate_perm : ∀ pods, (iterate pods).Perm pods.toList

structure PodEventStore where
  pods : PodEvents := ∅
  total : Nat := 0

/-- An event that a cap has cost its place, and those it competed with. -/
structure Discard where
  event : PodEvent
  rivals : List PodEvent

def Discard.Oldest (discard : Discard) : Prop :=
  ∀ rival ∈ discard.rivals, discard.event.timestampUnix ≤ rival.timestampUnix

def maxEvents : Nat := 10000

def maxEventsPerPod : Nat := 100

def eventTtlSecs : UInt64 := 3600

def PodEvent.kind (event : PodEvent) : String × String := (event.eventType,event.reason)

def PodEvent.absorb (existing event : PodEvent) : PodEvent :=
  { existing with
    count := .ofNat (min (2 ^ 32 - 1) (existing.count.toNat + max event.count.toNat 1))
    timestampUnix := max existing.timestampUnix event.timestampUnix
    message := if event.message.isEmpty then existing.message else event.message }

/-- The first event of the same type and reason absorbs the new one. -/
def coalesce (event : PodEvent) : List PodEvent → Option (List PodEvent)
  | [] => none
  | existing::rest =>
    if existing.eventType = event.eventType ∧ existing.reason = event.reason then some (existing.absorb event::rest)
    else (coalesce event rest).map (existing::·)

def popToCap : List PodEvent → Nat → List PodEvent × Nat × List Discard
  | [], total => ([],total,[])
  | front::rest, total =>
    if maxEventsPerPod < (front::rest).length then
      let (deque,total,discards) := popToCap rest (total - 1)
      (deque,total,⟨front,front::rest⟩::discards)
    else (front::rest,total,[])

def byTimestamp : String × UInt64 → String × UInt64 → Ordering := compareOn Prod.snd

instance : Std.TransCmp byTimestamp := inferInstanceAs (Std.TransCmp (compareOn _))

namespace PodEventStore

def deque (store : PodEventStore) (podId : String) : List PodEvent := store.pods[podId]?.getD []

def resyncTotal (pods : PodEvents) : Nat := KeyValue.total List.length pods

def events (pods : PodEvents) : List PodEvent := pods.toList.flatMap (·.2)

section
variable [PodIteration]

def oldestFront (pods : PodEvents) : Option (String × UInt64) :=
  (PodIteration.iterate pods).foldl (fun oldest entry =>
    keepBest byTimestamp oldest (entry.2.head?.map fun front => (entry.1,front.timestampUnix))) none

/-- The loop, for so many rounds. -/
def evictToCap : Nat → PodEventStore → Option (PodEventStore × List Discard)
  | 0, _ => none
  | fuel + 1, store =>
    if store.total ≤ maxEvents then some (store,[])
    else
      match oldestFront store.pods with
      | none => some (⟨store.pods,resyncTotal store.pods⟩,[])
      | some (podId,_) =>
        match store.pods[podId]? with
        | none => evictToCap fuel store
        | some [] => evictToCap fuel { store with pods := store.pods.erase podId }
        | some (front::rest) =>
          let pods := if rest.isEmpty then store.pods.erase podId else store.pods.insert podId rest
          (evictToCap fuel ⟨pods,store.total - 1⟩).map fun (evicted,discards) =>
            (evicted,⟨front,events store.pods⟩::discards)

def insert (fuel : Nat) (store : PodEventStore) (event : PodEvent) : Option (PodEventStore × List Discard) :=
  match coalesce event (store.deque event.podId) with
  | some deque => some ({ store with pods := store.pods.insert event.podId deque },[])
  | none =>
    let (deque,total,discards) := popToCap (store.deque event.podId ++ [event]) (store.total + 1)
    let pushed : PodEventStore := ⟨store.pods.insert event.podId deque,total⟩
    if maxEvents < pushed.total then (evictToCap fuel pushed).map fun (evicted,more) => (evicted,discards ++ more)
    else some (pushed,discards)

end

def sweepExpired (store : PodEventStore) (now : UInt64) : PodEventStore :=
  let cutoff := if now < eventTtlSecs then 0 else now - eventTtlSecs
  let pods := (store.pods.map fun _ deque => deque.filter fun event => cutoff ≤ event.timestampUnix).filter
    fun _ deque => !deque.isEmpty
  ⟨pods,resyncTotal pods⟩

end PodEventStore

open PodEventStore

inductive EventCall where
  | insert (event : PodEvent)
  | sweep (now : UInt64)

def EventCall.run [PodIteration] (fuel : Nat) (store : PodEventStore) : EventCall → Option PodEventStore
  | .insert event => (store.insert fuel event).map Prod.fst
  | .sweep now => some (store.sweepExpired now)

structure DequeSound (deque : List PodEvent) : Prop where
  nonempty : deque ≠ []
  capped : deque.length ≤ maxEventsPerPod
  distinct : (deque.map PodEvent.kind).Nodup

structure Counted (store : PodEventStore) : Prop where
  counted : store.total = KeyValue.total List.length store.pods
  deques : ∀ (podId : String) deque, store.pods[podId]? = some deque → DequeSound deque

variable {store : PodEventStore} {event front : PodEvent} {podId : String} {deque rest : List PodEvent} {total : Nat}

theorem total_deque (store : PodEventStore) (podId : String) : KeyValue.total List.length store.pods =
    (store.deque podId).length + KeyValue.total List.length (store.pods.erase podId) := by
  unfold PodEventStore.deque
  cases found : store.pods[podId]? with
  | none => simp [erase_absent found]
  | some deque => exact total_split found

theorem Counted.write (counted : Counted store) {total : Nat} (sound : DequeSound deque)
    (moved : total + (store.deque podId).length = store.total + deque.length) :
    Counted ⟨store.pods.insert podId deque,total⟩ := by
  refine ⟨?_,fun other found stored => ?_⟩
  · have before := total_deque store podId
    have now := counted.counted
    rw [total_insert]
    change total = _
    omega
  · rcases insert_eq_some.mp stored with ⟨rfl,rfl⟩ | ⟨_,kept⟩
    · exact sound
    · exact counted.deques other found kept

theorem Counted.drop (counted : Counted store) (found : store.pods[podId]? = some [front]) :
    Counted ⟨store.pods.erase podId,store.total - 1⟩ := by
  refine ⟨?_,fun other deque stored => ?_⟩
  · have before : KeyValue.total List.length store.pods = _ := total_split found
    have now := counted.counted
    change store.total - 1 = KeyValue.total List.length (store.pods.erase podId)
    rw [List.length_singleton] at before
    omega
  · rw [Std.ExtTreeMap.getElem?_erase] at stored
    split at stored
    · cases stored
    · exact counted.deques other deque stored

theorem coalesce_some (absorbed : coalesce event deque = some merged) :
    merged.map PodEvent.kind = deque.map PodEvent.kind := by
  induction deque generalizing merged with
  | nil => cases absorbed
  | cons existing rest ih =>
    unfold coalesce at absorbed
    split at absorbed
    · cases absorbed
      rfl
    · obtain ⟨others,found,rfl⟩ := map_eq_some_iff.mp absorbed
      rw [List.map_cons,List.map_cons,ih found]

theorem coalesce_none : coalesce event deque = none ↔ event.kind ∉ deque.map PodEvent.kind := by
  induction deque with
  | nil => simp [coalesce]
  | cons existing rest ih =>
    rw [coalesce,List.map_cons,mem_cons,not_or,← ih]
    by_cases same : existing.eventType = event.eventType ∧ existing.reason = event.reason
    · simp [same,PodEvent.kind]
    · have apart : ¬event.kind = existing.kind := fun equal => same (by simp_all [PodEvent.kind])
      simp [same,apart]

theorem popToCap_room (room : deque.length ≤ maxEventsPerPod) : popToCap deque total = (deque,total,[]) := by
  cases deque with
  | nil => rfl
  | cons front rest => rw [popToCap,if_neg (not_lt.mpr room)]

theorem popToCap_full (full : rest.length = maxEventsPerPod) :
    popToCap (front::rest) total = (rest,total - 1,[⟨front,front::rest⟩]) := by
  rw [popToCap,if_pos (by rw [List.length_cons]; omega),popToCap_room full.le]

structure OldestFront (pods : PodEvents) (podId : String) (front : PodEvent) (rest : List PodEvent) : Prop where
  found : pods[podId]? = some (front::rest)
  least : ∀ (other : String) first others, pods[other]? = some (first::others) → front.timestampUnix ≤ first.timestampUnix

theorem OldestFront.oldest_iff {pods} (oldest : OldestFront pods podId front rest) : Discard.Oldest ⟨front,events pods⟩ ↔
    ∃ (podId : String) (front : PodEvent) (rest : List PodEvent), pods[podId]? = some (front::rest) ∧
      Discard.Oldest ⟨front,events pods⟩ := by
  constructor
  · exact fun all => ⟨podId,front,rest,oldest.found,all⟩
  · rintro ⟨other,first,others,found,all⟩ rival member
    exact UInt64.le_trans (oldest.least other first others found) (all rival member)

theorem Counted.of_pod (counted : Counted store) (podId : String) :
    (store.deque podId).length ≤ maxEventsPerPod ∧ ((store.deque podId).map PodEvent.kind).Nodup := by
  unfold PodEventStore.deque
  cases found : store.pods[podId]? with
  | none => simp
  | some deque =>
    have sound := counted.deques podId deque found
    exact ⟨sound.capped,sound.distinct⟩

/-- What the caps ask of an event that is not absorbed: the first event is the oldest where one has to go. -/
structure FirstIsOldest (store : PodEventStore) (event : PodEvent) : Prop where
  pod : (store.deque event.podId).length = maxEventsPerPod → ∀ front rest, store.deque event.podId = front::rest →
    Discard.Oldest ⟨front,store.deque event.podId ++ [event]⟩
  all : (store.deque event.podId).length < maxEventsPerPod → store.total = maxEvents →
    let pods := store.pods.insert event.podId (store.deque event.podId ++ [event])
    ∃ (podId : String) (front : PodEvent) (rest : List PodEvent), pods[podId]? = some (front::rest) ∧
      Discard.Oldest ⟨front,events pods⟩

structure EventsSound (store : PodEventStore) : Prop extends Counted store where
  bounded : store.total ≤ maxEvents

theorem sweep_sound (sound : EventsSound store) (now : UInt64) : EventsSound (store.sweepExpired now) := by
  refine ⟨⟨rfl,fun podId deque stored => ?_⟩,?_⟩
  · simp only [sweepExpired,Std.ExtTreeMap.getElem?_filter',Std.ExtTreeMap.getElem?_map,
      Option.filter_eq_some_iff,map_eq_some_iff] at stored
    obtain ⟨⟨events,found,rfl⟩,nonempty⟩ := stored
    have old := sound.deques podId events found
    refine ⟨by simpa using nonempty,(List.length_filter_le _ _).trans old.capped,?_⟩
    exact old.distinct.sublist (List.filter_sublist.map _)
  · refine le_trans ?_ (sound.counted ▸ sound.bounded)
    simp only [sweepExpired,resyncTotal,KeyValue.total,Std.ExtTreeMap.toList_filter,Std.ExtTreeMap.toList_map]
    refine ((List.filter_sublist.map _).sum_le_sum fun _ _ => Nat.zero_le _).trans ?_
    rw [List.map_map]
    exact List.sum_le_sum fun entry _ => List.length_filter_le _ _

theorem empty_sound : EventsSound {} := ⟨⟨rfl,fun podId deque stored => by simp at stored⟩,Nat.zero_le _⟩

section
variable [PodIteration]

theorem oldestFront_found (counted : Counted store) (stored : 0 < store.total) :
    ∃ podId timestamp front rest, oldestFront store.pods = some (podId,timestamp) ∧
      OldestFront store.pods podId front rest := by
  let pick (entry : String × List PodEvent) := entry.2.head?.map fun front => (entry.1,front.timestampUnix)
  have listed (entry : String × List PodEvent) :
      entry ∈ PodIteration.iterate store.pods ↔ store.pods[entry.1]? = some entry.2 := by
    rw [(PodIteration.iterate_perm store.pods).mem_iff,Std.ExtTreeMap.mem_toList_iff_getElem?_eq_some]
  have found : (oldestFront store.pods).isSome := by
    have nonempty : store.pods.toList ≠ [] := by
      intro empty
      rw [counted.counted,KeyValue.total,empty] at stored
      cases stored
    obtain ⟨entry,member⟩ := List.exists_mem_of_ne_nil _ nonempty
    rw [← (PodIteration.iterate_perm store.pods).mem_iff] at member
    have full := (counted.deques _ _ ((listed entry).mp member)).nonempty
    rw [oldestFront,foldl_keepBest_isSome,Option.isSome_none,Bool.false_or,List.any_eq_true]
    exact ⟨entry,member,by simpa using full⟩
  obtain ⟨⟨podId,timestamp⟩,chosen⟩ := Option.isSome_iff_exists.mp found
  have least : Least byTimestamp ((PodIteration.iterate store.pods).filterMap pick) (podId,timestamp) :=
    foldl_keepBest_least chosen
  obtain ⟨⟨other,deque⟩,member,picked⟩ := mem_filterMap.mp least.member
  obtain ⟨front,first,same⟩ := map_eq_some_iff.mp picked
  obtain ⟨rfl,rfl⟩ := Prod.mk.inj same
  obtain ⟨rest,rfl⟩ := List.head?_eq_some_iff.mp first
  refine ⟨other,front.timestampUnix,front,rest,chosen,(listed _).mp member,fun another first others stored => ?_⟩
  have below := least.least (another,first.timestampUnix)
    (mem_filterMap.mpr ⟨(another,first::others),(listed _).mpr stored,rfl⟩)
  change (compare front.timestampUnix first.timestampUnix).isLE = true at below
  rw [UInt64.compare_eq_toNat_compare_toNat,Nat.isLE_compare] at below
  exact UInt64.le_iff_toNat_le.mpr below

theorem evictToCap_step (counted : Counted store) (excess : maxEvents < store.total) : ∃ podId front rest next,
    OldestFront store.pods podId front rest ∧ Counted next ∧ next.total + 1 = store.total ∧
    ∀ fuel, evictToCap (fuel + 1) store = (evictToCap fuel next).map fun (evicted,discards) =>
      (evicted,⟨front,events store.pods⟩::discards) := by
  obtain ⟨podId,timestamp,front,rest,chosen,oldest⟩ := oldestFront_found counted (by omega)
  have sound := counted.deques _ _ oldest.found
  refine ⟨podId,front,rest,⟨if rest.isEmpty then store.pods.erase podId else store.pods.insert podId rest,store.total - 1⟩,
    oldest,?_,Nat.sub_add_cancel (by omega),fun fuel => ?_⟩
  · cases rest with
    | nil => exact counted.drop oldest.found
    | cons second others =>
      have lengths : (store.deque podId).length = others.length + 2 := by simp [PodEventStore.deque,oldest.found]
      refine counted.write ⟨nofun,?_,?_⟩ (by simp only [lengths,List.length_cons]; omega)
      · exact (Nat.le_succ _).trans sound.capped
      · exact (List.nodup_cons.mp sound.distinct).2
  · rw [evictToCap,if_neg (by omega),chosen]
    simp only [oldest.found]

theorem evictToCap_one (fuel : Nat) (counted : Counted store) (one : store.total = maxEvents + 1) :
    ∃ podId front rest evicted, OldestFront store.pods podId front rest ∧ Counted evicted ∧ evicted.total = maxEvents ∧
      evictToCap (fuel + 2) store = some (evicted,[⟨front,events store.pods⟩]) := by
  obtain ⟨podId,front,rest,next,oldest,sound,fewer,runs⟩ := evictToCap_step counted (by omega)
  refine ⟨podId,front,rest,next,oldest,sound,by omega,?_⟩
  rw [runs,evictToCap,if_pos (by omega)]
  rfl

theorem insert_spec (fuel : Nat) (sound : EventsSound store) (event : PodEvent) :
    ∃ after discards, store.insert (fuel + 2) event = some (after,discards) ∧ EventsSound after ∧
      ((∀ discard ∈ discards, discard.Oldest) ↔
        (event.kind ∉ (store.deque event.podId).map PodEvent.kind → FirstIsOldest store event)) := by
  obtain ⟨capped,distinct⟩ := sound.toCounted.of_pod event.podId
  unfold PodEventStore.insert
  cases absorbed : coalesce event (store.deque event.podId) with
  | some merged =>
    have kinds := coalesce_some absorbed
    have size : merged.length = (store.deque event.podId).length := by simpa using congrArg List.length kinds
    have present : event.kind ∈ (store.deque event.podId).map PodEvent.kind := by
      by_contra absent
      rw [coalesce_none.mpr absent] at absorbed
      cases absorbed
    have nonempty : merged ≠ [] := by
      rintro rfl
      rw [← kinds] at present
      cases present
    refine ⟨_,_,rfl,⟨sound.toCounted.write ⟨nonempty,size ▸ capped,kinds ▸ distinct⟩ (by rw [size]),sound.bounded⟩,?_⟩
    exact iff_of_true nofun fun absent => (absent present).elim
  | none =>
    have absent := coalesce_none.mp absorbed
    have fresh : ((store.deque event.podId ++ [event]).map PodEvent.kind).Nodup := by
      rw [List.map_append,List.nodup_append]
      exact ⟨distinct,by simp,fun kind member other same => by
        rintro rfl
        exact absent (mem_singleton.mp same ▸ member)⟩
    rcases Nat.lt_or_eq_of_le capped with room | full
    · have size : (store.deque event.podId ++ [event]).length ≤ maxEventsPerPod := by
        rw [List.length_append]
        exact room
      have pushed : Counted ⟨store.pods.insert event.podId (store.deque event.podId ++ [event]),store.total + 1⟩ :=
        sound.toCounted.write ⟨by simp,size,fresh⟩ (by simp; omega)
      simp only [popToCap_room size]
      split
      case isTrue excess =>
        have all : store.total = maxEvents := Nat.le_antisymm sound.bounded (Nat.lt_succ_iff.mp excess)
        obtain ⟨podId,front,rest,evicted,oldest,counted,exactly,runs⟩ := evictToCap_one fuel pushed (congrArg (· + 1) all)
        refine ⟨evicted,_,by rw [runs]; rfl,⟨counted,exactly.le⟩,?_⟩
        rw [List.nil_append,List.forall_mem_singleton,oldest.oldest_iff]
        exact ⟨fun smallest _ => ⟨fun full => (room.ne full).elim,fun _ _ => smallest⟩,
          fun first => (first absent).all room all⟩
      case isFalse fits =>
        refine ⟨_,_,rfl,⟨pushed,not_lt.mp fits⟩,iff_of_true nofun fun _ => ⟨fun full => (room.ne full).elim,?_⟩⟩
        exact fun _ all => (fits (Nat.lt_succ_iff.mpr all.ge)).elim
    · obtain ⟨front,rest,first⟩ := List.exists_cons_of_length_pos (full ▸ show 0 < maxEventsPerPod by decide)
      have tail : (rest ++ [event]).length = maxEventsPerPod := by
        rw [first] at full
        simpa using full
      rw [first] at fresh
      have popped : Counted ⟨store.pods.insert event.podId (rest ++ [event]),store.total⟩ :=
        sound.toCounted.write ⟨by simp,tail.le,(List.nodup_cons.mp fresh).2⟩ (by rw [tail,full])
      simp only [first,List.cons_append,popToCap_full tail,Nat.add_sub_cancel,if_neg (not_lt.mpr sound.bounded)]
      refine ⟨_,_,rfl,⟨popped,sound.bounded⟩,?_⟩
      rw [List.forall_mem_singleton]
      constructor
      · refine fun oldest _ => ⟨fun _ other others same => ?_,fun room => (room.ne full).elim⟩
        rw [first] at same ⊢
        cases same
        exact oldest
      · intro holds
        have oldest := (holds (first ▸ absent)).pod full front rest first
        rwa [first] at oldest

theorem call_sound (fuel : Nat) (sound : EventsSound store) (call : EventCall) :
    ∃ after, call.run (fuel + 2) store = some after ∧ EventsSound after := by
  cases call with
  | insert event =>
    obtain ⟨after,discards,ok,kept,_⟩ := insert_spec fuel sound event
    exact ⟨after,by rw [EventCall.run,ok]; rfl,kept⟩
  | sweep now => exact ⟨_,rfl,sweep_sound sound now⟩

theorem calls_sound (fuel : Nat) (sound : EventsSound store) (calls : List EventCall) :
    ∃ after, calls.foldlM (EventCall.run (fuel + 2)) store = some after ∧ EventsSound after := by
  induction calls generalizing store with
  | nil => exact ⟨store,rfl,sound⟩
  | cons call calls ih =>
    obtain ⟨next,ok,kept⟩ := call_sound fuel sound call
    rw [List.foldlM_cons,ok]
    exact ih kept

/-- Two rounds of eviction are enough for any call, and the bounds hold after it. -/
theorem pod_events_bounded (fuel : Nat) (calls : List EventCall) :
    ∃ store, calls.foldlM (EventCall.run (fuel + 2)) {} = some store ∧
      store.total = (store.pods.toList.map fun entry => entry.2.length).sum ∧ store.total ≤ maxEvents ∧
      ∀ (podId : String) deque, store.pods[podId]? = some deque → deque ≠ [] ∧ deque.length ≤ maxEventsPerPod ∧
        deque.Pairwise fun one other => ¬(one.eventType = other.eventType ∧ one.reason = other.reason) := by
  obtain ⟨store,ok,sound⟩ := calls_sound fuel empty_sound calls
  refine ⟨store,ok,sound.counted,sound.bounded,fun podId deque stored => ?_⟩
  have kept := sound.deques podId deque stored
  refine ⟨kept.nonempty,kept.capped,(List.pairwise_map.mp kept.distinct).imp fun apart same => apart ?_⟩
  exact Prod.ext same.1 same.2

/-- Whatever is discarded is the oldest of its rivals exactly if the first event is where one has to go. -/
theorem discards_oldest_iff (fuel : Nat) (calls : List EventCall) :
    ∃ store, calls.foldlM (EventCall.run (fuel + 2)) {} = some store ∧ ∀ event, ∃ after discards,
      store.insert (fuel + 2) event = some (after,discards) ∧ ((∀ discard ∈ discards, discard.Oldest) ↔
        (event.kind ∉ (store.deque event.podId).map PodEvent.kind → FirstIsOldest store event)) := by
  obtain ⟨store,ok,sound⟩ := calls_sound fuel empty_sound calls
  refine ⟨store,ok,fun event => ?_⟩
  obtain ⟨after,discards,inserted,_,oldest⟩ := insert_spec fuel sound event
  exact ⟨after,discards,inserted,oldest⟩

end

instance keyOrder : PodIteration := ⟨fun pods => pods.toList,fun _ => .refl _⟩

def startedFor (reason : Nat) (timestampUnix : UInt64) : PodEvent :=
  ⟨"shop-0","","Started",toString reason,"",timestampUnix,1⟩

/-- A pod at its cap, whose first event has happened again. -/
def refreshed : List EventCall :=
  (List.range 100).map (fun reason => .insert (startedFor reason (.ofNat reason))) ++ [.insert (startedFor 0 1000)]

theorem newest_discarded : ((refreshed.foldlM (EventCall.run 2) {}).bind fun store =>
    (store.insert 2 (startedFor 100 100)).map fun (_,discards) => discards.map fun discard =>
      (discard.event.timestampUnix,(discard.rivals.map (·.timestampUnix)).min?)) = some [(1000,some 1)] := by
  decide +kernel

end FleetosControl
