import FleetosControl.Watch.Streams

/-! A new subscriber beside the applier. An entry commits before it is published; a first frame is
built look by look from what has committed. -/
namespace FleetosControl
open Wire KeyValue Trace

structure RouteEntry where
  destinationSvid : String
  destinationRole : String
  targetAgentSvid : String
  dummyIp : UInt32
  sourceSpiffeIds : List String
  deriving DecidableEq

def RouteEntryRecord.entry (record : RouteEntryRecord) : RouteEntry :=
  ⟨record.destinationSvid,record.destinationRole,record.targetAgentSvid,record.dummyIp,record.sourceSpiffeIds⟩

structure SagUpdate where
  rules : List SagRule
  revokedDelegationIds : List Bytes
  revokedSpiffeIds : List String
  deriving DecidableEq

section
variable [ManifestMessages]

inductive DecodeRulesError where
  | truncated
  | proto (source : String)
  -- an index out of range
  | panicked

def DecodeRulesError.display : DecodeRulesError → String
  | truncated => "truncated SAG rules buffer"
  | proto source => "SAG rule proto decode failed: " ++ source
  | panicked => "index out of bounds"

/-- `bytes.get(start..stop)` -/
def slice (bytes : Bytes) (start stop : Nat) : Option Bytes :=
  if start ≤ stop ∧ stop ≤ bytes.length then some ((bytes.drop start).take (stop - start)) else none

def decodeRulesFrom (bytes : Bytes) (offset : Nat) : Except DecodeRulesError (List SagRule) :=
  if offset < bytes.length then
    match slice bytes offset (offset + 4) with
    | none => .error .truncated
    | some lenSlice =>
      if lenSlice.length < 4 then .error .panicked else
        let len := leNat (lenSlice.take 4)
        match slice bytes (offset + 4) (offset + 4 + len) with
        | none => .error .truncated
        | some ruleSlice =>
          match decodeSagRule ruleSlice with
          | .error e => .error (.proto e)
          | .ok rule => (decodeRulesFrom bytes (offset + 4 + len)).map (rule :: ·)
  else .ok []
termination_by bytes.length - offset

def decodeRules (bytes : Bytes) : Except String (List SagRule) := (decodeRulesFrom bytes 0).mapError DecodeRulesError.display

def sagUpdate (snap : SagSnapshot) : Except String SagUpdate := do
  let rules ← decodeRules snap.rulesBytes
  pure ⟨rules,snap.revokedDelegationIds,snap.revokedSpiffeIds⟩

end

def deserializeRoutes [StreamFormats] (bytes : Bytes) : Except String (List RouteEntry) :=
  if bytes.isEmpty then .ok []
  else (fromBytes (α := List RouteEntryRecord) bytes).map fun records => records.map (·.entry)

structure Frame (φ : Type) where
  version : UInt64
  contents : φ

inductive Subscriber (β : Type) where
  | absent
  | building (reading : Reading Disk β) (buffer : List (UInt64 × β))
  | streaming (buffer : List (UInt64 × β))

namespace Subscriber

def buffer {β : Type} : Subscriber β → List (UInt64 × β)
  | absent => []
  | building _ buffer | streaming buffer => buffer

def deliver {β : Type} (updates : List (UInt64 × β)) : Subscriber β → Subscriber β
  | absent => .absent
  | building reading buffer => .building reading (buffer ++ updates)
  | streaming buffer => .streaming (buffer ++ updates)

theorem deliver_buffer {β : Type} (updates : List (UInt64 × β)) (subscriber : Subscriber β) :
    ∃ added, (subscriber.deliver updates).buffer = subscriber.buffer ++ added ∧ ∀ update ∈ added, update ∈ updates := by
  cases subscriber with
  | absent => exact ⟨[],rfl,by simp⟩
  | building | streaming => exact ⟨updates,rfl,fun _ member => member⟩

end Subscriber

theorem pairwise_le_append {labels added : List UInt64} {top : UInt64} (ordered : labels.Pairwise (· ≤ ·))
    (below : ∀ label ∈ labels, label.toNat ≤ top.toNat) (latest : ∀ label ∈ added, label = top) :
    (labels ++ added).Pairwise (· ≤ ·) := by
  refine List.pairwise_append.mpr ⟨ordered,?_,?_⟩
  · refine List.Pairwise.imp_of_mem ?_ (List.pairwise_of_forall (R := fun _ _ => True) fun _ _ => trivial)
    intro left right leftIn rightIn _
    rw [latest left leftIn,latest right rightIn]
    exact UInt64.le_refl top
  · intro label member newer added
    rw [latest newer added]
    exact UInt64.le_iff_toNat_le.mpr (below label member)

section
variable [FleetosCore] [Formats] [ManifestMessages] [PodMessages] [Naming] [StreamFormats] {dataTrustDomain : String}
  {β φ : Type}

theorem mem_publishEvent {version : UInt64} (member : publication ∈ publishEvent dataTrustDomain disk version kind) :
    publication = publishSagUpdate disk version ∨ publication = publishScheduleUpdate dataTrustDomain disk version ∨
      publication = publishRouteUpdate dataTrustDomain disk version ∨ ∃ event, publication = .watch event := by
  cases kind <;>
    simp only [publishEvent,mem_cons,not_mem_nil,or_false] at member <;>
    grind

/-- Updates are what the builder makes of the contents committed when they were published. -/
structure WatchStream (dataTrustDomain : String) (β φ : Type) where
  builder : Reading Disk β
  channel : Publication → Option (UInt64 × β)
  decode : β → Except String φ
  published : ∀ {disk : Disk} {version : UInt64} {kind : ChangeKind} {publication : Publication} {update : UInt64 × β},
    publication ∈ publishEvent dataTrustDomain disk version kind → channel publication = some update →
    update = (version,builder.eval disk)

def sagReading : Reading Disk SagSnapshot :=
  .look fun rules => .look fun delegations => .look fun svids =>
    .done ⟨(buildSagSnapshot rules).rulesBytes,(buildSagSnapshot delegations).revokedDelegationIds,
      (buildSagSnapshot svids).revokedSpiffeIds⟩

def scheduleReading (dataTrustDomain : String) : Reading Disk Bytes :=
  .look fun disk => (Reading.each (fun placement disk => assignmentRecord disk dataTrustDomain placement)
    (scanRecords Placement disk .placements)).map toAllocvec

def routesReading (dataTrustDomain : String) : Reading Disk Bytes :=
  .look fun rules => .look fun disk =>
    (Reading.each (fun placement disk =>
      routeRecord disk dataTrustDomain (computeSourceIndex rules dataTrustDomain) placement)
      (scanRecords Placement disk .placements)).map toAllocvec

theorem scheduleReading_eval (dataTrustDomain : String) (disk : Disk) :
    (scheduleReading dataTrustDomain).eval disk = buildScheduleSnapshot disk dataTrustDomain := by
  simp only [scheduleReading,buildScheduleSnapshot,Reading.eval_look,Reading.eval_map,Reading.eval_each]

theorem routesReading_eval (dataTrustDomain : String) (disk : Disk) :
    (routesReading dataTrustDomain).eval disk = buildRoutesSnapshot disk dataTrustDomain := by
  simp only [routesReading,buildRoutesSnapshot,Reading.eval_look,Reading.eval_map,Reading.eval_each]

def watchSag (dataTrustDomain : String) : WatchStream dataTrustDomain SagSnapshot SagUpdate where
  builder := sagReading
  channel
    | .sag update => some (update.version,update.toSagSnapshot)
    | _ => none
  decode := sagUpdate
  published member received := by
    rcases mem_publishEvent member with rfl | rfl | rfl | ⟨_,rfl⟩ <;> cases received
    rfl

def watchSchedule (dataTrustDomain : String) : WatchStream dataTrustDomain Bytes (List WorkloadAssignment) where
  builder := scheduleReading dataTrustDomain
  channel
    | .schedule update => some (update.version,update.assignmentsBytes)
    | _ => none
  decode := deserializeAssignments
  published member received := by
    rcases mem_publishEvent member with rfl | rfl | rfl | ⟨_,rfl⟩ <;> cases received
    rw [scheduleReading_eval]

def watchRoutes (dataTrustDomain : String) : WatchStream dataTrustDomain Bytes (List RouteEntry) where
  builder := routesReading dataTrustDomain
  channel
    | .route update => some (update.version,update.routesBytes)
    | _ => none
  decode := deserializeRoutes
  published member received := by
    rcases mem_publishEvent member with rfl | rfl | rfl | ⟨_,rfl⟩ <;> cases received
    rw [routesReading_eval]

inductive Applying where
  | idle
  | allocated (prepared : Prepared)
  | committed (prepared : Prepared)

/-- The entries are those whose application has begun. -/
structure Watching (β φ : Type) where
  node : Node
  applying : Applying
  log : List Entry
  subscriber : Subscriber β
  received : List (Frame φ)

def Watching.initial {β φ : Type} (node : Node) : Watching β φ := ⟨node,.idle,[],.absent,[]⟩

inductive WatchAction where
  | allocate (entry : Entry) | commit | publish
  | subscribe | look | sendFirst | refuse | receive | skip | lag

inductive WatchStep (stream : WatchStream dataTrustDomain β φ) :
    Watching β φ → WatchAction → Watching β φ → Prop where
  | allocate {state : Watching β φ} : state.applying = .idle → prepareEntry state.node entry = .ok prepared →
      WatchStep stream state (.allocate entry) { state with
        node := { state.node with version := prepared.version }
        applying := .allocated prepared
        log := state.log ++ [entry] }
  | commit {state : Watching β φ} : state.applying = .allocated prepared → WatchStep stream state .commit { state with
        node := { state.node with disk := KeyValue.commit state.node.disk prepared.batch }
        applying := .committed prepared }
  | publish {state : Watching β φ} : state.applying = .committed prepared →
      WatchStep stream state .publish { state with
        applying := .idle
        subscriber := state.subscriber.deliver
          ((publishEvent dataTrustDomain state.node.disk prepared.version prepared.kind).filterMap stream.channel) }
  | subscribe {state : Watching β φ} : state.subscriber = .absent →
      WatchStep stream state .subscribe { state with subscriber := .building stream.builder [] }
  | look {state : Watching β φ} {next : Disk → Reading Disk β} : state.subscriber = .building (.look next) buffer →
      WatchStep stream state .look { state with subscriber := .building (next state.node.disk) buffer }
  | sendFirst {state : Watching β φ} :
      state.subscriber = .building (.done payload) buffer → stream.decode payload = .ok contents →
      WatchStep stream state .sendFirst { state with
        subscriber := .streaming buffer
        received := state.received ++ [⟨state.node.version,contents⟩] }
  | refuse {state : Watching β φ} :
      state.subscriber = .building (.done payload) buffer → stream.decode payload = .error reason →
      WatchStep stream state .refuse { state with subscriber := .absent }
  | receive {state : Watching β φ} {version : UInt64} :
      state.subscriber = .streaming ((version,payload) :: buffer) → stream.decode payload = .ok contents →
      WatchStep stream state .receive { state with
        subscriber := .streaming buffer
        received := state.received ++ [⟨version,contents⟩] }
  | skip {state : Watching β φ} {version : UInt64} :
      state.subscriber = .streaming ((version,payload) :: buffer) → stream.decode payload = .error reason →
      WatchStep stream state .skip { state with subscriber := .streaming buffer }
  -- a subscriber that falls behind loses the oldest updates of its channel
  | lag {state : Watching β φ} {update} : state.subscriber = .streaming (update :: buffer) →
      WatchStep stream state .lag { state with subscriber := .streaming buffer }

def effectsUpTo (start : Node) (log : List Entry) (version : UInt64) : Disk :=
  (apply start (log.take (version.toNat - start.version.toNat))).1.disk

structure WatchStream.Built (stream : WatchStream dataTrustDomain β φ) (start : Node) (log : List Entry) (version : UInt64)
    (payload : β) : Prop where
  after_start : start.version.toNat ≤ version.toNat
  begun : version.toNat ≤ start.version.toNat + log.length
  payload_eq : payload = stream.builder.eval (effectsUpTo start log version)

/-- A frame with exactly the effects of the entries up to its label. -/
def WatchStream.Reflects (stream : WatchStream dataTrustDomain β φ) (start : Node) (log : List Entry) (frame : Frame φ) :
    Prop :=
  ∃ payload, stream.Built start log frame.version payload ∧ stream.decode payload = .ok frame.contents

/-- No entry begins during the first frame, and none is between the counter and its commit. -/
def WatchApart (transition : Transition (Watching β φ) WatchAction) : Prop :=
  match transition.label with
  | .allocate _ => (∀ reading buffer, transition.before.subscriber ≠ .building reading buffer) ∧
      transition.before.node.version.toNat + 1 < 2 ^ 64
  | .subscribe => ∀ prepared, transition.before.applying ≠ .allocated prepared
  | _ => True

section
variable {stream : WatchStream dataTrustDomain β φ} {start : Node} {log : List Entry} {version : UInt64} {payload : β}
  {state : Watching β φ} {prepared : Prepared} {contents : φ}

theorem effectsUpTo_all (counted : version.toNat = start.version.toNat + log.length) :
    effectsUpTo start log version = (apply start log).1.disk := by
  rw [effectsUpTo,List.take_of_length_le (by omega)]

theorem WatchStream.Built.extend (built : stream.Built start log version payload) (entry : Entry) :
    stream.Built start (log ++ [entry]) version payload := by
  have reached := built.begun
  refine ⟨built.after_start,?_,?_⟩
  · rw [List.length_append]
    omega
  · rw [built.payload_eq,effectsUpTo,effectsUpTo,List.take_append_of_le_length (by omega)]

theorem WatchStream.Reflects.extend (reflects : stream.Reflects start log frame) (entry : Entry) :
    stream.Reflects start (log ++ [entry]) frame := by
  obtain ⟨payload,built,decoded⟩ := reflects
  exact ⟨payload,built.extend entry,decoded⟩

def Watching.labels (state : Watching β φ) : List UInt64 :=
  state.received.map (·.version) ++ state.subscriber.buffer.map (·.1)

/-- Where the applier is, compared with the entries that have begun. -/
def Applying.Follows (node reached : Node) : Applying → Prop
  | .idle => node.disk = reached.disk
  | .allocated prepared => KeyValue.commit node.disk prepared.batch = reached.disk ∧ prepared.version = node.version
  | .committed prepared => node.disk = reached.disk ∧ prepared.version = node.version

structure Steady (stream : WatchStream dataTrustDomain β φ) (start : Node) (state : Watching β φ) : Prop where
  applied : (apply start state.log).2.isOk = true
  counter : state.node.version = (apply start state.log).1.version
  counted : state.node.version.toNat = start.version.toNat + state.log.length
  applier : state.applying.Follows state.node (apply start state.log).1
  frames : ∀ frame ∈ state.received, stream.Reflects start state.log frame
  pending : ∀ update ∈ state.subscriber.buffer, stream.Built start state.log update.1 update.2
  ordered : state.labels.Pairwise (· ≤ ·)
  building : ∀ reading buffer, state.subscriber = .building reading buffer →
    (∀ prepared, state.applying ≠ .allocated prepared) ∧
      reading.eval state.node.disk = stream.builder.eval state.node.disk ∧ ∀ update ∈ buffer, update.1 = state.node.version
  unsent : (∀ buffer, state.subscriber ≠ .streaming buffer) → state.received = []

theorem steady_initial (node : Node) : Steady stream node (.initial node) where
  applied := rfl
  counter := rfl
  counted := rfl
  applier := rfl
  frames := by simp [Watching.initial]
  pending := by simp [Watching.initial,Subscriber.buffer]
  ordered := List.Pairwise.nil
  building := by simp [Watching.initial]
  unsent _ := rfl

section
variable (steady : Steady stream start state)
include steady

theorem Steady.labels_le : ∀ label ∈ state.labels, label.toNat ≤ state.node.version.toNat := by
  intro label member
  rw [steady.counted]
  rcases mem_append.mp member with sent | waiting
  · obtain ⟨frame,inside,rfl⟩ := mem_map.mp sent
    obtain ⟨_,built,_⟩ := steady.frames frame inside
    exact built.begun
  · obtain ⟨update,inside,rfl⟩ := mem_map.mp waiting
    exact (steady.pending update inside).begun

theorem Steady.built (committed : state.node.disk = (apply start state.log).1.disk) :
    stream.Built start state.log state.node.version (stream.builder.eval state.node.disk) where
  after_start := by
    have counted := steady.counted
    omega
  begun := steady.counted.le
  payload_eq := by rw [effectsUpTo_all steady.counted,committed]

theorem Steady.allocate (idle : state.applying = .idle) (prepare : prepareEntry state.node entry = .ok prepared)
    (apart : ∀ reading buffer, state.subscriber ≠ .building reading buffer)
    (room : state.node.version.toNat + 1 < 2 ^ 64) :
    Steady stream start { state with
      node := { state.node with version := prepared.version }
      applying := .allocated prepared
      log := state.log ++ [entry] } := by
  have reached : state.node = (apply start state.log).1 := by
    have committed := steady.applier
    rw [idle] at committed
    calc state.node = ⟨state.node.disk,state.node.version⟩ := rfl
      _ = ⟨(apply start state.log).1.disk,(apply start state.log).1.version⟩ := by rw [committed,steady.counter]
      _ = (apply start state.log).1 := rfl
  have version : prepared.version = state.node.version + 1 := by
    obtain ⟨_,_,prepare⟩ := bind_ok prepare
    cases prepare
    rfl
  have entered : applyEntry (apply start state.log).1 entry =
      .ok (⟨KeyValue.commit state.node.disk prepared.batch,prepared.version⟩,⟨prepared.version⟩) := by
    rw [← reached]
    simp only [applyEntry,prepare]
    rfl
  obtain ⟨result,fine⟩ := apply_concat steady.applied entered
  have counted := steady.counted
  refine ⟨fine,?_,?_,?_,?_,?_,steady.ordered,?_,steady.unsent⟩
  · rw [result]
  · simp only [version,UInt64.toNat_add,UInt64.reduceToNat,List.length_append,List.length_singleton]
    omega
  · rw [result]
    exact ⟨rfl,rfl⟩
  · exact fun frame member => (steady.frames frame member).extend entry
  · exact fun update member => (steady.pending update member).extend entry
  · intro reading buffer building
    exact absurd building (apart reading buffer)

theorem Steady.commit (allocated : state.applying = .allocated prepared) : Steady stream start { state with
      node := { state.node with disk := KeyValue.commit state.node.disk prepared.batch }
      applying := .committed prepared } := by
  have follows := steady.applier
  rw [allocated] at follows
  refine ⟨steady.applied,steady.counter,steady.counted,follows,steady.frames,steady.pending,steady.ordered,?_,steady.unsent⟩
  intro reading buffer building
  exact absurd allocated ((steady.building reading buffer building).1 prepared)

theorem Steady.deliver {updates} (committed : state.node.disk = (apply start state.log).1.disk)
    (fresh : ∀ update ∈ updates, update = (state.node.version,stream.builder.eval state.node.disk)) :
    Steady stream start { state with applying := .idle, subscriber := state.subscriber.deliver updates } := by
  obtain ⟨added,buffer,known⟩ := Subscriber.deliver_buffer updates state.subscriber
  refine ⟨steady.applied,steady.counter,steady.counted,committed,steady.frames,?_,?_,?_,?_⟩
  · intro update member
    rw [buffer] at member
    rcases mem_append.mp member with earlier | new
    · exact steady.pending update earlier
    · rw [fresh update (known update new)]
      exact steady.built committed
  · simp only [Watching.labels,buffer,List.map_append]
    rw [← List.append_assoc]
    refine pairwise_le_append steady.ordered steady.labels_le ?_
    intro label member
    obtain ⟨update,new,rfl⟩ := mem_map.mp member
    rw [fresh update (known update new)]
  · intro reading waiting building
    cases before : state.subscriber with
    | absent | streaming =>
      simp only [before,Subscriber.deliver] at building
      cases building
    | building early kept =>
      simp only [before,Subscriber.deliver] at building
      cases building
      obtain ⟨_,same,current⟩ := steady.building _ _ before
      refine ⟨by simp,same,?_⟩
      intro update member
      rcases mem_append.mp member with earlier | new
      · exact current update earlier
      · rw [fresh update new]
  · intro unsubscribed
    apply steady.unsent
    intro waiting streaming
    exact unsubscribed (waiting ++ updates) (by simp only [streaming,Subscriber.deliver])

theorem Steady.publish (committed : state.applying = .committed prepared) : Steady stream start { state with
      applying := .idle
      subscriber := state.subscriber.deliver
        ((publishEvent dataTrustDomain state.node.disk prepared.version prepared.kind).filterMap stream.channel) } := by
  have follows := steady.applier
  rw [committed] at follows
  refine steady.deliver follows.1 ?_
  intro update member
  obtain ⟨publication,inside,received⟩ := mem_filterMap.mp member
  rw [stream.published inside received,follows.2]

theorem Steady.subscribe (absent : state.subscriber = .absent)
    (apart : ∀ prepared, state.applying ≠ .allocated prepared) :
    Steady stream start { state with subscriber := .building stream.builder [] } := by
  have unsent : state.received = [] := steady.unsent (by simp [absent])
  refine ⟨steady.applied,steady.counter,steady.counted,steady.applier,steady.frames,?_,?_,?_,fun _ => unsent⟩
  · simp [Subscriber.buffer]
  · simp [Watching.labels,Subscriber.buffer,unsent]
  · intro reading buffer building
    cases building
    exact ⟨apart,rfl,by simp⟩

theorem Steady.look {next : Disk → Reading Disk β} (building : state.subscriber = .building (.look next) buffer) :
    Steady stream start { state with subscriber := .building (next state.node.disk) buffer } := by
  have same : state.subscriber.buffer = buffer := by simp only [building,Subscriber.buffer]
  obtain ⟨apart,evaluates,current⟩ := steady.building _ _ building
  refine ⟨steady.applied,steady.counter,steady.counted,steady.applier,steady.frames,?_,?_,?_,?_⟩
  · rw [← same]
    exact steady.pending
  · have ordered := steady.ordered
    simp only [Watching.labels,same] at ordered
    exact ordered
  · intro reading waiting now
    cases now
    exact ⟨apart,evaluates,current⟩
  · exact fun _ => steady.unsent (by simp [building])

theorem Steady.sendFirst (building : state.subscriber = .building (.done payload) buffer)
    (decoded : stream.decode payload = .ok contents) :
    Steady stream start { state with
      subscriber := .streaming buffer
      received := state.received ++ [⟨state.node.version,contents⟩] } := by
  have same : state.subscriber.buffer = buffer := by simp only [building,Subscriber.buffer]
  obtain ⟨apart,evaluates,current⟩ := steady.building _ _ building
  have unsent : state.received = [] := steady.unsent (by simp [building])
  have committed : state.node.disk = (apply start state.log).1.disk := by
    have follows := steady.applier
    cases applying : state.applying with
    | allocated prepared => exact absurd applying (apart prepared)
    | idle =>
      rw [applying] at follows
      exact follows
    | committed =>
      rw [applying] at follows
      exact follows.1
  refine ⟨steady.applied,steady.counter,steady.counted,steady.applier,?_,?_,?_,by simp,by simp⟩
  · intro frame member
    rw [unsent] at member
    obtain rfl := mem_singleton.mp member
    have payload_eq : payload = stream.builder.eval state.node.disk := evaluates
    exact ⟨payload,payload_eq ▸ steady.built committed,decoded⟩
  · rw [← same]
    exact steady.pending
  · simp only [Watching.labels,unsent,List.nil_append,List.map_cons,List.map_nil,Subscriber.buffer]
    have below : ∀ label ∈ [state.node.version], label.toNat ≤ state.node.version.toNat := by simp
    refine pairwise_le_append (List.pairwise_singleton _ _) below ?_
    intro label member
    obtain ⟨update,inside,rfl⟩ := mem_map.mp member
    exact current update inside

theorem Steady.refuse (building : state.subscriber = .building reading buffer) :
    Steady stream start { state with subscriber := .absent } := by
  have unsent : state.received = [] := steady.unsent (by simp [building])
  refine ⟨steady.applied,steady.counter,steady.counted,steady.applier,steady.frames,?_,?_,by simp,fun _ => unsent⟩
  · simp [Subscriber.buffer]
  · simp [Watching.labels,Subscriber.buffer,unsent]

theorem Steady.receive (streaming : state.subscriber = .streaming ((version,payload) :: buffer))
    (decoded : stream.decode payload = .ok contents) :
    Steady stream start { state with
      subscriber := .streaming buffer
      received := state.received ++ [⟨version,contents⟩] } := by
  have waiting : state.subscriber.buffer = (version,payload) :: buffer := by simp only [streaming,Subscriber.buffer]
  have pending := steady.pending
  have ordered := steady.ordered
  simp only [Watching.labels,waiting] at pending ordered
  refine ⟨steady.applied,steady.counter,steady.counted,steady.applier,?_,?_,?_,by simp,by simp⟩
  · intro frame member
    rcases mem_append.mp member with earlier | new
    · exact steady.frames frame earlier
    · obtain rfl := mem_singleton.mp new
      exact ⟨payload,pending _ mem_cons_self,decoded⟩
  · exact fun update member => pending update (mem_cons_of_mem _ member)
  · simpa [Watching.labels,Subscriber.buffer] using ordered

theorem Steady.drop (streaming : state.subscriber = .streaming (update :: buffer)) :
    Steady stream start { state with subscriber := .streaming buffer } := by
  have waiting : state.subscriber.buffer = update :: buffer := by simp only [streaming,Subscriber.buffer]
  have pending := steady.pending
  have ordered := steady.ordered
  simp only [Watching.labels,waiting] at pending ordered
  refine ⟨steady.applied,steady.counter,steady.counted,steady.applier,steady.frames,?_,?_,by simp,by simp⟩
  · exact fun update member => pending update (mem_cons_of_mem _ member)
  · refine ordered.sublist ?_
    exact ((List.sublist_cons_self update buffer).map _).append_left _

end

theorem steady_keeps (step : WatchStep stream before action after) (apart : WatchApart ⟨before,action,after⟩)
    (steady : Steady stream start before) : Steady stream start after := by
  cases step with
  | allocate idle prepare => exact steady.allocate idle prepare apart.1 apart.2
  | commit allocated => exact steady.commit allocated
  | publish committed => exact steady.publish committed
  | subscribe absent => exact steady.subscribe absent apart
  | look building => exact steady.look building
  | sendFirst building decoded => exact steady.sendFirst building decoded
  | refuse building _ => exact steady.refuse building
  | receive streaming decoded => exact steady.receive streaming decoded
  | skip streaming _ => exact steady.drop streaming
  | lag streaming => exact steady.drop streaming

end

/-- Every frame holds the effects of the entries up to its label, if none comes between. -/
theorem frames_follow_labels {stream : WatchStream dataTrustDomain β φ} {start : Node} {last : Watching β φ}
    {trace : List (Transition (Watching β φ) WatchAction)} (run : Run (WatchStep stream) (.initial start) trace last)
    (apart : ∀ transition ∈ trace, WatchApart transition) :
    (∀ frame ∈ last.received, stream.Reflects start last.log frame) ∧
      (last.received.map (·.version)).Pairwise (· ≤ ·) := by
  have steady := (run.invariant (Steady stream start) WatchApart (fun _ _ _ => steady_keeps) (steady_initial start) apart).2
  exact ⟨steady.frames,steady.ordered.sublist (List.sublist_append_left _ _)⟩

end

section
open Reference

def blankAt (index : UInt64) : Entry := ⟨logIdAt index,.blank⟩

def emptyPolicy : SagUpdate := ⟨[],[],[]⟩

theorem early_subscriber_served : ∃ trace last,
    Run (WatchStep (watchSag "data.example.internal")) (.initial (boot Disk.empty)) trace last ∧
    last.received.map (·.version) = [0,1] ∧
    ∀ frame ∈ last.received, (watchSag "data.example.internal").Reflects (boot Disk.empty) last.log frame := by
  have prepare : prepareEntry (boot Disk.empty) (blankAt 1) = .ok ⟨_,1,.sagUpdate⟩ := rfl
  have run : Run (WatchStep (watchSag "data.example.internal")) (.initial (boot Disk.empty)) _ _ :=
    .cons (.subscribe rfl) (.cons (.look rfl) (.cons (.look rfl) (.cons (.look rfl)
      (.cons (.sendFirst rfl (show (_ : Except String SagUpdate) = .ok emptyPolicy by decide +kernel))
        (.cons (.allocate rfl prepare) (.cons (.commit rfl) (.cons (.publish rfl)
          (.cons (.receive rfl (show (_ : Except String SagUpdate) = .ok emptyPolicy by decide +kernel)) (.nil _)))))))))
  refine ⟨_,_,run,rfl,(frames_follow_labels run ?_).1⟩
  refine forall_mem_cons.mpr ⟨?_,forall_mem_cons.mpr ⟨trivial,forall_mem_cons.mpr ⟨trivial,?_⟩⟩⟩
  · intro prepared busy
    cases busy
  refine forall_mem_cons.mpr ⟨trivial,forall_mem_cons.mpr ⟨trivial,forall_mem_cons.mpr ⟨⟨?_,?_⟩,?_⟩⟩⟩
  · intro reading buffer busy
    cases busy
  · decide
  refine forall_mem_cons.mpr ⟨trivial,forall_mem_cons.mpr ⟨trivial,forall_mem_cons.mpr ⟨trivial,?_⟩⟩⟩
  exact List.forall_mem_nil _

def ruleAt (index : UInt64) : Entry := commandAt index (.upsertSagRule ⟨"shop-to-db",[10],[]⟩)

/-- A frame bears the version of a rule that has not committed; a slow first frame comes out of order. -/
theorem labels_run_ahead : (∃ trace last frame,
      Run (WatchStep (watchSag "data.example.internal")) (.initial (boot Disk.empty)) trace last ∧
      last.received = [frame] ∧ ¬(watchSag "data.example.internal").Reflects (boot Disk.empty) last.log frame) ∧
    ∃ trace last, Run (WatchStep (watchSag "data.example.internal")) (.initial (boot Disk.empty)) trace last ∧
      last.received.map (·.version) = [2,1] := by
  constructor
  · have prepare : prepareEntry (boot Disk.empty) (ruleAt 1) = .ok ⟨_,1,.sagUpdate⟩ := rfl
    have run : Run (WatchStep (watchSag "data.example.internal")) (.initial (boot Disk.empty)) _ _ :=
      .cons (.allocate rfl prepare) (.cons (.subscribe rfl) (.cons (.look rfl) (.cons (.look rfl) (.cons (.look rfl)
        (.cons (.sendFirst rfl (show (_ : Except String SagUpdate) = .ok emptyPolicy by decide +kernel))
          (.cons (.commit rfl) (.cons (.publish rfl) (.nil _))))))))
    refine ⟨_,_,_,run,rfl,?_⟩
    rintro ⟨payload,built,decoded⟩
    rw [built.payload_eq] at decoded
    revert decoded
    decide +kernel
  · have first : prepareEntry (boot Disk.empty) (blankAt 1) = .ok ⟨_,1,.sagUpdate⟩ := rfl
    have second : prepareEntry (apply (boot Disk.empty) [blankAt 1]).1 (blankAt 2) = .ok ⟨_,2,.sagUpdate⟩ := rfl
    have run : Run (WatchStep (watchSag "data.example.internal")) (.initial (boot Disk.empty)) _ _ :=
      .cons (.subscribe rfl) (.cons (.allocate rfl first) (.cons (.commit rfl) (.cons (.publish rfl)
        (.cons (.allocate rfl second) (.cons (.commit rfl) (.cons (.publish rfl)
          (.cons (.look rfl) (.cons (.look rfl) (.cons (.look rfl)
            (.cons (.sendFirst rfl (show (_ : Except String SagUpdate) = .ok emptyPolicy by decide +kernel))
              (.cons (.receive rfl (show (_ : Except String SagUpdate) = .ok emptyPolicy by decide +kernel))
                (.nil _))))))))))))
    exact ⟨_,_,run,rfl⟩

end

theorem leBytes_leNat (bytes : Bytes) : leBytes bytes.length (leNat bytes) = bytes := by
  induction bytes with
  | nil => rfl
  | cons byte rest ih =>
    have digit : UInt8.ofNat (byte.toNat + 256 * leNat rest) = byte := by
      apply UInt8.toNat_inj.mp
      have bound := byte.toNat_lt
      rw [UInt8.toNat_ofNat']
      omega
    have carried : (byte.toNat + 256 * leNat rest) / 256 = leNat rest := by
      have bound := byte.toNat_lt
      omega
    rw [List.length_cons,leNat,leBytes,digit,carried,ih]

theorem slice_some {bytes found : Bytes} {start size : Nat} (read : slice bytes start (start + size) = some found) :
    found.length = size ∧ bytes.drop start = found ++ bytes.drop (start + size) := by
  unfold slice at read
  split at read
  case isTrue inside =>
    rw [Nat.add_sub_cancel_left] at read
    obtain rfl := Option.some.inj read
    refine ⟨by rw [List.length_take,List.length_drop]; omega,?_⟩
    rw [← List.drop_drop,List.take_append_drop]
  · cases read

theorem slice_append {bytes found rest : Bytes} {start : Nat} (whole : bytes.drop start = found ++ rest)
    (inside : start ≤ bytes.length) : slice bytes start (start + found.length) = some found := by
  have size := congrArg List.length whole
  rw [List.length_drop,List.length_append] at size
  rw [slice,if_pos (by omega),Nat.add_sub_cancel_left,whole,List.take_left]

variable [ManifestMessages]

def DecodesTo (frame : Bytes) (rule : SagRule) : Prop :=
  frame.length < 2 ^ 32 ∧ decodeSagRule frame = .ok rule

theorem decodeRulesFrom_ok (ok : decodeRulesFrom bytes offset = .ok rules) :
    ∃ frames, bytes.drop offset = frames.flatMap framedRule ∧ List.Forall₂ DecodesTo frames rules := by
  fun_induction decodeRulesFrom bytes offset generalizing rules with
  | case1 | case2 | case3 | case4 => cases ok
  | case5 offset _ lenSlice counted _ len frame framed rule decoded =>
    rename_i ih
    obtain ⟨four,front⟩ := slice_some counted
    obtain ⟨size,behind⟩ := slice_some framed
    have prefixed : leBytes 4 frame.length = lenSlice := by
      have read := leBytes_leNat lenSlice
      rwa [size,show len = leNat lenSlice by rw [← List.take_of_length_le four.le],← four]
    cases rest : decodeRulesFrom bytes (offset + 4 + len) with
    | error e =>
      rw [rest] at ok
      cases ok
    | ok others =>
      rw [rest] at ok
      obtain rfl := Except.ok.inj ok
      obtain ⟨frames,tail,decodes⟩ := ih rest
      have bound : frame.length < 2 ^ 32 := by
        have value := leNat_leBytes 4 frame.length
        rw [prefixed,← List.take_of_length_le four.le] at value
        have small := Nat.mod_lt frame.length (show 0 < 256 ^ 4 by decide)
        omega
      refine ⟨frame::frames,?_,.cons ⟨bound,decoded⟩ decodes⟩
      rw [front,behind,tail,List.flatMap_cons,framedRule,prefixed,List.append_assoc]
  | case6 offset done =>
    obtain rfl := Except.ok.inj ok
    exact ⟨[],List.drop_eq_nil_of_le (not_lt.mp done),.nil⟩

theorem decodeRulesFrom_frames {bytes} (decodes : List.Forall₂ DecodesTo frames rules) (offset : Nat)
    (whole : bytes.drop offset = frames.flatMap framedRule) : decodeRulesFrom bytes offset = .ok rules := by
  induction decodes generalizing offset with
  | nil =>
    rw [decodeRulesFrom,if_neg (not_lt.mpr (List.drop_eq_nil_iff.mp whole))]
  | @cons frame rule frames rules decoded _ ih =>
    rw [List.flatMap_cons,framedRule,List.append_assoc] at whole
    have size := congrArg List.length whole
    simp only [List.length_drop,List.length_append,leBytes_length] at size
    have inside : offset < bytes.length := by omega
    have within : offset + 4 ≤ bytes.length := by omega
    have counted := slice_append whole inside.le
    rw [leBytes_length] at counted
    have behind : bytes.drop (offset + 4) = frame ++ frames.flatMap framedRule := by
      rw [← List.drop_drop,whole,List.drop_left' (leBytes_length 4 _)]
    have value : leNat ((leBytes 4 frame.length).take 4) = frame.length := by
      rw [List.take_of_length_le (leBytes_length 4 _).le,leNat_leBytes,Nat.mod_eq_of_lt (show _ < 256 ^ 4 from decoded.1)]
    have framed : slice bytes (offset + 4) (offset + 4 + frame.length) = some frame := slice_append behind within
    rw [decodeRulesFrom,if_pos inside,counted]
    simp only [leBytes_length,value,framed,decoded.2,if_neg (lt_irrefl 4)]
    rw [ih _ (by rw [← List.drop_drop,behind,List.drop_left])]
    rfl

theorem decodeRulesFrom_inside (bytes : Bytes) (offset : Nat) : decodeRulesFrom bytes offset ≠ .error .panicked := by
  fun_induction decodeRulesFrom bytes offset with
  | case1 | case3 | case4 | case6 => nofun
  | case2 offset _ lenSlice counted short =>
    have four := (slice_some counted).1
    omega
  | case5 offset _ lenSlice counted _ len frame framed rule decoded =>
    rename_i ih
    intro panicked
    cases rest : decodeRulesFrom bytes (offset + 4 + len) with
    | error e =>
      rw [rest] at panicked ih
      exact ih panicked
    | ok others =>
      rw [rest] at panicked
      cases panicked

/-- What is stored comes back in key order, and nothing is read past the end of the buffer. -/
theorem rules_framed_exactly [FleetosCore] [Formats] (disk : Disk) (bytes : Bytes) :
    (∀ rules, List.Forall₂ DecodesTo ((disk .sagRules).toList.map (·.2)) rules →
      decodeRules (buildSagSnapshot disk).rulesBytes = .ok rules) ∧
    (decodeRules bytes = (decodeRulesFrom bytes 0).mapError DecodeRulesError.display ∧
      decodeRulesFrom bytes 0 ≠ .error .panicked) ∧
    ∀ rules, decodeRules bytes = .ok rules →
      ∃ frames, bytes = frames.flatMap framedRule ∧ List.Forall₂ DecodesTo frames rules := by
  refine ⟨fun rules decodes => ?_,⟨rfl,decodeRulesFrom_inside bytes 0⟩,fun rules ok => ?_⟩
  · rw [decodeRules,decodeRulesFrom_frames decodes 0]
    · rfl
    · rw [List.flatMap_map]
      rfl
  · rw [decodeRules] at ok
    cases decoded : decodeRulesFrom bytes 0 with
    | error e =>
      rw [decoded] at ok
      cases ok
    | ok found =>
      rw [decoded] at ok
      exact decodeRulesFrom_ok (decoded.trans (congrArg _ (Except.ok.inj ok)))

end FleetosControl
