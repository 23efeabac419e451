import FleetosControl.Controllers.NoExecute
import FleetosControl.Watch.PodEventStore
import FleetosControl.Watch.SecretService
import FleetosControl.Watch.Subscription

/-! The services behind the Data/Control listener, which lets peers in without a certificate.
Status, metrics and watch streams do not look at the caller. -/
namespace FleetosControl.DataControl
open Wire Unwinding

inductive StreamContents where
  | policy (frame : Frame SagUpdate)
  | schedule (frame : Frame (List WorkloadAssignment))
  | routes (frame : Frame (List RouteEntry))

inductive Channel where
  | watch | sag | schedule | routes | podEvents
  deriving DecidableEq

section
variable [FleetosCore] [ProofCore]

inductive Request where
  | reportWorkloadStatus (report : WorkloadStatusReport)
  | reportPodMetrics (metrics : PodMetrics)
  | reportNodeStatus (report : NodeStatusReport)
  | watchEvents
  | watchSchedule
  | watchRoutes
  | fetchSecret (ephemeral : Bytes) (req : FetchSecretRequest)
  | watchSag
  | requestDelegatedKey (config : DelegationConfig) (requestId : String) (req : DelegatedKeyRequest)
  | reportPodEvents (events : List PodEvent)
  | watchPodEvents

/-- A proposal lands in the log under `logId`, or the call fails. -/
structure Call where
  peer : Peer
  request : Request
  now : Int64
  logId : Option LogId
  failure : Status

end

inductive Response where
  | refused (status : Status)
  | acknowledged (accepted : Bool)
  | delivered (secret : SealedSecret)
  | delegated (key : DelegatedKeyResponse)
  | subscribed (channel : Channel) (first : Option StreamContents)

/-- The control node that serves the listener. `memory` is what else its process keeps. -/
structure Leader (μ : Type) where
  node : Node
  metrics : MetricsStore
  sequenceTracker : String × UInt64 → UInt64
  podEvents : List PodEvent
  memory : μ

structure Served (μ : Type) where
  leader : Leader μ
  response : Response
  publications : List Publication

structure Config where
  dataTrustDomain : String
  masterKey : FileMasterKey

def Leader.answer {μ : Type} (leader : Leader μ) (response : Response) : Served μ := ⟨leader,response,[]⟩

def Leader.subscribe {μ φ : Type} (leader : Leader μ) (channel : Channel) (contents : Frame φ → StreamContents)
    (failure : String) (first : Except String (Frame φ)) : Served μ :=
  match first with
  | .ok frame => leader.answer (.subscribed channel (some (contents frame)))
  | .error _ => leader.answer (.refused ⟨.internal,failure⟩)

structure Serving (μ : Type) where
  leader : Leader μ
  anonymous : List Channel
  received : List StreamContents

section
variable {μ : Type} {leader : Leader μ}

/-- The store does not take the window: there is no pod of that name, no room for another pod, or a newer window. -/
def Leader.Ignores (leader : Leader μ) (metrics : PodMetrics) : Prop :=
  metrics.podId = "" ∨ (leader.node.disk .placements)[asBytes metrics.podId]? = none ∨
    (leader.metrics.pods.contains metrics.podId = false ∧ MetricsStore.maxPods ≤ leader.metrics.pods.size) ∨
    ∃ record newest, leader.metrics.pods[metrics.podId]? = some record ∧ record.windows.getLast? = some newest ∧
      metrics.windowUnix ≤ newest.windowUnix

theorem Leader.Ignores.report {metrics} (ignores : leader.Ignores metrics) (now : UInt64) :
    (∃ e, leader.metrics.report (leader.node.disk .placements) now metrics = .error e) ∨
      leader.metrics.report (leader.node.disk .placements) now metrics = .ok (false,leader.metrics) := by
  unfold MetricsStore.report
  rcases ignores with unnamed | unplaced | ⟨untracked,full⟩ | ⟨record,newest,tracked,last,older⟩
  · simp [unnamed]
  · split
    · exact .inl ⟨_,rfl⟩
    · simp [unplaced]
  · split
    · exact .inl ⟨_,rfl⟩
    · split
      · exact .inl ⟨_,rfl⟩
      · simp [untracked,full]
  · split
    · exact .inl ⟨_,rfl⟩
    · split
      · exact .inl ⟨_,rfl⟩
      · split
        · exact .inl ⟨_,rfl⟩
        · simp [tracked,last,older]

structure Served.Nothing (served : Served μ) (leader : Leader μ) : Prop where
  kept : served.leader = leader
  quiet : served.publications = []
  unsubscribed : ∀ channel first, served.response = .subscribed channel first → channel = .watch ∧ first = none

theorem Leader.refused_nothing (leader : Leader μ) (status : Status) : (leader.answer (.refused status)).Nothing leader :=
  ⟨rfl,rfl,fun _ _ impossible => by cases impossible⟩

theorem Leader.subscribe_nothing {φ : Type} {channel} {contents : Frame φ → StreamContents} {failure}
    {first : Except String (Frame φ)} (failed : first.isOk = false) :
    (leader.subscribe channel contents failure first).Nothing leader := by
  cases first with
  | ok frame => cases failed
  | error e => exact leader.refused_nothing _

end

section
variable [FleetosCore] [Formats] [ManifestMessages] [PodMessages] [Naming] [StreamFormats]

def firstFrame {dataTrustDomain : String} {β φ : Type} (stream : WatchStream dataTrustDomain β φ) (node : Node) :
    Except String (Frame φ) :=
  (stream.decode (stream.builder.eval node.disk)).map fun contents => ⟨node.version,contents⟩

def nextFrame {dataTrustDomain : String} {β φ : Type} (stream : WatchStream dataTrustDomain β φ)
    (publication : Publication) : Option (Frame φ) :=
  (stream.channel publication).bind fun (version,payload) => (stream.decode payload).toOption.map (⟨version,·⟩)

def Channel.receive (dataTrustDomain : String) (publication : Publication) : Channel → Option StreamContents
  | .sag => (nextFrame (watchSag dataTrustDomain) publication).map .policy
  | .schedule => (nextFrame (watchSchedule dataTrustDomain) publication).map .schedule
  | .routes => (nextFrame (watchRoutes dataTrustDomain) publication).map .routes
  | .watch | .podEvents => none

def Serving.deliver {μ : Type} (config : Config) (state : Serving μ) (publications : List Publication) :
    List StreamContents :=
  publications.flatMap fun publication => state.anonymous.filterMap (Channel.receive config.dataTrustDomain publication)

theorem deliver_nothing {μ : Type} {state : Serving μ} (only : ∀ channel ∈ state.anonymous, channel = .watch)
    (publications : List Publication) :
    state.deliver config publications = [] := by
  simp only [Serving.deliver,List.flatMap_eq_nil_iff,List.filterMap_eq_nil_iff]
  intro publication _ channel member
  rw [only channel member]
  rfl

end

section
variable [FleetosCore] [Formats] [ManifestMessages] [PodMessages] [Naming] [StreamFormats] [Aead]
  [Postcard EnvelopeSecret] [Sealing] [SpiffeParts] [ProofCore] [DelegatedKeyCore] {μ : Type}
  (config : Config) {call : Call}

def Leader.propose (leader : Leader μ) (call : Call) (proposal : AuditedCommand) (response : Response) : Served μ :=
  match call.logId with
  | none => leader.answer (.refused call.failure)
  | some logId =>
    match applyAndPublish config.dataTrustDomain leader.node ⟨logId,.normal proposal⟩ with
    | .error _ => leader.answer (.refused call.failure)
    | .ok (node,_,publications) => ⟨{ leader with node },response,publications⟩

def handle (leader : Leader μ) (call : Call) : Served μ :=
  match call.request with
  | .reportWorkloadStatus report =>
    match reportWorkloadStatus call.peer report with
    | .error status => leader.answer (.refused status)
    | .ok proposal => leader.propose config call proposal (.acknowledged true)
  | .reportPodMetrics metrics =>
    match reportPodMetrics leader.metrics (leader.node.disk .placements) call.now.toUInt64 call.peer metrics with
    | .error status => leader.answer (.refused status)
    | .ok (accepted,metrics) => ⟨{ leader with metrics },.acknowledged accepted,[]⟩
  | .reportNodeStatus report =>
    match reportNodeStatus (leader.node.disk .nodes) call.now call.peer report with
    | .error status => leader.answer (.refused status)
    | .ok proposal => leader.propose config call proposal (.acknowledged true)
  | .watchEvents => leader.answer (.subscribed .watch none)
  | .watchSchedule => leader.subscribe .schedule .schedule "failed to build initial schedule frame"
      (firstFrame (watchSchedule config.dataTrustDomain) leader.node)
  | .watchRoutes => leader.subscribe .routes .routes "failed to build initial routes frame"
      (firstFrame (watchRoutes config.dataTrustDomain) leader.node)
  | .fetchSecret ephemeral req =>
    match (SecretServiceImpl.mk config.masterKey leader.node.disk leader.sequenceTracker).fetchSecret ephemeral call.peer req
      with
    | (.error status,served) => ⟨{ leader with sequenceTracker := served.sequenceTracker },.refused status,[]⟩
    | (.ok secret,served) => ⟨{ leader with sequenceTracker := served.sequenceTracker },.delivered secret,[]⟩
  | .watchSag => leader.subscribe .sag .policy "failed to build initial SAG frame"
      (firstFrame (watchSag config.dataTrustDomain) leader.node)
  | .requestDelegatedKey delegation requestId req =>
    match DelegationService.requestDelegatedKey delegation leader.node.disk call.peer requestId req with
    | .error status => leader.answer (.refused status)
    | .ok delegated => leader.propose config call delegated.proposal (.delegated delegated.response)
  | .reportPodEvents events =>
    match reportPodEvents call.now.toUInt64 call.peer events with
    | .error status => leader.answer (.refused status)
    | .ok emitted => ⟨{ leader with podEvents := leader.podEvents ++ emitted },.acknowledged true,[]⟩
  | .watchPodEvents =>
    match watchPodEvents call.peer with
    | .error status => leader.answer (.refused status)
    | .ok () => leader.answer (.subscribed .podEvents none)

/-- `internal` is everything else: attestation, certificates, the other listeners, the controllers, the log. -/
inductive Input (μ : Type) where
  | called (call : Call)
  | internal (act : Leader μ → Leader μ × List Publication)

def Input.hidden : Input μ → Bool
  | .called call => call.peer.isNone
  | .internal _ => false

def serve (state : Serving μ) : Input μ → Serving μ
  | .internal act =>
    ⟨(act state.leader).1,state.anonymous,state.received ++ state.deliver config (act state.leader).2⟩
  | .called call =>
    let served := handle config state.leader call
    let received := state.received ++ state.deliver config served.publications
    match call.peer, served.response with
    | none, .subscribed channel first => ⟨served.leader,channel :: state.anonymous,received ++ first.toList⟩
    | _, _ => ⟨served.leader,state.anonymous,received⟩

def run (leader : Leader μ) (inputs : List (Input μ)) : Serving μ := inputs.foldl (serve config) ⟨leader,[],[]⟩

/-- What a call must be like to come to nothing, on the methods that do not ask who is calling. -/
def Call.ComesToNothing (leader : Leader μ) (call : Call) : Prop :=
  match call.request with
  | .reportWorkloadStatus report => report.podId = "" ∨ call.logId = none
  | .reportPodMetrics metrics => leader.Ignores metrics
  | .watchSchedule => (firstFrame (watchSchedule config.dataTrustDomain) leader.node).isOk = false
  | .watchRoutes => (firstFrame (watchRoutes config.dataTrustDomain) leader.node).isOk = false
  | .watchSag => (firstFrame (watchSag config.dataTrustDomain) leader.node).isOk = false
  | _ => True

def Harmless (state : Serving μ) : Input μ → Prop
  | .called call => call.peer = none → call.ComesToNothing config state.leader
  | .internal _ => True

variable {config} {leader : Leader μ}

theorem handle_nothing (unknown : call.peer = none) (nothing : call.ComesToNothing config leader) :
    (handle config leader call).Nothing leader := by
  obtain ⟨peer,request,now,logId,failure⟩ := call
  cases unknown
  cases request with
  | reportWorkloadStatus report =>
    rcases nothing with unnamed | refused
    · simp only [handle,reportWorkloadStatus,unnamed]
      exact leader.refused_nothing _
    · cases refused
      simp only [handle]
      split
      · exact leader.refused_nothing _
      · exact leader.refused_nothing _
  | reportPodMetrics metrics =>
    simp only [handle,reportPodMetrics]
    rcases Leader.Ignores.report nothing now.toUInt64 with ⟨e,refused⟩ | ignored
    · rw [refused]
      exact leader.refused_nothing _
    · rw [ignored]
      exact ⟨rfl,rfl,fun _ _ impossible => by cases impossible⟩
  | watchEvents => exact ⟨rfl,rfl,fun _ _ open_ => by cases open_; exact ⟨rfl,rfl⟩⟩
  | watchSchedule | watchRoutes | watchSag => exact Leader.subscribe_nothing nothing
  | reportNodeStatus | fetchSecret | requestDelegatedKey | reportPodEvents | watchPodEvents =>
    exact leader.refused_nothing _

theorem serve_leader (state : Serving μ) (call : Call) :
    (serve config state (.called call)).leader = (handle config state.leader call).leader := by
  simp only [serve]
  split <;> rfl

/-- The streams that peers without an identity have open carry no contents, and none have come to them. -/
structure Unserved (state : Serving μ) : Prop where
  only : ∀ channel ∈ state.anonymous, channel = .watch
  none_received : state.received = []

theorem serve_unserved (state : Serving μ) (input : Input μ) (harmless : Harmless config state input)
    (unserved : Unserved state) : Unserved (serve config state input) := by
  cases input with
  | internal act => exact ⟨unserved.only,by simp [serve,unserved.none_received,deliver_nothing unserved.only]⟩
  | called call =>
    simp only [serve]
    rw [unserved.none_received,deliver_nothing unserved.only]
    split
    case h_1 channel first unknown response =>
      obtain ⟨rotations,empty⟩ := (handle_nothing unknown (harmless unknown)).unsubscribed channel first response
      subst rotations empty
      exact ⟨by simpa using unserved.only,rfl⟩
    case h_2 => exact ⟨unserved.only,rfl⟩

theorem unwinds : Unwinds (serve config) Serving.leader (Input.hidden (μ := μ)) (Harmless config) where
  silent state input hidden harmless := by
    cases input with
    | internal act => cases hidden
    | called call =>
      have unknown : call.peer = none := Option.isNone_iff_eq_none.mp hidden
      rw [serve_leader]
      exact (handle_nothing unknown (harmless unknown)).kept
  consistent left right input _ same := by
    cases input with
    | internal act => simp only [serve,same]
    | called call => rw [serve_leader,serve_leader,same]

theorem report_believed {report} (asked : call.request = .reportWorkloadStatus report) (down : report.live = false)
    (taken : (handle config leader call).response = .acknowledged true) {slot placement}
    (placed : (scanRecords Placement leader.node.disk .placements).find? (fun placement => placement.slot = slot) =
      some placement) (own : report.podId = placement.podId) (stalenessSecs now : Int64) :
    isDead (handle config leader call).leader.node.disk stalenessSecs now slot = true := by
  simp only [handle,asked,reportWorkloadStatus] at taken ⊢
  by_cases unnamed : report.podId.isEmpty = true
  · simp only [unnamed,if_true,invalidArgument] at taken
    cases taken
  · simp only [unnamed,if_false,Bool.false_eq_true,Leader.propose] at taken ⊢
    split at taken
    case h_1 => cases taken
    case h_2 logId landed =>
      split at taken
      case h_1 => cases taken
      case h_2 node response publications applied =>
        have advances : Advances leader.node _ node := ⟨response,(applyAndPublish_ok applied).1⟩
        obtain ⟨writes,kind,ok,contents⟩ := advances.applied rfl
        cases ok
        refine isDead_reported placed ?_ ?_ (advances.frame rfl ?_) (contents _ rfl) stalenessSecs now
        · exact own
        · exact down
        · intro audited normal
          cases normal
          simp [AuditedCommand.system,touches]

/-- Peers without an identity leave no trace and read nothing, if their calls come to nothing. -/
theorem anonymous_calls_invisible (config : Config) (leader : Leader μ) (left right : List (Input μ))
    (same : (left.filter fun input => !input.hidden) = right.filter fun input => !input.hidden)
    (harmlessLeft : Along (serve config) (Harmless config) ⟨leader,[],[]⟩ left)
    (harmlessRight : Along (serve config) (Harmless config) ⟨leader,[],[]⟩ right) :
    (run config leader left).leader.node = (run config leader right).leader.node ∧
    (run config leader left).leader.metrics = (run config leader right).leader.metrics ∧
    (∀ stalenessSecs now, deadPods (run config leader left).leader.node.disk stalenessSecs now =
      deadPods (run config leader right).leader.node.disk stalenessSecs now) ∧
    (run config leader left).received = [] ∧ (run config leader right).received = [] := by
  have agree : (run config leader left).leader = (run config leader right).leader :=
    unwinds.agree same harmlessLeft harmlessRight
  have start : Unserved (⟨leader,[],[]⟩ : Serving μ) := ⟨by simp,rfl⟩
  refine ⟨by rw [agree],by rw [agree],fun _ _ => by rw [agree],?_,?_⟩
  · exact (harmlessLeft.invariant serve_unserved start).none_received
  · exact (harmlessRight.invariant serve_unserved start).none_received

end

open Reference

def served : Config := ⟨"data.example.internal",masterKey⟩

def settled : Leader Unit where
  node := (withRule.taken (commandAt 4
    (.submitWorkloadSpec ⟨"acme","shop",encodeWorkloadSpec (shopSpec "web" 1),[]⟩))).node
  metrics := ⟨∅⟩
  sequenceTracker _ := 0
  podEvents := []
  memory := ()

def unknownPeer (request : Request) : Input Unit := .called ⟨none,request,60,some (logIdAt 5),⟨.internal,"not the leader"⟩⟩

def load (podId : String) : PodMetrics := ⟨podId,900,1,0,0,60⟩

def down (podId : String) : WorkloadStatusReport := ⟨podId,"shop","acme",false,false,true,true,0,60,true⟩

theorem unknown_report_believed : isDead (handle served settled
    ⟨none,.reportWorkloadStatus (down "shop-web-0"),60,some (logIdAt 5),⟨.internal,""⟩⟩).leader.node.disk 60 100
      ⟨"acme","shop","web",0⟩ = true := by
  have hosted : ((scanRecords Placement settled.node.disk .placements).find? fun placement =>
      placement.slot = ⟨"acme","shop","web",0⟩).map (·.podId) = some "shop-web-0" := by decide +kernel
  obtain ⟨placement,placed,own⟩ := map_eq_some_iff.mp hosted
  exact report_believed rfl rfl rfl placed own.symm 60 100

theorem unplaced_load_invisible :
    (run served settled [unknownPeer (.reportPodMetrics (load "db-main-0"))]).leader.node =
      (run served settled []).leader.node ∧
    (run served settled [unknownPeer (.reportPodMetrics (load "db-main-0"))]).received = [] := by
  have unplaced : (settled.node.disk .placements)[asBytes "db-main-0"]? = none := by decide +kernel
  have invisible := anonymous_calls_invisible served settled [unknownPeer (.reportPodMetrics (load "db-main-0"))] [] rfl
    ⟨fun _ => .inr (.inl unplaced),trivial⟩ trivial
  exact ⟨invisible.1,invisible.2.2.2.1⟩

def StreamContents.entries : StreamContents → Nat
  | .policy frame => frame.contents.rules.length
  | .schedule frame => frame.contents.length
  | .routes frame => frame.contents.length

/-- It reports a live pod dead, feeds the autoscaler a load, and reads the streams. -/
theorem unknown_peer_served : (∀ request, (unknownPeer request).hidden = true) ∧
    deadPods (run served settled []).leader.node.disk 60 100 = [] ∧
    deadPods (run served settled [unknownPeer (.reportWorkloadStatus (down "shop-web-0"))]).leader.node.disk 60 100 =
      [⟨"acme","shop","web",0⟩] ∧
    (run served settled []).leader.metrics.getWindows "shop-web-0" = none ∧
    (run served settled [unknownPeer (.reportPodMetrics (load "shop-web-0"))]).leader.metrics.getWindows "shop-web-0" =
      some [load "shop-web-0"] ∧
    (run served settled [unknownPeer .watchSag]).received.map StreamContents.entries = [1] ∧
    (run served settled [unknownPeer .watchSchedule]).received.map StreamContents.entries = [1] ∧
    (run served settled [unknownPeer .watchRoutes]).received.map StreamContents.entries = [1] := by
  refine ⟨fun _ => rfl,?_⟩
  decide +kernel

end FleetosControl.DataControl
