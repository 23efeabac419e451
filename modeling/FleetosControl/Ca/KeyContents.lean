import Mathlib.Data.Nat.Digits.Lemmas
import FleetosControl.Raft.EvictedNodes

/-! What a delegated key says: node and workload, the role of the first placement in the scan, and
name constraints, which RFC 5280 wants otherwise. -/
namespace FleetosControl
open Wire

section
variable [FleetosCore] [SpiffeParts] [ProofCore] [DelegatedKeyCore]
  {request : DelegationRequest}

theorem targetRole_text (ok : targetRole role = .ok typed) : typed.map DelegatedKeyCore.asStr = role := by
  cases role with
  | none =>
    cases ok
    rfl
  | some text =>
    cases tried : DelegatedKeyCore.tryFrom text with
    | error e => simp [targetRole,tried,Except.map,Except.mapError] at ok
    | ok accepted =>
      simp only [targetRole,tried,Except.map,Except.mapError,Except.ok.injEq] at ok
      rw [← ok,Option.map_some,DelegatedKeyCore.asStr_tryFrom text accepted tried]

variable [Formats]

structure Hosts (request : DelegationRequest) (placement : Placement) : Prop where
  node : placement.nodeId = request.nodeId
  ordinal : ∀ wanted ∈ request.targetOrdinal, placement.ordinal = wanted
  service : request.targetSvidId =
    SpiffeParts.new (SpiffeParts.trustDomain request.targetSvidId) placement.tenantId .sa placement.service

def Placement.roleText (placement : Placement) : Option String :=
  if placement.role.isEmpty then none else some placement.role

theorem hosts_iff :
    hosts request.nodeId request.targetSvidId request.targetOrdinal placement = true ↔ Hosts request placement := by
  simp only [hosts,Bool.and_eq_true,decide_eq_true_eq]
  constructor
  · rintro ⟨⟨node,ordinal⟩,service⟩
    refine ⟨node,?_,service.symm⟩
    intro wanted given
    rw [given] at ordinal
    simpa using ordinal
  · rintro ⟨node,ordinal,service⟩
    refine ⟨⟨node,?_⟩,service.symm⟩
    cases given : request.targetOrdinal with
    | none => rfl
    | some wanted => simpa using ordinal wanted given

theorem verifyPlacement_hosts
    (ok : verifyPlacement storage request.nodeId request.targetSvidId request.targetOrdinal = .ok verified) :
    ∃ placement ∈ scanRecords Placement storage .placements, Hosts request placement ∧ verified.role = placement.roleText := by
  unfold verifyPlacement at ok
  split at ok
  case h_1 placement found =>
    cases ok
    exact ⟨placement,List.mem_of_find?_eq_some found,hosts_iff.mp (List.find?_some found),rfl⟩
  case h_2 => cases ok

structure Signing where
  request : DelegationRequest
  certDer : Bytes

/-- With the certificates that were signed on the way, whatever becomes of the key. -/
def issueAndSign (request : DelegationRequest) (bundle : TrustBundle) (storage : Disk) (issuedAt : Int64) :
    Except CaError DelegatedKeyBundle × List Signing :=
  match verifyPlacement storage request.nodeId request.targetSvidId request.targetOrdinal with
  | .error error => (.error error,[])
  | .ok verified =>
    match signIntermediate request bundle with
    | .error text => (.error (.other text),[])
    | .ok (keyPair,certDer) =>
      match targetRole verified.role with
      | .error text => (.error (.other text),[⟨request,certDer⟩])
      | .ok role =>
        (.ok ⟨toAllocvec (delegatedSigningKey request role issuedAt keyPair certDer),computeDelegationId
          (display request.nodeId) (display request.targetSvidId) request.targetOrdinal issuedAt⟩,
          [⟨request,certDer⟩])

section
variable {request : DelegationRequest} {bundle : TrustBundle} {storage : Disk} {issuedAt : Int64}

theorem issueAndSign_result :
    (issueAndSign request bundle storage issuedAt).1 = issueDelegatedKey request bundle storage issuedAt := by
  unfold issueAndSign issueDelegatedKey
  cases verifyPlacement storage request.nodeId request.targetSvidId request.targetOrdinal with
  | error error => rfl
  | ok verified =>
    change _ = ((delegatedKeyBytes request verified.role bundle issuedAt).mapError CaError.other).bind _
    unfold delegatedKeyBytes
    cases signIntermediate request bundle with
    | error text => rfl
    | ok signed =>
      cases typed : targetRole verified.role with
      | error text =>
        simp only [typed]
        rfl
      | ok role =>
        simp only [typed]
        rfl

theorem signing_hosted (signed : signing ∈ (issueAndSign request bundle storage issuedAt).2) :
    signing.request = request ∧ ∃ placement ∈ scanRecords Placement storage .placements, Hosts request placement := by
  unfold issueAndSign at signed
  split at signed
  case h_1 => simp at signed
  case h_2 verified ok =>
    obtain ⟨placement,stored,hosted,_⟩ := verifyPlacement_hosts ok
    refine ⟨?_,placement,stored,hosted⟩
    split at signed
    case h_1 => simp at signed
    case h_2 =>
      split at signed <;>
        rw [mem_singleton.mp signed]

theorem issued_contents (ok : issueDelegatedKey request bundle storage issuedAt = .ok key) :
    ∃ contents : DelegatedSigningKey, fromBytes key.keyBytes = .ok contents ∧
      contents.nodeId = display request.nodeId ∧
      contents.targetSvidId = display request.targetSvidId ∧
      contents.targetOrdinal = request.targetOrdinal ∧
      ∃ placement ∈ scanRecords Placement storage .placements,
        Hosts request placement ∧ contents.targetRole = placement.roleText := by
  obtain ⟨verified,placed,ok⟩ := bind_ok ok
  obtain ⟨bytes,made,ok⟩ := bind_ok ok
  cases ok
  obtain ⟨⟨keyPair,certDer⟩,_,made⟩ := bind_ok (mapError_ok.mp made)
  obtain ⟨role,typed,made⟩ := bind_ok made
  cases made
  obtain ⟨placement,stored,hosted,same⟩ := verifyPlacement_hosts placed
  exact ⟨_,fromBytes_toAllocvec _,rfl,rfl,rfl,placement,stored,hosted,(targetRole_text typed).trans same⟩

end

inductive KeyCall where
  | node (storage : Disk) (peer : Peer)
  | admin (server : AdminServer) (peer : Peer)

namespace KeyCall

def storage : KeyCall → Disk
  | .node storage _ => storage
  | .admin server _ => server.storage

def answer (config : DelegationConfig) (requestId : String) (req : DelegatedKeyRequest) : KeyCall → Except Status Delegated
  | .node storage peer => DelegationService.requestDelegatedKey config storage peer requestId req
  | .admin server peer => server.requestDelegatedKey config peer requestId req

def accept (config : DelegationConfig) (req : DelegatedKeyRequest) :
    KeyCall → Except Status (DelegationRequest × TrustBundle)
  | .node _ peer => DelegationService.acceptRequest config peer req
  | .admin server peer => server.acceptRequest config peer req

def signings (config : DelegationConfig) (req : DelegatedKeyRequest) (call : KeyCall) : List Signing :=
  match call.accept config req with
  | .error _ => []
  | .ok (request,bundle) => (issueAndSign request bundle call.storage config.issuedAt).2

end KeyCall

section
variable {config : DelegationConfig} {requestId : String} {req : DelegatedKeyRequest} {call : KeyCall}

theorem accept_asksFor (ok : call.accept config req = .ok (request,bundle)) : AsksFor req request := by
  cases call with
  | node storage peer => exact (DelegationService.acceptRequest_ok ok).2.2
  | admin server peer => exact AdminServer.acceptRequest_ok ok

theorem answer_ok {delegated} (ok : call.answer config requestId req = .ok delegated) :
    ∃ request bundle key, call.accept config req = .ok (request,bundle) ∧
      issueDelegatedKey request bundle call.storage config.issuedAt = .ok key ∧
      delegated.proposal.cmd = .issueDelegation (config.record request key) ∧
      delegated.response = config.response request key := by
  cases call
  all_goals
    obtain ⟨⟨request,bundle⟩,accepted,ok⟩ := bind_ok ok
    obtain ⟨key,issued,ok⟩ := bind_ok ok
    cases ok
    exact ⟨request,bundle,key,accepted,mapError_ok.mp issued,rfl,rfl⟩

end

/-- Nothing is signed, handed out or proposed but for a workload that is placed on the node. -/
theorem signed_only_where_hosted (call : KeyCall) (config : DelegationConfig) (requestId : String)
    (req : DelegatedKeyRequest) :
    (∀ signing ∈ call.signings config req, AsksFor req signing.request ∧
      ∃ placement ∈ scanRecords Placement call.storage .placements, Hosts signing.request placement) ∧
    (∀ delegated, call.answer config requestId req = .ok delegated → ∃ request record, ∃ key : DelegatedSigningKey,
      AsksFor req request ∧ delegated.proposal.cmd = .issueDelegation record ∧
      record.nodeId = request.nodeId ∧ record.targetSvidId = request.targetSvidId ∧
      record.targetOrdinal = request.targetOrdinal ∧
      fromBytes delegated.response.keyMaterial = .ok key ∧ key.nodeId = display request.nodeId ∧
      key.targetSvidId = display request.targetSvidId ∧ key.targetOrdinal = request.targetOrdinal ∧
      ∃ placement ∈ scanRecords Placement call.storage .placements,
        Hosts request placement ∧ key.targetRole = placement.roleText) ∧
    ((∀ request, AsksFor req request → ∀ placement ∈ scanRecords Placement call.storage .placements,
        ¬Hosts request placement) →
      call.signings config req = [] ∧ ∃ status, call.answer config requestId req = .error status) := by
  have signed : ∀ signing ∈ call.signings config req, AsksFor req signing.request ∧
      ∃ placement ∈ scanRecords Placement call.storage .placements, Hosts signing.request placement := by
    intro signing member
    unfold KeyCall.signings at member
    split at member
    case h_1 => simp at member
    case h_2 request bundle accepted =>
      obtain ⟨same,hosted⟩ := signing_hosted member
      rw [same]
      exact ⟨accept_asksFor accepted,hosted⟩
  refine ⟨signed,?_,?_⟩
  · intro delegated ok
    obtain ⟨request,bundle,key,accepted,issued,proposed,response⟩ := answer_ok ok
    obtain ⟨contents,decoded,node,target,ordinal,hosted⟩ := issued_contents issued
    rw [response]
    exact ⟨request,_,contents,accept_asksFor accepted,proposed,rfl,rfl,rfl,decoded,node,target,ordinal,hosted⟩
  · intro unhosted
    constructor
    · refine List.eq_nil_iff_forall_not_mem.mpr fun signing member => ?_
      obtain ⟨requested,placement,stored,hosted⟩ := signed signing member
      exact unhosted _ requested placement stored hosted
    · cases outcome : call.answer config requestId req with
      | error status => exact ⟨status,rfl⟩
      | ok delegated =>
        obtain ⟨request,bundle,key,accepted,issued,_⟩ := answer_ok outcome
        obtain ⟨_,_,_,_,_,placement,stored,hosted,_⟩ := issued_contents issued
        exact (unhosted request (accept_asksFor accepted) placement stored hosted).elim

end

section
open Reference Wire.Codec

theorem shop_key_signed : ∃ delegated request placement, ∃ key : DelegatedSigningKey,
    (KeyCall.node placed.disk (some hostId)).answer delegationConfig "req-1" ⟨hostId.1,shopId.1,some 0,0⟩ =
      .ok delegated ∧ fromBytes delegated.response.keyMaterial = .ok key ∧ Hosts request placement ∧
    key.targetRole = placement.roleText := by
  obtain ⟨delegated,ok⟩ : ∃ delegated, (KeyCall.node placed.disk (some hostId)).answer delegationConfig "req-1"
      ⟨hostId.1,shopId.1,some 0,0⟩ = .ok delegated := ⟨_,rfl⟩
  obtain ⟨request,_,key,_,_,_,_,_,decoded,_,_,_,placement,_,hosted,role⟩ :=
    (signed_only_where_hosted (.node placed.disk (some hostId)) delegationConfig "req-1"
      ⟨hostId.1,shopId.1,some 0,0⟩).2.1 delegated ok
  exact ⟨delegated,request,placement,key,ok,decoded,hosted,role⟩

end

namespace Der

def length (n : Nat) : Bytes :=
  if n < 128 then [UInt8.ofNat n]
  else UInt8.ofNat (128 + (Nat.digits 256 n).length) :: (Nat.digits 256 n).reverse.map UInt8.ofNat

def element (tag : UInt8) (content : Bytes) : Bytes := tag :: length content.length ++ content

/-- A general name in its implicit form: the number of the alternative and the contents. -/
structure GeneralName where
  alternative : UInt8
  content : Bytes

def uniformResourceIdentifier (uri : String) : GeneralName := ⟨6,asBytes uri⟩

structure NameConstraints where
  permittedSubtrees : List GeneralName
  excludedSubtrees : List GeneralName

/-- With the default `minimum` and no `maximum`, which is what the profile allows. -/
def generalSubtrees (names : List GeneralName) : Bytes :=
  names.flatMap fun name => element 0x30 (element (0x80 + name.alternative) name.content)

def nameConstraints (value : NameConstraints) : Bytes :=
  element 0x30 ((if value.permittedSubtrees.isEmpty then [] else element 0xA0 (generalSubtrees value.permittedSubtrees)) ++
    if value.excludedSubtrees.isEmpty then [] else element 0xA1 (generalSubtrees value.excludedSubtrees))

theorem length_short {n : Nat} (short : n < 128) : (length n).length = 1 := by
  simp [length,short]

theorem length_medium {n : Nat} (long : 128 ≤ n) (small : n < 256) : length n = [0x81,UInt8.ofNat n] := by
  rw [length,if_neg (by omega),Nat.digits_of_lt 256 n (by omega) small]
  rfl

theorem length_long {n : Nat} (large : 256 ≤ n) : 3 ≤ (length n).length := by
  have bounded := Nat.lt_base_pow_length_digits (m := n) (show 1 < 256 by decide)
  rw [length,if_neg (by omega),List.length_cons,List.length_map,List.length_reverse]
  by_contra few
  have power : 256 ^ (Nat.digits 256 n).length ≤ 256 ^ 1 := Nat.pow_le_pow_right (by decide) (by omega)
  omega

theorem length_pos (n : Nat) : 1 ≤ (length n).length := by
  unfold length
  split <;> simp

theorem lt_of_length_one {n : Nat} (one : (length n).length = 1) : n < 128 := by
  by_contra long
  rcases lt_or_ge n 256 with small | large
  · simp [length_medium (not_lt.mp long) small] at one
  · exact absurd (length_long large) (by omega)

theorem element_length (tag : UInt8) (content : Bytes) :
    (element tag content).length = 1 + (length content.length).length + content.length := by
  simp [element]
  omega

end Der

/-- What is made is longer than the standard's form in all but a few lengths, and in these it starts differently. -/
theorem constraints_never_der (trustDomain : String) : (buildUriNameConstraints trustDomain).content ≠
    Der.nameConstraints ⟨[Der.uniformResourceIdentifier ("spiffe://" ++ trustDomain ++ "/")],[]⟩ := by
  intro same
  let uri := asBytes ("spiffe://" ++ trustDomain ++ "/")
  let subtree := Der.element 0x30 (Der.element 0x86 uri)
  let permitted := Der.element 0xA0 subtree
  have standard : Der.nameConstraints ⟨[Der.uniformResourceIdentifier ("spiffe://" ++ trustDomain ++ "/")],[]⟩ =
      0x30 :: Der.length permitted.length ++ permitted := by
    simp [Der.nameConstraints,Der.generalSubtrees,Der.uniformResourceIdentifier,permitted,subtree,uri]
    rfl
  rw [standard] at same
  have named := Der.element_length 0x86 uri
  have sequence : subtree.length = _ := Der.element_length 0x30 _
  have tagged : permitted.length = _ := Der.element_length 0xA0 subtree
  have total := congrArg List.length same
  simp only [buildUriNameConstraints,derElement,List.length_cons,List.length_append] at total
  change uri.length + 1 + 1 + 1 + 1 + 1 + 1 + 1 + 1 + 1 + 1 = _ at total
  have first := Der.length_pos uri.length
  have second := Der.length_pos (Der.element 0x86 uri).length
  have third := Der.length_pos subtree.length
  rcases lt_or_ge permitted.length 256 with small | large
  · rcases lt_or_ge permitted.length 128 with short | long
    · -- all lengths are short, and the standard's form is two bytes shorter
      have lengths := Der.length_short short
      have inner := Der.length_short (show subtree.length < 128 by omega)
      have names := Der.length_short (show (Der.element 0x86 uri).length < 128 by omega)
      have texts := Der.length_short (show uri.length < 128 by omega)
      omega
    · rw [Der.length_medium long small] at same total
      simp only [buildUriNameConstraints,derElement,List.cons_append,List.nil_append,List.cons.injEq,true_and] at same
      have outer : UInt8.ofNat permitted.length = 0xA0 := same.2.1.symm
      have tag := congrArg UInt8.toNat outer
      have own := congrArg UInt8.toNat same.1
      simp only [UInt8.toNat_ofNat',List.length_cons,List.length_nil] at tag own total
      change (uri.length + 1 + 1 + 1 + 1 + 1 + 1 + 1 + 1) % 2 ^ 8 = 129 at own
      change permitted.length % 2 ^ 8 = 160 at tag
      omega
  · have outer := Der.length_long large
    have short := Der.lt_of_length_one (n := uri.length) (by omega)
    omega

/-- For the domain of the example configuration: the base of the subtree comes out as a sequence. -/
theorem constraints_of_fleet : (buildUriNameConstraints "fleet.example.internal").content =
      [0x30,40,0xA0,38,0x30,36,0x30,34,0x86,32] ++ asBytes "spiffe://fleet.example.internal/" ∧
    Der.nameConstraints ⟨[Der.uniformResourceIdentifier "spiffe://fleet.example.internal/"],[]⟩ =
      [0x30,38,0xA0,36,0x30,34,0x86,32] ++ asBytes "spiffe://fleet.example.internal/" := by
  decide +kernel

open KeyValue

section
variable [FleetosCore] [SpiffeParts] [ProofCore] [DelegatedKeyCore] [Formats]
  {request : DelegationRequest} {storage : Disk} {bundle : TrustBundle} {issuedAt : Int64}

def MeetsFirst (storage : Disk) (request : DelegationRequest) (first : Placement) : Prop :=
  Hosts request first ∧ ∃ earlier later, scanRecords Placement storage .placements = earlier ++ first :: later ∧
    ∀ other ∈ earlier, ¬Hosts request other

theorem verifyPlacement_ok_iff :
    verifyPlacement storage request.nodeId request.targetSvidId request.targetOrdinal = .ok verified ↔
      ∃ first, MeetsFirst storage request first ∧ verified = ⟨first.roleText⟩ := by
  have first_iff : ∀ first, (scanRecords Placement storage .placements).find?
      (hosts request.nodeId request.targetSvidId request.targetOrdinal) = some first ↔ MeetsFirst storage request first := by
    intro first
    simp only [List.find?_eq_some_iff_append,MeetsFirst,hosts_iff,Bool.not_eq_true',← Bool.not_eq_true]
  simp only [← first_iff]
  unfold verifyPlacement
  split
  case h_1 placement found =>
    simp only [found,Option.some.injEq,Except.ok.injEq,exists_eq_left',Placement.roleText]
    exact eq_comm
  case h_2 missing => simp [missing]

theorem issued_iff : issueDelegatedKey request bundle storage issuedAt = .ok key ↔
    ∃ first keyPair certDer role, MeetsFirst storage request first ∧
      signIntermediate request bundle = .ok (keyPair,certDer) ∧ targetRole first.roleText = .ok role ∧
      key = ⟨toAllocvec (delegatedSigningKey request role issuedAt keyPair certDer),computeDelegationId
        (display request.nodeId) (display request.targetSvidId) request.targetOrdinal issuedAt⟩ := by
  constructor
  · intro ok
    obtain ⟨verified,placed,ok⟩ := bind_ok ok
    obtain ⟨bytes,made,ok⟩ := bind_ok ok
    cases ok
    obtain ⟨⟨keyPair,certDer⟩,signed,made⟩ := bind_ok (mapError_ok.mp made)
    obtain ⟨role,typed,made⟩ := bind_ok made
    cases made
    obtain ⟨first,meets,rfl⟩ := verifyPlacement_ok_iff.mp placed
    exact ⟨first,keyPair,certDer,role,meets,signed,typed,rfl⟩
  · rintro ⟨first,keyPair,certDer,role,meets,signed,typed,rfl⟩
    have placed := verifyPlacement_ok_iff.mpr ⟨first,meets,rfl⟩
    rw [← issueAndSign_result,issueAndSign,placed]
    simp only [signed,typed]

/-- The node gets a key with the pod's role if one of its requests meets, of all pods it fits, one of that role first. -/
theorem own_role_obtained_iff (storage : Disk) (pod : Placement) (bundle : TrustBundle) (issuedAt : Int64) :
    (∃ request key, ∃ contents : DelegatedSigningKey, Hosts request pod ∧
      issueDelegatedKey request bundle storage issuedAt = .ok key ∧ fromBytes key.keyBytes = .ok contents ∧
      contents.targetRole = pod.roleText) ↔
    ∃ request first, Hosts request pod ∧ MeetsFirst storage request first ∧ first.roleText = pod.roleText ∧
      (∃ role, targetRole pod.roleText = .ok role) ∧ ∃ signed, signIntermediate request bundle = .ok signed := by
  constructor
  · rintro ⟨request,key,contents,hosted,ok,decoded,own⟩
    obtain ⟨first,keyPair,certDer,role,meets,signed,typed,rfl⟩ := issued_iff.mp ok
    cases (fromBytes_toAllocvec _).symm.trans decoded
    have same : first.roleText = pod.roleText := (targetRole_text typed).symm.trans own
    exact ⟨request,first,hosted,meets,same,⟨role,same ▸ typed⟩,_,signed⟩
  · rintro ⟨request,first,hosted,meets,same,⟨role,typed⟩,⟨keyPair,certDer⟩,signed⟩
    refine ⟨request,_,_,hosted,issued_iff.mpr ⟨first,keyPair,certDer,role,meets,signed,same ▸ typed,rfl⟩,
      fromBytes_toAllocvec _,?_⟩
    exact targetRole_text typed

end

open Reference

def podOf (role : String) : Placement := ⟨"shop-" ++ role ++ "-0","acme","shop",role,0,hostId,⟨500,268435456⟩⟩

def twoRoles : Disk := commit Disk.empty [put .placements (asBytes "shop-db-0") (podOf "db"),
  put .placements (asBytes "shop-web-0") (podOf "web")]

theorem twoRoles_scanned : scanRecords Placement twoRoles .placements = [podOf "db",podOf "web"] := by
  decide +kernel

/-- Whatever the host asks for, the key says that its web pod is a database. -/
theorem web_role_unobtainable : scanRecords Placement twoRoles .placements = [podOf "db",podOf "web"] ∧
    (∃ request key, Hosts request (podOf "web") ∧ issueDelegatedKey request dataControl twoRoles 1700000000 = .ok key) ∧
    ∀ request key, ∀ contents : DelegatedSigningKey, Hosts request (podOf "web") →
      issueDelegatedKey request dataControl twoRoles 1700000000 = .ok key → fromBytes key.keyBytes = .ok contents →
      contents.targetRole = some "db" := by
  refine ⟨twoRoles_scanned,⟨⟨hostId,shopId,some 0,3600⟩,_,hosts_iff.mp (by decide +kernel),rfl⟩,?_⟩
  intro request key contents hosted ok decoded
  obtain ⟨first,keyPair,certDer,role,⟨_,earlier,later,scanned,unfit⟩,_,typed,rfl⟩ := issued_iff.mp ok
  cases (fromBytes_toAllocvec _).symm.trans decoded
  have other : Hosts request (podOf "db") := ⟨hosted.node,hosted.ordinal,hosted.service⟩
  rw [twoRoles_scanned] at scanned
  cases earlier with
  | nil =>
    obtain rfl : podOf "db" = first := (List.cons.inj scanned).1
    exact targetRole_text typed
  | cons before rest =>
    obtain rfl : podOf "db" = before := (List.cons.inj scanned).1
    exact absurd other (unfit _ mem_cons_self)

end FleetosControl
