import FleetosControl.Apply.Baseline

/-! Which rules lie in the store. An upsert checks a rule as a whole; an apply merges the fields of
a manifest into the stored rule and checks nothing. -/
namespace FleetosControl
open Wire KeyValue Trace Views Manifests

class PolicyCompiler where
  WorkloadRole : Type
  tryFromRole : String → Except String WorkloadRole
  validateOptionalPort : Option UInt32 → Except String (Option UInt16)
  -- a port above 65535 is rejected, not truncated
  port_fits : ∀ {port : UInt32} {valid : Option UInt16}, validateOptionalPort (some port) = .ok valid → port.toNat < 2^16
  ruleIdHex : String → String → Option WorkloadRole → Option UInt16 → String → Option WorkloadRole → Option UInt16 →
    String → String

def required {α : Type} (value : Option α) (field : String) : Except Status α :=
  match value with
  | some value => .ok value
  | none => invalidArgument (field ++ " is required")

theorem required_ok {α : Type} {value : Option α} {field : String} {given : α} (ok : required value field = .ok given) :
    value = some given := by
  unfold required at ok
  split at ok <;> cases ok
  rfl

def actionText (action : Int32) : Except Status String :=
  if action = 0 then .ok "ALLOW"
  else if action = 1 then .ok "DENY"
  else invalidArgument ("invalid action value: " ++ toString action)

theorem actionText_ok {action : Int32} (ok : actionText action = .ok text) : action = 0 ∨ action = 1 := by
  unfold actionText at ok
  split at ok
  case isTrue allow => exact .inl allow
  case isFalse =>
    split at ok
    case isTrue denied => exact .inr denied
    case isFalse => cases ok

section
variable [PolicyCompiler]

def parsePort (port : Option UInt32) (field : String) : Except Status (Option UInt16) :=
  (PolicyCompiler.validateOptionalPort port).mapError fun e => ⟨.invalidArgument,"invalid " ++ field ++ ": " ++ e⟩

-- the empty text stands for every role
def parseRole (role field : String) : Except Status (Option PolicyCompiler.WorkloadRole) :=
  if role.isEmpty then .ok none
  else ((PolicyCompiler.tryFromRole role).mapError fun e => ⟨.invalidArgument,"invalid " ++ field ++ ": " ++ e⟩).map some

structure SidesPass (fromSide toSide : PeerSelector) : Prop where
  tenant : fromSide.tenant = toSide.tenant
  named : validateIdentifier fromSide.tenant "from.tenant" = .ok ()
  fromService : validateIdentifier fromSide.serviceName "from.service_name" = .ok ()
  toService : validateIdentifier toSide.serviceName "to.service_name" = .ok ()
  fromPort : ∀ port ∈ fromSide.port, port.toNat < 2^16
  toPort : ∀ port ∈ toSide.port, port.toNat < 2^16
  fromRole : ∃ role, parseRole fromSide.role "from.role" = .ok role
  toRole : ∃ role, parseRole toSide.role "to.role" = .ok role

structure SagRule.Passes (rule : SagRule) : Prop where
  sides : ∃ fromSide toSide, rule.fromSide = some fromSide ∧ rule.toSide = some toSide ∧ SidesPass fromSide toSide
  action : rule.action = 0 ∨ rule.action = 1

theorem parsePort_fits (ok : parsePort port field = .ok valid) : ∀ given ∈ port, given.toNat < 2^16 := by
  intro given member
  rw [Option.mem_def.mp member] at ok
  exact PolicyCompiler.port_fits (mapError_ok.mp ok)

end

section
variable [FleetosCore] [WorkloadMessages] [ManifestMessages] [Formats] [PolicyCompiler] {audited : AuditedCommand}
  {manifest : ManifestSagRuleSpec}

def AdminServer.upsertSagRule (server : AdminServer) (peer : Peer) (requestId : String) (request : Option SagRule) :
    Except Status AuditedCommand := do
  verifyCaller peer
  server.requireClusterAdminWrite peer
  let rule ← required request "rule"
  let fromSide ← required rule.fromSide "rule.from"
  let toSide ← required rule.toSide "rule.to"
  if fromSide.tenant ≠ toSide.tenant then
    invalidArgument "from.tenant and to.tenant must match (cross-tenant rules are prohibited)"
  else
    validateIdentifier fromSide.tenant "from.tenant"
    validateIdentifier fromSide.serviceName "from.service_name"
    validateIdentifier toSide.serviceName "to.service_name"
    let fromPort ← parsePort fromSide.port "from.port"
    let toPort ← parsePort toSide.port "to.port"
    let fromRole ← parseRole fromSide.role "from.role"
    let toRole ← parseRole toSide.role "to.role"
    let action ← actionText rule.action
    let ruleId := PolicyCompiler.ruleIdHex fromSide.tenant fromSide.serviceName fromRole fromPort toSide.serviceName toRole
      toPort action
    pure ⟨.upsertSagRule ⟨ruleId,encodeSagRule rule,[]⟩,
      some (server.buildAuditContext peer requestId ruleId)⟩

theorem AdminServer.upsertSagRule_proposes {server : AdminServer} {peer : Peer} {requestId : String}
    {request : Option SagRule} (ok : server.upsertSagRule peer requestId request = .ok audited) :
    ∃ rule ruleId, rule.Passes ∧ audited.cmd = .upsertSagRule ⟨ruleId,encodeSagRule rule,[]⟩ := by
  obtain ⟨_,_,ok⟩ := bind_ok ok
  obtain ⟨_,_,ok⟩ := bind_ok ok
  obtain ⟨rule,_,ok⟩ := bind_ok ok
  obtain ⟨fromSide,fromGiven,ok⟩ := bind_ok ok
  obtain ⟨toSide,toGiven,ok⟩ := bind_ok ok
  split at ok
  case isTrue => cases ok
  case isFalse same =>
    obtain ⟨_,tenant,ok⟩ := bind_ok ok
    obtain ⟨_,fromService,ok⟩ := bind_ok ok
    obtain ⟨_,toService,ok⟩ := bind_ok ok
    obtain ⟨_,fromPort,ok⟩ := bind_ok ok
    obtain ⟨_,toPort,ok⟩ := bind_ok ok
    obtain ⟨_,fromRole,ok⟩ := bind_ok ok
    obtain ⟨_,toRole,ok⟩ := bind_ok ok
    obtain ⟨_,action,ok⟩ := bind_ok ok
    cases ok
    refine ⟨rule,_,⟨⟨fromSide,toSide,required_ok fromGiven,required_ok toGiven,?_⟩,?_⟩,rfl⟩
    · exact ⟨Classical.not_not.mp same,tenant,fromService,toService,parsePort_fits fromPort,parsePort_fits toPort,
        ⟨_,fromRole⟩,⟨_,toRole⟩⟩
    · exact actionText_ok action

def RulesPass (storage : Disk) : Prop := ∀ (key : Bytes) bytes, (storage .sagRules)[key]? = some bytes →
  ∃ rule, decodeSagRule bytes = .ok rule ∧ rule.Passes

def PassingRule (keyspace : Keyspace) (_ : Bytes) (bytes : Bytes) : Prop :=
  keyspace = .sagRules → ∃ rule : SagRule, bytes = encodeSagRule rule ∧ rule.Passes

/-- It declares an action, and both sides if nothing is stored under its name. -/
structure ManifestSagRuleSpec.Complete (manifest : ManifestSagRuleSpec) (stored : Option Bytes) : Prop where
  action : ∀ action ∈ manifest.action, action = 0 ∨ action = 1
  sides : stored = none → ∃ fromSide toSide, manifest.fromSide = some fromSide ∧ manifest.toSide = some toSide ∧
    SidesPass fromSide toSide

def Manifest.CompleteRule (manifest : Manifest) (storage : Disk) : Prop :=
  ∀ rule, manifest.kind = "SagRule" → manifest.spec = some (.sagRule rule) →
    rule.Complete (storage .sagRules)[asBytes manifest.name]?

theorem merged_passes {live : SagRule} (passes : live.Passes) (clean : live.Fields Merging.clean manifest)
    (action : ∀ action ∈ manifest.action, action = 0 ∨ action = 1) : (live.merged manifest).Passes := by
  obtain ⟨fromSide,toSide,fromGiven,toGiven,sides⟩ := passes.sides
  obtain ⟨fromClean,toClean,_⟩ := clean
  refine ⟨⟨fromSide,toSide,?_,?_,sides⟩,?_⟩
  · cases wanted : manifest.fromSide with
    | none => simp [SagRule.merged,wanted,fromGiven]
    | some side =>
      have agreed := fromClean (some side) (by simp [wanted])
      simpa [SagRule.merged,wanted,fromGiven,eq_comm] using agreed
  · cases wanted : manifest.toSide with
    | none => simp [SagRule.merged,wanted,toGiven]
    | some side =>
      have agreed := toClean (some side) (by simp [wanted])
      simpa [SagRule.merged,wanted,toGiven,eq_comm] using agreed
  · cases wanted : manifest.action with
    | none => simpa [SagRule.merged,wanted] using passes.action
    | some value => simpa [SagRule.merged,wanted] using action value (by simp [wanted])

theorem merged_new_passes (complete : manifest.Complete none) : (SagRule.merged {} manifest).Passes := by
  obtain ⟨fromSide,toSide,fromGiven,toGiven,sides⟩ := complete.sides rfl
  refine ⟨⟨fromSide,toSide,by simp [SagRule.merged,fromGiven],by simp [SagRule.merged,toGiven],sides⟩,?_⟩
  cases wanted : manifest.action with
  | none => simp [SagRule.merged,wanted]
  | some value => simpa [SagRule.merged,wanted] using complete.action value (by simp [wanted])

variable [MessageLaws]

theorem applied_rule_passes {manifest : Manifest} (pass : Every PassingRule storage)
    (complete : manifest.CompleteRule storage) (agreed : ¬Conflicts storage manifest)
    (made : (processManifest storage manifest).2 = some update)
    (target : manifestKeyspace update.targetKeyspace = some .sagRules) :
    ∃ rule : SagRule, update.newRecordBytes = encodeSagRule rule ∧ rule.Passes := by
  obtain ⟨keyspace,bytes,named,merged,rfl⟩ := processManifest_update.mp made
  obtain rfl : keyspace = .sagRules := by simpa using (Manifest.target_keyspace named).1.symm.trans target
  have known : manifest.target ≠ none := by simp [named]
  have clean := Classical.not_not.mp ((not_congr (conflicts_iff known storage)).mp agreed)
  rw [live_eq named] at clean
  generalize update.targetKeyspace = name, update.targetKey = key at named clean merged
  cases targets_of_target named with
  | sagRule kind =>
    generalize update.newRecordBytes = bytes at merged
    cases merge_updated merged with
    | workload other => exact absurd (kind.symm.trans other) (by decide)
    | secret other => exact absurd (kind.symm.trans other) (by decide)
    | nodePool other => exact absurd (kind.symm.trans other) (by decide)
    | @sagRule rule _ spec =>
      have wanted := complete rule kind spec
      refine ⟨_,rfl,?_⟩
      cases stored : (storage .sagRules)[asBytes manifest.name]? with
      | none =>
        rw [stored] at wanted
        exact merged_new_passes wanted
      | some bytes =>
        obtain ⟨live,rfl,passes⟩ := pass .sagRules _ bytes stored rfl
        have fields := clean _ spec kind.symm
        simp only [stored,Option.getD_some,liveSagRule_encode] at fields ⊢
        exact merged_passes passes fields wanted.action

inductive RuleCall where
  | upsert (rule : Option SagRule)
  | apply (manifests : List Manifest)
  | other

structure RuleCommit where
  call : RuleCall
  entry : Entry

inductive RuleCommit.ComputedFrom (view : Node) : RuleCommit → Prop where
  | upsert {server : AdminServer} {peer requestId rule audited} {entry : Entry} :
      server.storage = view.disk → server.upsertSagRule peer requestId rule = .ok audited →
      entry.payload = .normal audited → ComputedFrom view ⟨.upsert rule,entry⟩
  | apply {server : AdminServer} {peer requestId manifests} {dryRun : Bool} {response audited} {entry : Entry} :
      server.storage = view.disk →
      server.apply peer requestId ⟨some manifests,dryRun⟩ = .ok response → response.proposal = some audited →
      entry.payload = .normal audited → ComputedFrom view ⟨.apply manifests,entry⟩
  | other {entry : Entry} : (∀ audited, entry.payload = .normal audited → (∀ record, audited.cmd ≠ .upsertSagRule record) ∧
      ∀ updates, audited.cmd ≠ .applyManifests updates) → ComputedFrom view ⟨.other,entry⟩

abbrev RuleStep :=
  CommitStep RuleCommit.ComputedFrom fun before (commit : RuleCommit) after => Advances before commit.entry after

def RuleCommit.Complete (view : Node) (commit : RuleCommit) : Prop :=
  ∀ manifests, commit.call = .apply manifests → ∀ manifest ∈ manifests, manifest.CompleteRule view.disk

theorem computed_writes_pass {commit : RuleCommit} (computed : commit.ComputedFrom view)
    (complete : commit.Complete view) (pass : Every PassingRule view.disk)
    (normal : commit.entry.payload = .normal audited) (ok : applyCommand disk audited.cmd = .ok (writes,kind)) :
    ∀ write ∈ writes, write.Keeps PassingRule := by
  cases computed with
  | upsert _ accepted payload =>
    cases payload.symm.trans normal
    obtain ⟨rule,ruleId,passes,command⟩ := AdminServer.upsertSagRule_proposes accepted
    rw [command] at ok
    cases ok
    intro write member
    rw [mem_singleton.mp member]
    exact fun _ => ⟨rule,rfl,passes⟩
  | @apply server peer requestId manifests dryRun response _ entry own answered proposed payload =>
    cases payload.symm.trans normal
    have proposes := ((apply_answers rfl answered).2.2 _).mp proposed |>.2
    rw [proposes.command] at ok
    cases ok
    intro write member
    obtain ⟨update,listed,written⟩ := mem_filterMap.mp member
    obtain ⟨manifest,asked,made⟩ := mem_filterMap.mp listed
    obtain ⟨keyspace,target,rfl⟩ := map_eq_some_iff.mp written
    rintro rfl
    rw [own] at made
    exact applied_rule_passes pass (complete _ rfl manifest asked) (own ▸ proposes.agreed manifest asked) made target
  | other apart =>
    obtain ⟨upserts,applies⟩ := apart audited normal
    intro write member
    cases write with
    | remove table key => trivial
    | insert table key bytes =>
      rintro rfl
      have touched := applyCommand_within _ _ _ _ ok _ member
      cases cmd : audited.cmd <;> rw [cmd] at touched ok <;> simp [touches] at touched
      case upsertSagRule record => exact absurd cmd (upserts record)
      case deleteSagRule ruleId =>
        cases ok
        cases mem_singleton.mp member
      case applyManifests updates => exact absurd cmd (applies updates)

/-- If the manifests for new rules are complete, the stored rules pass the checks of the request. -/
theorem stored_rules_pass {trace : List (Committed Node RuleCommit)} {last : History Node}
    (run : Run RuleStep (.fresh (boot Disk.empty)) trace last)
    (complete : ∀ transition ∈ trace, transition.label.command.Complete transition.label.view) :
    (∀ transition ∈ trace, RulesPass transition.after.current.disk) ∧ RulesPass last.current.disk := by
  have readable : ∀ node : Node, Every PassingRule node.disk → RulesPass node.disk := by
    intro node every key bytes found
    obtain ⟨rule,rfl,passes⟩ := every .sagRules key bytes found rfl
    exact ⟨rule,MessageLaws.decode_encode_rule rule,passes⟩
  have kept := run_seen run (fun node => Every PassingRule node.disk) (fun _ label => label.command.Complete label.view)
    ?_ ?_ complete
  · exact ⟨fun transition member => readable _ (kept.1 transition member),readable _ kept.2⟩
  · intro current label next holds seen computed advances met
    rcases advances.cases with ⟨audited,writes,kind,normal,ok,contents⟩ | ⟨_,same⟩
    · have committed := commit_every holds writes (computed_writes_pass computed met seen normal ok)
      intro keyspace key bytes found own
      rw [contents keyspace (by rw [own]; rfl)] at found
      exact committed keyspace key bytes found own
    · intro keyspace key bytes found own
      rw [same keyspace (by rw [own]; rfl)] at found
      exact holds keyspace key bytes found own
  · intro view seen keyspace key bytes found
    rw [History.seen_fresh] at seen
    simp [seen,Disk.empty] at found

end

open Reference

instance Reference.policyCompiler : PolicyCompiler where
  WorkloadRole := String
  tryFromRole := .ok
  validateOptionalPort
    | none => .ok none
    | some port => if port.toNat < 2^16 then .ok (some (UInt16.ofNat port.toNat)) else .error "port out of range"
  port_fits := by
    intro port valid ok
    dsimp only at ok
    split at ok
    · assumption
    · cases ok
  ruleIdHex tenant fromService fromRole fromPort toService toRole toPort action :=
    tenant ++ "/" ++ fromService ++ "/" ++ fromRole.getD "*" ++ "/" ++ toString (fromPort.map (·.toNat)) ++ "/" ++
      toService ++ "/" ++ toRole.getD "*" ++ "/" ++ toString (toPort.map (·.toNat)) ++ "/" ++ action

def shopRule (rule : ManifestSagRuleSpec) : Manifest :=
  ⟨"fleetos.dev/v1alpha1","SagRule","shop-to-db","",some (.sagRule rule)⟩

def shopToDb : ManifestSagRuleSpec where
  fromSide := some ⟨"acme","shop","web",none⟩
  toSide := some ⟨"acme","db","",some 5432⟩

def appliedRule (rule : ManifestSagRuleSpec) : AuditedCommand :=
  ⟨.applyManifests [⟨"sag_rules",asBytes "shop-to-db",encodeSagRule (SagRule.merged {} rule)⟩],
    some ((adminServer Disk.empty).buildAuditContext fleetctlProxy "req-1" "apply")⟩

def ruleEntry (rule : ManifestSagRuleSpec) : Entry := ⟨logIdAt 1,.normal (appliedRule rule)⟩

def ruleStored (rule : ManifestSagRuleSpec) : Node := (FleetosControl.apply (boot Disk.empty) [ruleEntry rule]).1

def ruleTrace (rule : ManifestSagRuleSpec) : List (Committed Node RuleCommit) :=
  [⟨.fresh (boot Disk.empty),⟨boot Disk.empty,⟨.apply [shopRule rule],ruleEntry rule⟩⟩,
    ⟨ruleStored rule,[boot Disk.empty]⟩⟩]

theorem ruleTrace_run (admitted : (adminServer Disk.empty).Admits fleetctlProxy (shopRule rule))
    (agreed : ¬Conflicts Disk.empty (shopRule rule)) (update : (processManifest Disk.empty (shopRule rule)).2 =
      some ⟨"sag_rules",asBytes "shop-to-db",encodeSagRule (SagRule.merged {} rule)⟩) :
    Run RuleStep (.fresh (boot Disk.empty)) (ruleTrace rule) ⟨ruleStored rule,[boot Disk.empty]⟩ := by
  have caller : verifyCaller fleetctlProxy = .ok () := rfl
  obtain ⟨response,answered⟩ := (adminServer Disk.empty).apply_listed caller "req-1" [shopRule rule] false
  have updates : [shopRule rule].filterMap (fun manifest => (processManifest Disk.empty manifest).2) =
      [⟨"sag_rules",asBytes "shop-to-db",encodeSagRule (SagRule.merged {} rule)⟩] := by
    simp [update]
  have proposes : (adminServer Disk.empty).Proposes fleetctlProxy "req-1" [shopRule rule] (appliedRule rule) := by
    refine ⟨by simpa using admitted,List.forall_mem_singleton.mpr agreed,?_,?_⟩
    · exact fun none => List.cons_ne_nil _ _ (updates.symm.trans none)
    · rw [appliedRule,← updates]
      rfl
  have proposed := ((apply_answers rfl answered).2.2 _).mpr ⟨rfl,proposes⟩
  exact .cons (commitStep (.inl rfl) (.apply rfl answered proposed rfl) (advances_apply rfl)) (.nil _)

theorem complete_manifest_passes :
    ((ruleStored shopToDb).disk .sagRules)[asBytes "shop-to-db"]?.isSome = true ∧ RulesPass (ruleStored shopToDb).disk := by
  have run : Run RuleStep (.fresh (boot Disk.empty)) (ruleTrace shopToDb) ⟨ruleStored shopToDb,[boot Disk.empty]⟩ :=
    ruleTrace_run (by decide +kernel) (by decide +kernel) (by decide +kernel)
  refine ⟨by decide +kernel,(stored_rules_pass run ?_).2⟩
  intro transition member manifests call manifest asked rule kind spec
  cases mem_singleton.mp member
  cases call
  cases mem_singleton.mp asked
  cases spec
  refine ⟨by simp [shopToDb],fun _ => ⟨_,_,rfl,rfl,?_⟩⟩
  exact ⟨rfl,rfl,rfl,rfl,by simp,by simp,⟨_,rfl⟩,⟨_,rfl⟩⟩

def denyOnly : ManifestSagRuleSpec := { action := some 1 }

/-- A manifest with an action and no sides is accepted and stores a rule that the request refuses. -/
theorem denial_without_sides :
    Run RuleStep (.fresh (boot Disk.empty)) (ruleTrace denyOnly) ⟨ruleStored denyOnly,[boot Disk.empty]⟩ ∧
    ¬RulesPass (ruleStored denyOnly).disk ∧
    ((adminServer Disk.empty).upsertSagRule fleetctlProxy "req-2" (some { action := 1 })).isOk = false := by
  refine ⟨ruleTrace_run (by decide +kernel) (by decide +kernel) (by decide +kernel),?_,by decide +kernel⟩
  intro pass
  have stored : ((ruleStored denyOnly).disk .sagRules)[asBytes "shop-to-db"]? =
      some (encodeSagRule { action := 1 }) := by decide +kernel
  obtain ⟨rule,decoded,passes⟩ := pass _ _ stored
  rw [MessageLaws.decode_encode_rule] at decoded
  cases decoded
  obtain ⟨_,_,missing,_⟩ := passes.sides
  cases missing

end FleetosControl
