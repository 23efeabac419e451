import Mathlib.Algebra.Order.Floor.Div
import Mathlib.GroupTheory.GroupAction.Ring
import FleetosControl.Admin.Workloads
import FleetosControl.Raft.Eviction
import FleetosControl.Storage.Ledger

/-! The disruption guard, which reads budgets as if the stored bytes were the protobuf specification, the
placed pods that a command takes out, and the drain of a node. -/
namespace FleetosControl
open Wire KeyValue Trace Std

inductive DisruptionTarget where
  | eviction | scaleDown | delete | verticalResize
  deriving DecidableEq

structure DisruptionDenied where
  minAvailable : UInt32
  currentHealthy : UInt32
  requested : UInt32
  forced : Bool
  deriving DecidableEq

def deny (minAvailable currentHealthy requested : UInt32) : DisruptionDenied :=
  ⟨minAvailable,currentHealthy,requested,false⟩

class NameTypes where
  isTenantId : String → Bool
  isWorkloadRole : String → Bool

abbrev DisruptionGuard := String → String → String → UInt32 → DisruptionTarget → Except DisruptionDenied Unit

-- a tenant or role that has no type is refused without asking
def DisruptionGuard.allowed [NameTypes] (guard : DisruptionGuard) (tenantId workloadId role : String) (count : UInt32)
    (target : DisruptionTarget) : Bool :=
  NameTypes.isTenantId tenantId && NameTypes.isWorkloadRole role && (guard tenantId workloadId role count target).isOk

def saturatingSub32 (left right : UInt32) : UInt32 := if left < right then 0 else left - right

def resolveMinAvailable (budget : DisruptionBudget) (desired : UInt32) : Option UInt32 := do
  match ← budget.policy with
  | .minAvailable value =>
    match ← value with
    | .count pods => some pods
    | .percent share =>
      if 100 < share then none
      else some ((desired.toUInt64 * share.toUInt64 + 99) / 100).toUInt32
  | .maxUnavailable value =>
    let maxUnavailable ← match ← value with
      | .count pods => some pods
      | .percent share =>
        if 100 < share then none
        else some ((desired.toUInt64 * share.toUInt64) / 100).toUInt32
    some (saturatingSub32 desired maxUnavailable)

/-- What a budget means: the number of pods that must stay, of the ones desired. -/
def BudgetPolicy.minimum (desired : Nat) : BudgetPolicy → Option Nat
  | .minAvailable (some (.count pods)) => some pods.toNat
  | .minAvailable (some (.percent share)) => if share.toNat ≤ 100 then some ((desired * share.toNat + 99) / 100) else none
  | .maxUnavailable (some (.count pods)) => some (desired - pods.toNat)
  | .maxUnavailable (some (.percent share)) =>
    if share.toNat ≤ 100 then some (desired - desired * share.toNat / 100) else none
  | _ => none

def WorkloadSpec.desired (spec : WorkloadSpec) (role : String) : UInt32 := spec.replicas[role]?.getD 0

def WorkloadSpec.minAvailable (spec : WorkloadSpec) (role : String) : Option Nat := do
  let budget ← spec.budgets[role]?
  let policy ← budget.policy
  policy.minimum (spec.desired role).toNat

theorem saturatingSub32_toNat (left right : UInt32) : (saturatingSub32 left right).toNat = left.toNat - right.toNat := by
  unfold saturatingSub32
  split
  case isTrue less =>
    have below := UInt32.lt_iff_toNat_lt.mp less
    rw [Nat.sub_eq_zero_of_le (by omega)]
    rfl
  case isFalse more => exact UInt32.toNat_sub_of_le _ _ (UInt32.not_lt.mp more)

theorem share_toNat {desired share : UInt32} (small : share.toNat ≤ 100) (extra : UInt64) (few : extra.toNat < 100) :
    (((desired.toUInt64 * share.toUInt64 + extra) / 100).toUInt32).toNat =
      (desired.toNat * share.toNat + extra.toNat) / 100 := by
  have bound := desired.toNat_lt
  have product : desired.toNat * share.toNat ≤ desired.toNat * 100 := Nat.mul_le_mul_left _ small
  rw [UInt64.toNat_toUInt32,UInt64.toNat_div,UInt64.toNat_add,UInt64.toNat_mul,UInt32.toNat_toUInt64,UInt32.toNat_toUInt64]
  have hundred : (100 : UInt64).toNat = 100 := rfl
  rw [hundred]
  omega

theorem resolveMinAvailable_toNat (budget : DisruptionBudget) (desired : UInt32) :
    (resolveMinAvailable budget desired).map UInt32.toNat = budget.policy.bind (·.minimum desired.toNat) := by
  have large : ∀ share : UInt32, 100 < share ↔ ¬share.toNat ≤ 100 := by
    intro share
    rw [UInt32.lt_iff_toNat_lt,Nat.not_le]
    rfl
  obtain ⟨policy⟩ := budget
  rcases policy with _ | (_ | (pods | share)) | (_ | (pods | share))
  · rfl
  · rfl
  · rfl
  · by_cases small : share.toNat ≤ 100
    · have rounded := @share_toNat desired share small 99 (by decide)
      simpa [resolveMinAvailable,BudgetPolicy.minimum,large,small] using rounded
    · simp [resolveMinAvailable,BudgetPolicy.minimum,large,small]
  · rfl
  · simp [resolveMinAvailable,BudgetPolicy.minimum,saturatingSub32_toNat]
  · by_cases small : share.toNat ≤ 100
    · have rounded := @share_toNat desired share small 0 (by decide)
      rw [UInt64.add_zero] at rounded
      simp [resolveMinAvailable,BudgetPolicy.minimum,large,small,saturatingSub32_toNat,rounded]
    · simp [resolveMinAvailable,BudgetPolicy.minimum,large,small]

section
variable [FleetosCore] [Formats]

def getWorkloadSpec (storage : Disk) (tenantId workloadId : String) : Option Bytes :=
  (storage .workloads)[workloadKey tenantId workloadId]?

def rolePlacements (storage : Disk) (tenantId workloadId role : String) : List Placement :=
  (scanRecords Placement storage .placements).filter fun placement =>
    placement.tenantId = tenantId && placement.service = workloadId && placement.role = role

def countPlaced (storage : Disk) (tenantId workloadId role : String) : UInt32 :=
  .ofNat (rolePlacements storage tenantId workloadId role).length

def allowDisruption (storage : Disk) (tenantId workloadId role : String) (count : UInt32) (_target : DisruptionTarget) :
    Except DisruptionDenied Unit :=
  match getWorkloadSpec storage tenantId workloadId with
  | none => .ok ()
  | some raw =>
    match decodeWorkloadSpec raw with
    | .error _ => .error (deny 0 0 count)
    | .ok spec =>
      match spec.budgets[role]? with
      | none => .ok ()
      | some budget =>
        if budget.policy.isNone then .ok ()
        else
          match resolveMinAvailable budget (spec.replicas[role]?.getD 0) with
          | none => .error (deny 0 0 count)
          | some minAvailable =>
            let currentHealthy := countPlaced storage tenantId workloadId role
            if saturatingSub32 currentHealthy count < minAvailable then
              .error ⟨minAvailable,currentHealthy,count,false⟩
            else .ok ()

/-- 0 if there is no budget, and everything if the specification or the budget is unreadable. -/
def keptFor (spec : WorkloadSpec) (role : String) : Option Nat :=
  match spec.budgets[role]?.bind (·.policy) with
  | none => some 0
  | some policy => policy.minimum (spec.desired role).toNat

def kept (raw : Bytes) (role : String) : Option Nat :=
  (decodeWorkloadSpec raw).toOption.bind (keptFor · role)

theorem allowDisruption_isOk (stored : getWorkloadSpec storage tenantId workloadId = some raw) (count : UInt32) :
    (allowDisruption storage tenantId workloadId role count target).isOk = true ↔ ∃ pods, kept raw role = some pods ∧
        pods ≤ (rolePlacements storage tenantId workloadId role).length % 2^32 - count.toNat := by
  unfold allowDisruption kept keptFor
  rw [stored]
  cases decoded : decodeWorkloadSpec raw with
  | error e => simp [decoded,Except.isOk,Except.toBool,Except.toOption]
  | ok spec =>
    cases found : spec.budgets[role]? with
    | none => simp [decoded,found,Except.isOk,Except.toBool,Except.toOption]
    | some budget =>
      obtain ⟨_ | policy⟩ := budget
      · simp [decoded,found,Except.isOk,Except.toBool,Except.toOption]
      · have resolved := resolveMinAvailable_toNat ⟨some policy⟩ (spec.replicas[role]?.getD 0)
        rw [Option.bind_some] at resolved
        simp only [decoded,found,Except.toOption,Option.bind_some,WorkloadSpec.desired,← resolved,Option.isNone_some,
          Bool.false_eq_true,if_false]
        cases resolveMinAvailable ⟨some policy⟩ (spec.replicas[role]?.getD 0) with
        | none => simp [Except.isOk,Except.toBool]
        | some minAvailable =>
          have left : (saturatingSub32 (countPlaced storage tenantId workloadId role) count).toNat =
              (rolePlacements storage tenantId workloadId role).length % 2^32 - count.toNat := by
            rw [saturatingSub32_toNat,countPlaced,UInt32.toNat_ofNat']
          simp only [UInt32.lt_iff_toNat_lt,left,Option.map_some,Option.some.injEq,exists_eq_left']
          split <;> simp [Except.isOk,Except.toBool] <;> omega

/-- Two thresholds decide alike, as far as the pods of the role and a count of 32 bits go. -/
def Agrees (read : Option Nat) (declared placed : Nat) : Prop :=
  if placed < 2^32 then read.elim (placed + 1) (min (placed + 1)) = min (placed + 1) declared
  else read = some 0 ∧ declared ≤ placed - (2^32 - 1)

theorem agrees_iff {read} {declared placed : Nat} (small : declared < 2^32) :
    (∀ count : UInt32, (¬∃ pods, read = some pods ∧ pods ≤ placed % 2^32 - count.toNat) ↔
      placed - count.toNat < declared) ↔ Agrees read declared placed := by
  -- a count that leaves a given number of the pods
  have leaving : ∀ gone : Nat, gone < 2^32 → (UInt32.ofNat gone).toNat = gone := by
    intro gone bound
    rw [UInt32.toNat_ofNat']
    exact Nat.mod_eq_of_lt bound
  unfold Agrees
  constructor
  · intro decides
    have whole := decides 0
    rw [show (0 : UInt32).toNat = 0 from rfl] at whole
    cases read with
    | none =>
      split
      · simp only [Option.elim_none]
        simp at whole
        omega
      · simp at whole
        omega
    | some pods =>
      simp only [Option.some.injEq,exists_eq_left',Nat.not_le,Nat.sub_zero] at decides whole
      split
      case isTrue few =>
        simp only [Option.elim_some]
        by_cases apart : min (placed + 1) pods = min (placed + 1) declared
        · exact apart
        · have split := decides (UInt32.ofNat (placed - min pods declared))
          rw [leaving _ (by omega)] at split
          omega
      case isFalse many =>
        have least := decides (UInt32.ofNat (placed % 2^32))
        have most := decides (UInt32.ofNat (2^32 - 1))
        rw [leaving _ (by omega)] at least most
        have none : pods = 0 := by omega
        subst none
        refine ⟨rfl,by omega⟩
  · intro agrees count
    have bound := count.toNat_lt
    cases read with
    | none =>
      split at agrees
      · simp only [Option.elim_none] at agrees
        simp
        omega
      · cases agrees.1
    | some pods =>
      simp only [Option.some.injEq,exists_eq_left',Nat.not_le]
      split at agrees
      · simp only [Option.elim_some] at agrees
        omega
      · obtain ⟨same,least⟩ := agrees
        cases same
        omega

theorem minAvailable_lt (spec : WorkloadSpec) (role : String) : (spec.minAvailable role).getD 0 < 2^32 := by
  unfold WorkloadSpec.minAvailable
  cases spec.budgets[role]? with
  | none => simp
  | some budget =>
    have resolved := resolveMinAvailable_toNat budget (spec.desired role)
    simp only [Option.bind_eq_bind,Option.bind_some,← resolved]
    cases resolveMinAvailable budget (spec.desired role) with
    | none => simp
    | some pods => exact pods.toNat_lt

/-- Exactly if the record, read as a protobuf specification, gives a budget that decides alike. -/
theorem guard_decides_iff [WorkloadMessages] {trace : List (Transition Node Entry)} {last : Node}
    (run : Run Advances (boot Disk.empty) trace last) {tenantId workloadId : String} {spec : WorkloadSpec}
    {lastApplied : Bytes} (committed : (Ledger.after trace)[workloadKey tenantId workloadId]? =
      some (.workload ⟨tenantId,workloadId,encodeWorkloadSpec spec,lastApplied⟩)) (role : String) (target : DisruptionTarget) :
    (∀ count : UInt32, (allowDisruption last.disk tenantId workloadId role count target).isOk = false ↔
      ∃ pods, spec.minAvailable role = some pods ∧
        (rolePlacements last.disk tenantId workloadId role).length - count.toNat < pods) ↔
      Agrees (kept (toAllocvec (⟨tenantId,workloadId,encodeWorkloadSpec spec,lastApplied⟩ : WorkloadSpecRecord)) role)
        ((spec.minAvailable role).getD 0) (rolePlacements last.disk tenantId workloadId role).length := by
  have stored : getWorkloadSpec last.disk tenantId workloadId =
      some (toAllocvec (⟨tenantId,workloadId,encodeWorkloadSpec spec,lastApplied⟩ : WorkloadSpecRecord)) := by
    rw [getWorkloadSpec,Ledger.after_refines run,Ledger.contents_lookup,committed]
    rfl
  rw [← agrees_iff (minAvailable_lt spec role)]
  refine forall_congr' fun count => ?_
  rw [← Bool.not_eq_true,allowDisruption_isOk stored count]
  cases spec.minAvailable role <;> simp

end

section
open Reference

def guardedShop (budgets : List (String × DisruptionBudget)) : WorkloadSpec where
  tenantId := "acme"
  workloadId := "shop"
  image := "shop:v1"
  replicas := .ofList [("web",(2 : UInt32))]
  budgets := .ofList budgets

def oneStays : DisruptionBudget := ⟨some (.minAvailable (some (.count 1)))⟩

def shopTaken (budgets : List (String × DisruptionBudget)) : Node := takenFirst (submitShop (guardedShop budgets))

theorem unplaced_shop_guarded : (guardedShop [("web",oneStays)]).minAvailable "web" = some 1 ∧ ∀ count : UInt32,
    (allowDisruption (shopTaken [("web",oneStays)]).disk "acme" "shop" "web" count .scaleDown).isOk = false ↔
      ∃ pods, (guardedShop [("web",oneStays)]).minAvailable "web" = some pods ∧
        (rolePlacements (shopTaken [("web",oneStays)]).disk "acme" "shop" "web").length - count.toNat < pods := by
  have committed : (Ledger.after (firstStep (submitShop (guardedShop [("web",oneStays)]))))[workloadKey "acme" "shop"]? =
      some (.workload ⟨"acme","shop",encodeWorkloadSpec (guardedShop [("web",oneStays)]),[]⟩) := by
    decide +kernel
  have one : (guardedShop [("web",oneStays)]).minAvailable "web" = some 1 := by decide +kernel
  refine ⟨one,(guard_decides_iff (first_run (by decide +kernel)) committed "web" .scaleDown).mpr ?_⟩
  have unread : kept (toAllocvec (⟨"acme","shop",encodeWorkloadSpec (guardedShop [("web",oneStays)]),[]⟩ :
      WorkloadSpecRecord)) "web" = none := by decide +kernel
  have unplaced : rolePlacements (takenFirst (submitShop (guardedShop [("web",oneStays)]))).disk "acme" "shop" "web" = [] := by
    decide +kernel
  rw [unread,unplaced,one,Agrees,if_pos (by decide)]
  rfl

theorem unlimited_shop_denied :
    Run Advances (boot Disk.empty) (firstStep (submitShop (guardedShop []))) (shopTaken []) ∧
    (adminServer Disk.empty).submitWorkloadSpec fleetctlProxy "req-1" (guardedShop []) = .ok (submitShop (guardedShop [])) ∧
    (guardedShop []).minAvailable "web" = none ∧
    allowDisruption (shopTaken []).disk "acme" "shop" "web" 1 .scaleDown = .error (deny 0 0 1) := by
  refine ⟨first_run (by decide +kernel),rfl,by decide +kernel,by decide +kernel⟩

end

theorem resolveMinAvailable_eq (policy : BudgetPolicy) (desired : UInt32) (pods : Nat)
    (minimum : policy.minimum desired.toNat = some pods) :
    ∃ least, resolveMinAvailable ⟨some policy⟩ desired = some least ∧ least.toNat = pods := by
  have machine := resolveMinAvailable_toNat ⟨some policy⟩ desired
  rw [Option.bind_some,minimum] at machine
  exact map_eq_some_iff.mp machine

theorem resolveMinAvailable_percent {share : UInt32} (desired : UInt32) (small : share ≤ 100) : ∃ least,
    resolveMinAvailable ⟨some (.minAvailable (some (.percent share)))⟩ desired = some least ∧
    resolveMinAvailable ⟨some (.maxUnavailable (some (.percent (100 - share))))⟩ desired = some least ∧
    least.toNat = (desired.toNat * share.toNat) ⌈/⌉ 100 ∧ least ≤ desired := by
  have percent : share.toNat ≤ 100 := UInt32.le_iff_toNat_le.mp small
  have rest : (100 - share).toNat = 100 - share.toNat := UInt32.toNat_sub_of_le _ _ small
  have product : desired.toNat * share.toNat ≤ desired.toNat * 100 := Nat.mul_le_mul_left _ percent
  have split : desired.toNat * (100 - share.toNat) = desired.toNat * 100 - desired.toNat * share.toNat :=
    Nat.mul_sub _ _ _
  obtain ⟨least,made,same⟩ := resolveMinAvailable_eq (.minAvailable (some (.percent share))) desired
    ((desired.toNat * share.toNat + 99) / 100) (if_pos percent)
  obtain ⟨most,also,equal⟩ := resolveMinAvailable_eq (.maxUnavailable (some (.percent (100 - share)))) desired
    (desired.toNat - desired.toNat * (100 - share).toNat / 100) (if_pos (by omega))
  have both : most = least := by
    apply UInt32.toNat.inj
    rw [same,equal,rest,split]
    omega
  subst both
  refine ⟨most,made,also,?_,?_⟩
  · rw [same,Nat.ceilDiv_eq_add_pred_div]
    rfl
  · rw [UInt32.le_iff_toNat_le,same]
    omega

section
variable [FleetosCore] [Formats] {storage : Disk} {tenantId workloadId role : String}

theorem allowDisruption_denied {count : UInt32}
    (refused : allowDisruption storage tenantId workloadId role count target = .error denied) :
    ∃ raw, getWorkloadSpec storage tenantId workloadId = some raw ∧
      (kept raw role = none ∧ denied.minAvailable = 0 ∧ denied.currentHealthy = 0 ∨
        kept raw role = some denied.minAvailable.toNat ∧
          denied.currentHealthy = countPlaced storage tenantId workloadId role) := by
  unfold allowDisruption at refused
  split at refused
  case h_1 => cases refused
  case h_2 raw stored =>
  refine ⟨raw,stored,?_⟩
  unfold kept keptFor
  split at refused
  case h_1 e unread =>
    cases refused
    exact .inl ⟨by simp [unread,Except.toOption],rfl,rfl⟩
  case h_2 spec decoded =>
  rw [decoded]
  split at refused
  case h_1 => cases refused
  case h_2 budget found =>
  obtain ⟨_ | policy⟩ := budget
  · cases refused
  have resolved := resolveMinAvailable_toNat ⟨some policy⟩ (spec.replicas[role]?.getD 0)
  rw [Option.bind_some] at resolved
  simp only [Except.toOption,Option.bind_some,found,WorkloadSpec.desired,← resolved]
  simp only [Option.isNone_some,Bool.false_eq_true,if_false] at refused
  cases least : resolveMinAvailable ⟨some policy⟩ (spec.replicas[role]?.getD 0) with
  | none =>
    rw [least] at refused
    cases refused
    exact .inl ⟨rfl,rfl,rfl⟩
  | some minAvailable =>
    simp only [least] at refused
    split at refused
    case isFalse => cases refused
    case isTrue =>
      cases refused
      exact .inr ⟨rfl,rfl⟩

/-- The guard compares what is left of the placed pods with the minimum, and a refusal carries both: fewer pods are
allowed where more are, and exactly the surplus is. Percentages are rounded in the role's favour. -/
theorem disruption_arithmetic (storage : Disk) (tenantId workloadId role : String) (target : DisruptionTarget) :
    (∀ raw, getWorkloadSpec storage tenantId workloadId = some raw → ∀ count,
      ((allowDisruption storage tenantId workloadId role count target).isOk = true ↔ ∃ least, kept raw role = some least ∧
        least ≤ (rolePlacements storage tenantId workloadId role).length % 2^32 - count.toNat) ∧
      ∀ denied least, allowDisruption storage tenantId workloadId role count target = .error denied →
        kept raw role = some least → denied.minAvailable.toNat = least ∧
          denied.currentHealthy.toNat = (rolePlacements storage tenantId workloadId role).length % 2^32) ∧
    (∀ count fewer : UInt32, fewer ≤ count → (allowDisruption storage tenantId workloadId role count target).isOk = true →
      (allowDisruption storage tenantId workloadId role fewer target).isOk = true) ∧
    (∀ count denied, allowDisruption storage tenantId workloadId role count target = .error denied →
      (0 < saturatingSub32 denied.currentHealthy denied.minAvailable → (allowDisruption storage tenantId workloadId role
        (saturatingSub32 denied.currentHealthy denied.minAvailable) target).isOk = true) ∧
      (0 < denied.minAvailable → (allowDisruption storage tenantId workloadId role
        (saturatingSub32 denied.currentHealthy denied.minAvailable + 1) target).isOk = false)) ∧
    ∀ share desired : UInt32, share ≤ 100 → ∃ least,
      resolveMinAvailable ⟨some (.minAvailable (some (.percent share)))⟩ desired = some least ∧
      resolveMinAvailable ⟨some (.maxUnavailable (some (.percent (100 - share))))⟩ desired = some least ∧
      least.toNat = (desired.toNat * share.toNat) ⌈/⌉ 100 ∧ least ≤ desired := by
  refine ⟨?_,?_,?_,fun share desired => resolveMinAvailable_percent desired⟩
  · intro raw stored count
    refine ⟨allowDisruption_isOk stored count,fun denied least refused reads => ?_⟩
    obtain ⟨same,found,⟨unread,_⟩ | ⟨minimum,placed⟩⟩ := allowDisruption_denied refused
    all_goals cases stored.symm.trans found
    · cases unread.symm.trans reads
    · rw [placed,countPlaced,UInt32.toNat_ofNat']
      exact ⟨Option.some.inj (minimum.symm.trans reads),rfl⟩
  · intro count fewer smaller allowed
    cases stored : getWorkloadSpec storage tenantId workloadId with
    | none =>
      simp only [allowDisruption,stored]
      rfl
    | some raw =>
      obtain ⟨pods,least,enough⟩ := (allowDisruption_isOk stored count).mp allowed
      have less := UInt32.le_iff_toNat_le.mp smaller
      exact (allowDisruption_isOk stored fewer).mpr ⟨pods,least,by omega⟩
  · intro count denied refused
    obtain ⟨raw,stored,⟨_,none,nobody⟩ | ⟨minimum,placed⟩⟩ := allowDisruption_denied refused
    · rw [none,nobody]
      exact ⟨fun spare => absurd spare (by decide),fun least => absurd least (by decide)⟩
    · have bounded := denied.currentHealthy.toNat_lt
      have counted : (rolePlacements storage tenantId workloadId role).length % 2^32 = denied.currentHealthy.toNat := by
        rw [placed,countPlaced,UInt32.toNat_ofNat']
      rw [← Bool.not_eq_true,allowDisruption_isOk stored,allowDisruption_isOk stored]
      simp only [minimum,counted,Option.some.injEq,exists_eq_left',UInt32.lt_iff_toNat_lt,saturatingSub32_toNat,
        UInt32.toNat_add,UInt32.toNat_one,UInt32.toNat_zero]
      omega

end

section
variable [FleetosCore] {placement : Placement} {disk : Disk} {cmd : FleetosCommand} {writes : List Write}
  {kind : ChangeKind}

def FleetosCommand.hits : FleetosCommand → Placement → Bool
  | .removePlacement podId,placement => placement.podId = podId
  | .evictNode nodeId _,placement =>
    match parse nodeId with
    | .ok node => placement.nodeId = node
    | .error _ => false
  | .deleteWorkload tenantId workloadId,placement => placement.tenantId = tenantId && placement.service = workloadId
  | .scaleWorkload record,placement => placement.tenantId = record.tenantId && placement.service = record.workloadId &&
      shouldRemove (newReplicas record) placement
  | _,_ => false

theorem evictNode_hits {expires : Int64} :
    (FleetosCommand.evictNode nodeId expires).hits placement = true ↔ parse nodeId = .ok placement.nodeId := by
  cases parsed : parse nodeId with
  | error => simp [FleetosCommand.hits,parsed]
  | ok node => simp [FleetosCommand.hits,parsed,eq_comm]

def FleetosCommand.TakesOnly : FleetosCommand → Prop
  | .commitPlacement .. | .reassignPodId .. | .applyManifests .. => False
  | _ => True

variable [Formats]

theorem filterMap_unhit {α β : Type} (decode : β → Option α) (dropped : β → Bool) (hit : α → Bool) (items : List β)
    (agree : ∀ item ∈ items, ∀ value, decode item = some value → dropped item = hit value) :
    (items.filter fun item => !dropped item).filterMap decode = (items.filterMap decode).filter fun value => !hit value := by
  induction items with
  | nil => rfl
  | cons item items ih =>
    have rest := ih fun later member => agree later (mem_cons_of_mem _ member)
    cases decoded : decode item with
    | none => cases gone : dropped item <;> simp [decoded,gone,rest]
    | some value =>
      have same := agree item mem_cons_self value decoded
      cases struck : hit value <;> simp [decoded,same,struck,rest]

theorem scan_unhit {hit : Placement → Bool} (dropped : Bytes → Bytes → Bool)
    (left : ∀ key : Bytes, (after .placements)[key]? = (before .placements)[key]?.filter fun bytes => !dropped key bytes)
    (agree : ∀ (key bytes : Bytes) (placement : Placement), (before .placements)[key]? = some bytes →
      fromBytes bytes = .ok placement → dropped key bytes = hit placement) :
    scanRecords Placement after .placements =
      (scanRecords Placement before .placements).filter fun placement => !hit placement := by
  have filtered : after .placements = (before .placements).filter fun key bytes => !dropped key bytes := by
    apply ExtTreeMap.ext_getElem?
    intro key
    simp only [left key,ExtTreeMap.getElem?_filter,ExtTreeMap.getKey_eq,Option.pfilter_eq_filter]
  rw [scanRecords,filtered,ExtTreeMap.toList_filter]
  apply filterMap_unhit _ (fun entry : Bytes × Bytes => dropped entry.1 entry.2)
  intro entry member placement decoded
  exact agree entry.1 entry.2 placement (ExtTreeMap.mem_toList_iff_getElem?_eq_some.mp member)
    (toOption_eq_some.mp decoded)

theorem removes_left (disk : Disk) (keys : List Bytes) (key : Bytes) :
    (commit disk (keys.map (.remove .placements)) .placements)[key]? =
      (disk .placements)[key]?.filter fun _ => !decide (key ∈ keys) := by
  refine (commit_removes disk .placements keys key).trans ?_
  by_cases named : key ∈ keys <;> cases (disk .placements)[key]? <;> simp [named,Option.filter]

theorem filed_key (filed : PlacementsFiled disk) (listed : placement ∈ scanRecords Placement disk .placements) :
    ∃ bytes, (disk .placements)[asBytes placement.podId]? = some bytes ∧ fromBytes bytes = .ok placement := by
  obtain ⟨key,bytes,stored,decoded⟩ := mem_scanRecords.mp listed
  exact ⟨bytes,filed key bytes stored placement decoded ▸ stored,decoded⟩

theorem filed_podId (filed : PlacementsFiled disk) (one : left ∈ scanRecords Placement disk .placements)
    (other : right ∈ scanRecords Placement disk .placements) (same : left.podId = right.podId) : left = right := by
  obtain ⟨bytes,stored,decoded⟩ := filed_key filed one
  obtain ⟨found,also,read⟩ := filed_key filed other
  rw [same,also,Option.some.injEq] at stored
  subst stored
  exact Except.ok.inj (decoded.symm.trans read)

theorem placements_nodup (filed : PlacementsFiled disk) : (scanRecords Placement disk .placements).Nodup := by
  have keys : (disk .placements).toList.Pairwise fun left right => left.1 ≠ right.1 := by
    rw [← List.pairwise_map,ExtTreeMap.map_fst_toList_eq_keys]
    exact ExtTreeMap.nodup_keys
  have named : ∀ entry ∈ (disk .placements).toList, ∀ placement : Placement,
      (fromBytes entry.2).toOption = some placement → entry.1 = asBytes placement.podId := by
    intro entry member placement decoded
    exact filed entry.1 entry.2 (ExtTreeMap.mem_toList_iff_getElem?_eq_some.mp member) placement
      (toOption_eq_some.mp decoded)
  refine List.pairwise_filterMap.mpr (keys.imp_of_mem ?_)
  rintro left right inside within apart one decoded other read rfl
  exact apart ((named left inside one decoded).trans (named right within one read).symm)

theorem scan_removePlacement (filed : PlacementsFiled disk) (podId : String) :
    scanRecords Placement (commit disk [.remove .placements (asBytes podId)]) .placements =
      (scanRecords Placement disk .placements).filter fun placement => !decide (placement.podId = podId) := by
  apply scan_unhit fun key _ => decide (key ∈ [asBytes podId])
  · exact removes_left disk [asBytes podId]
  · intro key bytes placement stored decoded
    rw [filed _ _ stored placement decoded]
    simp only [mem_singleton,decide_eq_decide]
    exact ⟨asBytes_injective,congrArg asBytes⟩

theorem scan_removed (filed : PlacementsFiled disk) (hit : Placement → Bool) :
    scanRecords Placement (commit disk (((scanRecords Placement disk .placements).filter hit).map fun placement =>
        .remove .placements (asBytes placement.podId))) .placements =
      (scanRecords Placement disk .placements).filter fun placement => !hit placement := by
  apply scan_unhit fun key _ => decide (key ∈ ((scanRecords Placement disk .placements).filter hit).map fun placement =>
    asBytes placement.podId)
  · intro key
    rw [← removes_left,List.map_map]
    rfl
  · intro key bytes placement stored decoded
    rw [Bool.eq_iff_iff,decide_eq_true_iff,mem_podKeys filed]
    constructor
    · rintro ⟨found,same,other,read,struck⟩
      cases stored.symm.trans same
      cases decoded.symm.trans read
      exact struck
    · intro struck
      exact ⟨bytes,stored,placement,decoded,struck⟩

theorem freed_placements (disk : Disk) (first : Write) (elsewhere : first.table ≠ .placements)
    (tenantId workloadId : String) (placements : List Placement) :
    commit disk (first::placements.flatMap (freePlacement tenantId workloadId)) .placements =
      commit disk (placements.map fun placement => .remove .placements (asBytes placement.podId)) .placements := by
  have removals : (placements.flatMap (freePlacement tenantId workloadId)).filter
      (fun write => write.table = .placements) =
        placements.map fun placement => .remove .placements (asBytes placement.podId) := by
    induction placements with
    | nil => rfl
    | cons placement placements ih =>
      rw [List.flatMap_cons,List.filter_append,ih]
      rfl
  rw [commit_only,List.filter_cons_of_neg (by simpa using elsewhere),removals]

theorem takesOnly_left (filed : Every Filed disk) (only : cmd.TakesOnly)
    (ok : applyCommand disk cmd = .ok (writes,kind)) :
    scanRecords Placement (commit disk writes) .placements =
      (scanRecords Placement disk .placements).filter fun placement => !cmd.hits placement := by
  by_cases touched : Keyspace.placements ∈ cmd.touches
  · cases cmd
    case commitPlacement | reassignPodId | applyManifests => exact only.elim
    case removePlacement podId =>
      cases ok
      exact scan_removePlacement (filed .placements) podId
    case evictNode nodeId expires =>
      obtain ⟨node,record,parsed,rfl⟩ := evictNode_ok (filed .activeDelegations) ok
      apply scan_unhit fun _ bytes => hostedOn node bytes
      · exact evictionWrites_placements disk node nodeId record expires (filed .placements)
      · intro key bytes placement _ decoded
        simp [hostedOn,decoded,FleetosCommand.hits,parsed]
    case deleteWorkload tenantId workloadId =>
      cases ok
      rw [deleteWorkload,scanRecords_congr (freed_placements disk _ (by simp) _ _ _)]
      exact scan_removed (filed .placements) _
    case scaleWorkload record =>
      cases ok
      rw [scaleWorkload,scanRecords_congr (freed_placements disk _ (by simp) _ _ _)]
      exact scan_removed (filed .placements) _
    all_goals exact absurd touched (by simp [touches])
  · have unhit : ∀ placement, cmd.hits placement = false := by
      intro placement
      cases cmd <;> first | rfl | exact absurd (by simp [touches]) touched
    rw [scanRecords_congr (applyCommand_frame ok .placements touched)]
    simp [unhit]

def FleetosCommand.taken (cmd : FleetosCommand) (disk : Disk) (tenantId workloadId role : String) : List Placement :=
  (rolePlacements disk tenantId workloadId role).filter cmd.hits

theorem rolePlacements_congr (same : left .placements = right .placements) (tenantId workloadId role : String) :
    rolePlacements left tenantId workloadId role = rolePlacements right tenantId workloadId role := by
  rw [rolePlacements,scanRecords_congr same,rolePlacements]

theorem keeps_filed (write : Write) (elsewhere : write.table ∉ [Keyspace.placements,.activeDelegations]) :
    write.Keeps Filed := by
  cases write with
  | remove keyspace key => trivial
  | insert keyspace key bytes =>
    change Filed keyspace key bytes
    cases keyspace
    case placements | activeDelegations => simp at elsewhere
    all_goals trivial

theorem freed_filed (tenantId workloadId : String) (placements : List Placement) :
    ∀ write ∈ placements.flatMap (freePlacement tenantId workloadId), write.Keeps Filed := by
  intro write member
  obtain ⟨placement,_,inside⟩ := mem_flatMap.mp member
  rcases mem_cons.mp inside with rfl | inside
  · trivial
  · obtain rfl := mem_singleton.mp inside
    trivial

theorem untouched_filed (ok : applyCommand disk cmd = .ok (writes,kind))
    (apart : ∀ keyspace ∈ cmd.touches, keyspace ∉ [Keyspace.placements,.activeDelegations]) :
    ∀ write ∈ writes, write.Keeps Filed :=
  fun write member => keeps_filed write (apart _ (applyCommand_within disk cmd writes kind ok write member))

section
variable [Merges] {disk : Disk} {cmd : FleetosCommand} {writes : List Write} {kind : ChangeKind}

theorem writes_filed (proposable : cmd.Proposable) (other : ∀ nodeId expires, cmd ≠ .evictNode nodeId expires)
    (ok : applyCommand disk cmd = .ok (writes,kind)) : ∀ write ∈ writes, write.Keeps Filed := by
  cases cmd
  case revokeDelegation => exact proposable.elim
  case evictNode => exact (other _ _ rfl).elim
  case deleteWorkload | scaleWorkload =>
    cases ok
    intro write member
    rcases mem_cons.mp member with rfl | freed
    · trivial
    · exact freed_filed _ _ _ write freed
  case reassignPodId =>
    cases ok
    intro write member
    unfold reassignPodId at member
    simp only at member
    split at member
    · simp only [mem_cons,not_mem_nil,or_false] at member
      rcases member with rfl | rfl | rfl <;> simp [put,Write.Keeps,Filed]
    · cases member
  case commitPlacement | issueDelegation =>
    cases ok
    simp [put,Write.Keeps,Filed]
  case removePlacement =>
    cases ok
    simp [Write.Keeps]
  case applyManifests updates =>
    cases ok
    intro write member
    have target := applyManifests_table proposable member
    apply keeps_filed
    intro filing
    simp only [mem_cons,not_mem_nil,or_false] at filing
    rcases filing with table | table <;> simp [table] at target
  all_goals exact untouched_filed ok (by simp [touches])

theorem command_filed (filed : Every Filed disk) (proposable : cmd.Proposable)
    (ok : applyCommand disk cmd = .ok (writes,kind)) : Every Filed (commit disk writes) := by
  by_cases eviction : ∃ nodeId expires, cmd = .evictNode nodeId expires
  · obtain ⟨nodeId,expires,rfl⟩ := eviction
    exact evict_filed filed ok
  · apply commit_every filed
    exact writes_filed proposable (fun nodeId expires same => eviction ⟨nodeId,expires,same⟩) ok

theorem advances_filed (advances : Advances before entry after)
    (proposable : ∀ audited, entry.payload = .normal audited → audited.cmd.Proposable)
    (filed : Every Filed before.disk) :
    Every Filed after.disk := by
  obtain ⟨middle,held,same⟩ : ∃ middle : Disk, Every Filed middle ∧ SameApplication after.disk middle := by
    rcases advances.cases with ⟨audited,writes,kind,normal,ok,contents⟩ | ⟨_,same⟩
    · exact ⟨_,command_filed filed (proposable audited normal) ok,contents⟩
    · exact ⟨_,filed,same⟩
  intro keyspace key bytes stored
  cases keyspace
  case placements | activeDelegations =>
    rw [same _ rfl] at stored
    exact held _ _ _ stored
  all_goals trivial

theorem applies_filed (before : Node) (cmd : FleetosCommand) (after : Node)
    (applied : AppliesCommand before cmd after) (proposable : cmd.Proposable) (filed : Every Filed before.disk) :
    Every Filed after.disk := by
  obtain ⟨entry,audited,normal,rfl,advances⟩ := applied
  refine advances_filed advances (fun other payload => ?_) filed
  cases payload.symm.trans normal
  exact proposable

end

end

abbrev PodGroup := String × String × String

def PodGroup.order (left right : PodGroup) : Ordering :=
  (compare left.1 right.1).then ((compare left.2.1 right.2.1).then (compare left.2.2 right.2.2))

variable [FleetosCore] {members : List Placement} {guard : DisruptionGuard} {storage : Disk} {node : SpiffeId}

def Placement.group (placement : Placement) : PodGroup := (placement.tenantId,placement.service,placement.role)

def podGroups (placements : List Placement) : List (PodGroup × List Placement) :=
  ((placements.map Placement.group).dedup.insertionSort fun left right => (left.order right).isLE).map fun group =>
    (group,placements.filter fun placement => placement.group = group)

theorem mem_podGroups : (group,members) ∈ podGroups placements ↔ (∃ placement ∈ placements, placement.group = group) ∧
        members = placements.filter fun placement => placement.group = group := by
  simp only [podGroups,mem_map,List.mem_insertionSort,List.mem_dedup,Prod.mk.injEq]
  constructor
  · rintro ⟨_,listed,rfl,rfl⟩
    exact ⟨listed,rfl⟩
  · rintro ⟨listed,rfl⟩
    exact ⟨group,listed,rfl,rfl⟩

variable [NameTypes]

/-- What a refusal for one group lets go, or nothing at all if the guard consents. -/
def drainGroup (guard : DisruptionGuard) (group : PodGroup) (members : List Placement) : Option (List Placement) :=
  let count := UInt32.ofNat members.length
  if NameTypes.isTenantId group.1 && NameTypes.isWorkloadRole group.2.2 then
    match guard group.1 group.2.1 group.2.2 count .eviction with
    | .ok _ => none
    | .error denied =>
      let evictCount := min count (saturatingSub32 denied.currentHealthy denied.minAvailable)
      some (members.take evictCount.toNat)
  -- without a type for the tenant or the role the guard cannot be asked
  else some []

theorem drainGroup_none : drainGroup guard group members = none ↔
      guard.allowed group.1 group.2.1 group.2.2 (.ofNat members.length) .eviction = true := by
  unfold drainGroup DisruptionGuard.allowed
  split
  case isTrue typed =>
    rw [typed,Bool.true_and]
    cases asked : guard group.1 group.2.1 group.2.2 (.ofNat members.length) .eviction <;>
      simp [asked,Except.isOk,Except.toBool]
  case isFalse untyped => simp [untyped]

variable [Formats]

def getPlacementsForNode (storage : Disk) (node : SpiffeId) : List Placement :=
  (scanRecords Placement storage .placements).filter fun placement => placement.nodeId = node

def drain (guard : DisruptionGuard) (storage : Disk) (node : SpiffeId) : AdminServer.Drain :=
  let verdicts := (podGroups (getPlacementsForNode storage node)).map fun group => drainGroup guard group.1 group.2
  if verdicts.all (·.isNone) then .allAllowed else .partialEvictions (verdicts.filterMap id).flatten

theorem drain_allAllowed (whole : drain guard storage node = .allAllowed)
    (placed : placement ∈ getPlacementsForNode storage node) :
    guard.allowed placement.tenantId placement.service placement.role
      (.ofNat ((getPlacementsForNode storage node).filter fun other => other.group = placement.group).length)
      .eviction = true := by
  unfold drain at whole
  simp only at whole
  split at whole
  case isFalse => cases whole
  case isTrue consents =>
    rw [List.all_eq_true] at consents
    have listed := mem_podGroups.mpr ⟨⟨placement,placed,rfl⟩,rfl⟩
    have consent := consents _ (mem_map.mpr ⟨_,listed,rfl⟩)
    exact drainGroup_none.mp (Option.isNone_iff_eq_none.mp consent)

theorem evictNode_taken (disk : Disk) (parsed : parse nodeId = .ok node) (expires : Int64)
    (tenantId workloadId role : String) :
    (FleetosCommand.evictNode nodeId expires).taken disk tenantId workloadId role =
      (getPlacementsForNode disk node).filter fun placement => placement.group = (tenantId,workloadId,role) := by
  have hosted : (FleetosCommand.evictNode nodeId expires).hits = fun placement => decide (placement.nodeId = node) := by
    funext placement
    simp only [FleetosCommand.hits,parsed]
  rw [FleetosCommand.taken,rolePlacements,getPlacementsForNode,List.filter_comm,hosted]
  apply List.filter_congr
  intro placement _
  simp [Placement.group,Bool.and_assoc]

theorem evictNode_asks {server : AdminServer} {peer requestId} {req : EvictNodeRequest} {commands}
    (unforced : req.force = false) (ok : server.evictNode peer requestId (drain guard storage) req = .ok commands)
    {audited} (member : audited ∈ commands) {expires : Int64}
    (eviction : audited.cmd = .evictNode req.nodeSvid expires) {tenantId workloadId role}
    (taken : audited.cmd.taken storage tenantId workloadId role ≠ []) :
    guard.allowed tenantId workloadId role (.ofNat (audited.cmd.taken storage tenantId workloadId role).length)
      .eviction = true := by
  obtain ⟨node,parsed,⟨agreed,_⟩ | cordon | ⟨placement,removal | freed⟩⟩ := evictNode_cases ok member
  · have whole : drain guard storage node = .allAllowed := agreed.resolve_left (by simp [unforced])
    rw [eviction,evictNode_taken storage parsed] at taken ⊢
    obtain ⟨placement,inside⟩ := List.exists_mem_of_ne_nil _ taken
    obtain ⟨placed,grouped⟩ := mem_filter.mp inside
    have named := of_decide_eq_true grouped
    have consent := drain_allAllowed whole placed
    rw [named] at consent
    cases named
    exact consent
  · cases cordon.symm.trans eviction
  · cases removal.symm.trans eviction
  · cases freed.symm.trans eviction

end FleetosControl
