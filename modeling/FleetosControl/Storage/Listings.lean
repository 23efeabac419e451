import FleetosControl.Admin.Tenancy
import FleetosControl.Controllers.SlotCommands
import FleetosControl.DummyIp.Allocations

/-! The listings of the workloads keyspace against the ledger, and the keys composed of several
names. A colon tells names apart that have none. -/
namespace FleetosControl
open Wire KeyValue Trace

def CronWorkloadRecord.asWorkload (cron : CronWorkloadRecord) : WorkloadSpecRecord :=
  ⟨cron.tenantId,cron.cronWorkloadId,asBytes cron.scheduleExpression,cron.specBytes⟩

section
variable {α β : Type} {less more : α → Option β} {items : List α}

section
variable (below : ∀ item ∈ items, ∀ value, less item = some value → more item = some value)
include below

theorem filterMap_length_le : (items.filterMap less).length ≤ (items.filterMap more).length := by
  induction items with
  | nil => simp
  | cons item items ih =>
    obtain ⟨here,later⟩ := forall_mem_cons.mp below
    cases fewer : less item with
    | some value =>
      rw [List.filterMap_cons_some fewer,List.filterMap_cons_some (here value fewer)]
      exact Nat.succ_le_succ (ih later)
    | none =>
      rw [List.filterMap_cons_none fewer]
      cases other : more item with
      | none => simpa [other] using ih later
      | some value => simpa [other] using Nat.le_succ_of_le (ih later)

theorem filterMap_eq_iff : items.filterMap more = items.filterMap less ↔ ∀ item ∈ items, more item = less item := by
  induction items with
  | nil => simp
  | cons item items ih =>
    obtain ⟨here,later⟩ := forall_mem_cons.mp below
    rw [forall_mem_cons,← ih later]
    cases fewer : less item with
    | some value => simp [here value fewer,fewer]
    | none =>
      cases other : more item with
      | none => simp [fewer,other]
      | some value =>
        have longer := filterMap_length_le later
        constructor
        · intro same
          have lengths := congrArg List.length same
          rw [List.filterMap_cons_some other,List.filterMap_cons_none fewer,List.length_cons] at lengths
          omega
        · rintro ⟨agree,_⟩
          cases agree

end

end

section
variable [FleetosCore] [Formats]

/-- Postcard writes no types or field names, and texts like byte strings; texts are checked when read. -/
class SharedLayout : Prop where
  cron_as_workload (cron : CronWorkloadRecord) : fromBytes (toAllocvec cron) = .ok cron.asWorkload
  workload_as_cron (record : WorkloadSpecRecord) (cron : CronWorkloadRecord) :
    fromBytes (toAllocvec record) = .ok cron ↔ record = cron.asWorkload

def Stored.workload? : Stored → Option WorkloadSpecRecord
  | .workload record => some record
  | _ => none

def Stored.cron? : Stored → Option CronWorkloadRecord
  | .cron record => some record
  | _ => none

namespace Ledger

def workloads (ledger : Ledger) : List WorkloadSpecRecord := ledger.toList.filterMap (·.2.workload?)

def crons (ledger : Ledger) : List CronWorkloadRecord := ledger.toList.filterMap (·.2.cron?)

def countOf (ledger : Ledger) (tenantId : String) : Nat := (ledger.workloads.filter (·.tenantId = tenantId)).length

structure Exact (ledger : Ledger) (storage : Disk) : Prop where
  workloads : listWorkloads storage = ledger.workloads
  crons : listCronWorkloads storage = ledger.crons
  usage : ∀ tenantId, (computeTenantUsage storage tenantId).2.2.toNat = ledger.countOf tenantId

/-- No entry is taken for one of the other kind, and the workloads of a tenant fit the counter. -/
structure ToldApart (ledger : Ledger) : Prop where
  noCron : ∀ (key : Bytes) record, ledger[key]? ≠ some (Stored.cron record)
  noText : ∀ (key : Bytes) record, ledger[key]? = some (Stored.workload record) →
    (asBytes "cron:").isPrefixOf key = true → ∀ cron : CronWorkloadRecord, record ≠ cron.asWorkload
  counted : ∀ tenantId, ledger.countOf tenantId < 2^32

variable {ledger : Ledger} {storage : Disk}

omit [FleetosCore] [Formats] in
theorem forall_entries {holds : Bytes × Stored → Prop} :
    (∀ entry ∈ ledger.toList, holds entry) ↔ ∀ (key : Bytes) stored, ledger[key]? = some stored → holds (key,stored) := by
  simp only [Prod.forall,Std.ExtTreeMap.mem_toList_iff_getElem?_eq_some]

theorem listWorkloads_contents (holds : storage .workloads = ledger.contents) : listWorkloads storage =
      ledger.toList.filterMap fun entry => (fromBytes (α := WorkloadSpecRecord) entry.2.bytes).toOption := by
  rw [listWorkloads,scanRecords,holds,contents_toList,List.filterMap_map]
  rfl

theorem listCronWorkloads_contents (holds : storage .workloads = ledger.contents) :
    listCronWorkloads storage = ledger.toList.filterMap fun entry =>
      if (asBytes "cron:").isPrefixOf entry.1 then (fromBytes (α := CronWorkloadRecord) entry.2.bytes).toOption
      else none := by
  rw [listCronWorkloads,holds,contents_toList,List.filter_map,List.filterMap_map,List.filterMap_filter]
  rfl

variable [SharedLayout]

section
variable (holds : storage .workloads = ledger.contents)
  (unapplied : ∀ (key : Bytes) bytes, ledger[key]? ≠ some (Stored.applied bytes))
include holds unapplied

theorem workloads_exact_iff :
    listWorkloads storage = ledger.workloads ↔ ∀ (key : Bytes) record, ledger[key]? ≠ some (Stored.cron record) := by
  rw [listWorkloads_contents holds,workloads,filterMap_eq_iff,forall_entries]
  · constructor
    · intro agree key record found
      have read := agree key _ found
      simp [Stored.bytes,SharedLayout.cron_as_workload,Stored.workload?,Except.toOption] at read
    · intro absent key stored found
      cases stored with
      | workload record => simp [Stored.bytes,Stored.workload?,Except.toOption]
      | cron record => exact absurd found (absent key record)
      | applied bytes => exact absurd found (unapplied key bytes)
  · rw [forall_entries]
    intro key stored _ record listed
    cases stored <;> cases listed
    simp [Stored.bytes,Except.toOption]

theorem crons_exact_iff
    (keyed : ∀ (key : Bytes) record, ledger[key]? = some (Stored.cron record) → (asBytes "cron:").isPrefixOf key = true) :
    listCronWorkloads storage = ledger.crons ↔ ∀ (key : Bytes) record, ledger[key]? = some (Stored.workload record) →
      (asBytes "cron:").isPrefixOf key = true → ∀ cron : CronWorkloadRecord, record ≠ cron.asWorkload := by
  rw [listCronWorkloads_contents holds,crons,filterMap_eq_iff,forall_entries]
  · constructor
    · intro agree key record found inside cron same
      have read := agree key _ found
      rw [← SharedLayout.workload_as_cron] at same
      simp [inside,Stored.bytes,same,Stored.cron?,Except.toOption] at read
    · intro apart key stored found
      cases stored with
      | cron record => simp [keyed key record found,Stored.bytes,Stored.cron?,Except.toOption]
      | applied bytes => exact absurd found (unapplied key bytes)
      | workload record =>
        simp only [Stored.bytes,Stored.cron?,ite_eq_right_iff]
        intro inside
        rw [Option.eq_none_iff_forall_ne_some]
        intro cron read
        rw [toOption_eq_some,SharedLayout.workload_as_cron] at read
        exact apart key record found inside cron read
  · rw [forall_entries]
    intro key stored found record listed
    cases stored <;> cases listed
    simp [keyed key _ found,Stored.bytes,Except.toOption]

theorem exact_iff
    (keyed : ∀ (key : Bytes) record, ledger[key]? = some (Stored.cron record) → (asBytes "cron:").isPrefixOf key = true) :
    ledger.Exact storage ↔ ledger.ToldApart := by
  have count : ∀ tenantId, listWorkloads storage = ledger.workloads →
      (computeTenantUsage storage tenantId).2.2.toNat = ledger.countOf tenantId % 2^32 := by
    intro tenantId same
    rw [computeTenantUsage_wrapped,same,UInt32.toNat_ofNat']
    rfl
  constructor
  · intro exact
    refine ⟨(workloads_exact_iff holds unapplied).mp exact.workloads,(crons_exact_iff holds unapplied keyed).mp exact.crons,?_⟩
    intro tenantId
    have usage := exact.usage tenantId
    rw [count tenantId exact.workloads] at usage
    omega
  · intro apart
    have same := (workloads_exact_iff holds unapplied).mpr apart.noCron
    refine ⟨same,(crons_exact_iff holds unapplied keyed).mpr apart.noText,fun tenantId => ?_⟩
    rw [count tenantId same,Nat.mod_eq_of_lt (apart.counted tenantId)]

end

omit [FleetosCore] [Formats] [SharedLayout] in
theorem cron_prefixed (text : String) : (asBytes "cron:").isPrefixOf (asBytes ("cron:" ++ text)) = true := by
  rw [asBytes_append,List.isPrefixOf_iff_prefix]
  exact List.prefix_append _ _

end Ledger

/-- Exactly if no cron definition is stored, no workload reads as one, and the counts fit. -/
theorem listings_exact_iff [SharedLayout] {trace : List (Transition Node Entry)} {last : Node}
    (run : Run Advances (boot Disk.empty) trace last)
    (unapplied : ∀ transition ∈ trace, ∀ key bytes, ¬transition.label.Files key (.applied bytes)) :
    (Ledger.after trace).Exact last.disk ↔ (Ledger.after trace).ToldApart := by
  apply Ledger.exact_iff (Ledger.after_refines run)
  · intro key bytes found
    obtain ⟨transition,member,filed⟩ := Ledger.after_cases found
    exact unapplied transition member key bytes filed
  · intro key record found
    obtain ⟨transition,member,⟨cmd,_⟩,_,filed⟩ := Ledger.after_cases found
    cases filed
    rw [String.append_assoc,String.append_assoc]
    exact Ledger.cron_prefixed _

end

section
open Reference

theorem string_of_bytes (text rest : Bytes) :
    Codec.string.decode (Codec.bytes.encode text ++ rest) = (String.fromUTF8? ⟨text.toArray⟩).map (·,rest) := by
  simp only [Codec.string,Codec.retract,Codec.decode_encode,Option.bind_eq_bind,Option.bind_some]
  cases String.fromUTF8? ⟨text.toArray⟩ <;> rfl

theorem fromUTF8_eq_some {text : Bytes} {read} :
    String.fromUTF8? ⟨text.toArray⟩ = some read ↔ text = asBytes read := by
  unfold String.fromUTF8?
  constructor
  · intro decoded
    split at decoded
    · cases decoded
      rfl
    · cases decoded
  · intro same
    have valid : (⟨text.toArray⟩ : ByteArray) = read.toByteArray := by simp [same,asBytes]
    rw [valid]
    simp only [read.isValidUTF8,dite_true]
    rfl

theorem decode_crossed (record : WorkloadSpecRecord) : cronWorkloadRecord.decode (workloadSpecRecord.encode record) =
      (String.fromUTF8? ⟨record.specBytes.toArray⟩).map fun text =>
        (⟨record.tenantId,record.workloadId,text,record.lastAppliedBytes⟩,[]) := by
  have last := Codec.bytes.decode_encode record.lastAppliedBytes []
  rw [List.append_nil] at last
  simp only [cronWorkloadRecord,workloadSpecRecord,Codec.iso,Codec.retract,Codec.pair,Codec.decode_encode,string_of_bytes,
    Option.bind_eq_bind,Option.bind_some]
  cases String.fromUTF8? ⟨record.specBytes.toArray⟩ <;> simp [last]

theorem postcard_ok {α : Type} {codec : Codec α} {bytes : Bytes} {value : α} :
    (postcard codec).fromBytes bytes = .ok value ↔ ∃ rest, codec.decode bytes = some (value,rest) := by
  unfold postcard
  cases read : codec.decode bytes <;> simp [read,Prod.ext_iff]

instance Reference.sharedLayout : SharedLayout where
  cron_as_workload cron := by
    have same : toAllocvec cron = toAllocvec cron.asWorkload := rfl
    rw [same,fromBytes_toAllocvec]
  workload_as_cron record cron := by
    obtain ⟨tenantId,workloadId,spec,last⟩ := record
    obtain ⟨tenant,name,expression,bytes⟩ := cron
    have text := @fromUTF8_eq_some spec expression
    refine postcard_ok.trans ?_
    change (∃ rest, cronWorkloadRecord.decode (workloadSpecRecord.encode _) = some (_,rest)) ↔ _
    rw [decode_crossed]
    cases read : String.fromUTF8? ⟨spec.toArray⟩ <;> simp [CronWorkloadRecord.asWorkload,← text,read]

def nightly : CronWorkload where
  tenantId := "acme"
  cronWorkloadId := "nightly"
  schedule := some ⟨"0 0 3 * * *",false⟩
  workloadTemplate := some acmeShop

def nightlyRecord : CronWorkloadRecord := ⟨"acme","nightly","0 0 3 * * *",CronMessages.encodeCronWorkload nightly⟩

def cronShop : WorkloadSpec := { acmeShop with tenantId := "cron" }

def submitNightly : AuditedCommand := requested (.submitCronWorkload nightlyRecord ⟨"acme","nightly",1700000000⟩) "nightly"

theorem submitted_shop_listed :
    (Ledger.after (firstStep (submitShop acmeShop))).Exact (takenFirst (submitShop acmeShop)).disk := by
  have only : ∀ (key : Bytes) stored, (Ledger.after (firstStep (submitShop acmeShop)))[key]? = some stored →
      key = workloadKey "acme" "shop" ∧ stored = .workload ⟨"acme","shop",encodeWorkloadSpec acmeShop,[]⟩ := by
    intro key stored found
    obtain ⟨transition,member,audited,normal,filed⟩ := Ledger.after_cases found
    cases mem_singleton.mp member
    cases normal
    cases filed
    exact ⟨rfl,rfl⟩
  refine (listings_exact_iff (first_run (by decide +kernel)) ?_).mpr ⟨?_,?_,?_⟩
  · rintro transition member key bytes ⟨audited,normal,filed⟩
    cases mem_singleton.mp member
    cases normal
    cases filed
  · intro key record found
    cases (only key _ found).2
  · intro key record found inside
    rw [(only key _ found).1] at inside
    exact absurd inside (by decide)
  · intro tenantId
    have few : (Ledger.after (firstStep (submitShop acmeShop))).workloads.length = 1 := by decide +kernel
    have counted := List.length_filter_le (fun record : WorkloadSpecRecord => record.tenantId = tenantId)
      (Ledger.after (firstStep (submitShop acmeShop))).workloads
    unfold Ledger.countOf
    omega

/-- And a workload of a tenant named `cron` as a cron definition. -/
theorem nightly_listed_as_workload :
    (adminServer Disk.empty).submitCronWorkload fleetctlProxy "req-1" nightly = .ok submitNightly ∧
    Run Advances (boot Disk.empty) (firstStep submitNightly) (takenFirst submitNightly) ∧
    (Ledger.after (firstStep submitNightly)).workloads = [] ∧
    listWorkloads (takenFirst submitNightly).disk = [nightlyRecord.asWorkload] ∧
    (computeTenantUsage (takenFirst submitNightly).disk "acme").2.2 = 1 ∧
    (adminServer Disk.empty).submitWorkloadSpec fleetctlProxy "req-1" cronShop = .ok (submitShop cronShop) ∧
    Run Advances (boot Disk.empty) (firstStep (submitShop cronShop)) (takenFirst (submitShop cronShop)) ∧
    (Ledger.after (firstStep (submitShop cronShop))).crons = [] ∧
    (listCronWorkloads (takenFirst (submitShop cronShop)).disk).length = 1 := by
  refine ⟨?_,first_run (by decide +kernel),by decide +kernel,by decide +kernel,by decide +kernel,?_,
    first_run (by decide +kernel),by decide +kernel,by decide +kernel⟩
  · rfl
  · rfl

end

section
/-- No two of the tenants with a workload, service or cron definition share a key, whatever the roles and ordinals. -/
structure KeysApart (names : String → String → Prop) : Prop where
  ordinals : ∀ left right : Slot, names left.tenantId left.workloadId → names right.tenantId right.workloadId →
    left.key = right.key → left = right
  services : ∀ left right : ServicePlace, names left.tenantId left.service → names right.tenantId right.service →
    left.key = right.key → left = right
  workloads : ∀ tenantId name owner other, names tenantId name → names owner other →
    workloadKey tenantId name = workloadKey owner other → tenantId = owner ∧ name = other
  crons : ∀ tenantId name owner other, names tenantId name → names owner other →
    cronKey tenantId name = cronKey owner other → tenantId = owner ∧ name = other
  mixed : ∀ tenantId name owner other, names tenantId name → names owner other → workloadKey tenantId name ≠ cronKey owner other

def keyFront (tenantId name : String) : List Char := tenantId.toList ++ ':' :: (name.toList ++ [':'])

structure NamesApart (names : String → String → Prop) : Prop where
  fronts : ∀ tenantId name owner other, names tenantId name → names owner other →
    keyFront tenantId name <+: keyFront owner other → tenantId = owner ∧ name = other
  crons : ∀ tenantId name owner other, names tenantId name → names owner other →
    tenantId ++ ":" ++ name ≠ "cron:" ++ owner ++ ":" ++ other

theorem Slot.key_toList (slot : Slot) : slot.key = asBytes (String.ofList
    (keyFront slot.tenantId slot.workloadId ++ (slot.role.toList ++ ':' :: (toString slot.ordinal).toList))) := by
  refine congrArg asBytes (String.toList_inj.mp ?_)
  simp [keyFront]

variable {names : String → String → Prop} {tenantId name owner other : String}

theorem NamesApart.same (apart : NamesApart names) (one : names tenantId name) (another : names owner other)
    (same : keyFront tenantId name ++ rest = keyFront owner other ++ tail) :
    (tenantId = owner ∧ name = other) ∧ rest = tail := by
  have equal : tenantId = owner ∧ name = other := by
    have right : keyFront owner other <+: keyFront tenantId name ++ rest := same ▸ List.prefix_append _ _
    rcases List.prefix_or_prefix_of_prefix (List.prefix_append _ _) right with shorter | longer
    · exact apart.fronts _ _ _ _ one another shorter
    · obtain ⟨rfl,rfl⟩ := apart.fronts _ _ _ _ another one longer
      exact ⟨rfl,rfl⟩
  obtain ⟨rfl,rfl⟩ := equal
  exact ⟨⟨rfl,rfl⟩,List.append_cancel_left same⟩

theorem NamesApart.joined (apart : NamesApart names) (one : names tenantId name) (another : names owner other)
    (same : tenantId.toList ++ ':' :: name.toList = owner.toList ++ ':' :: other.toList) :
    tenantId = owner ∧ name = other := by
  have fronts : keyFront tenantId name ++ [] = keyFront owner other ++ [] := by
    simpa [keyFront] using congrArg (· ++ [':']) same
  exact (apart.same one another fronts).1

/-- Exactly if no tenant and name, with their colons, begin another tenant and name, or make up a cron definition's key. -/
theorem keys_injective_iff (names : String → String → Prop) : KeysApart names ↔ NamesApart names := by
  constructor
  · intro keys
    refine ⟨?_,fun tenantId name owner other one another same => ?_⟩
    · rintro tenantId name owner other one another ⟨rest,longer⟩
      have same : (⟨tenantId,name,String.ofList rest,0⟩ : Slot).key = (⟨owner,other,"",0⟩ : Slot).key := by
        rw [Slot.key_toList,Slot.key_toList,← longer]
        simp
      have equal := keys.ordinals _ _ one another same
      rw [Slot.mk.injEq] at equal
      exact ⟨equal.1,equal.2.1⟩
    · exact keys.mixed _ _ _ _ one another (congrArg asBytes same)
  · intro apart
    refine ⟨?_,?_,?_,?_,?_⟩
    · rintro ⟨tenantId,name,role,ordinal⟩ ⟨owner,other,part,number⟩ one another same
      rw [Slot.key_toList,Slot.key_toList] at same
      obtain ⟨⟨rfl,rfl⟩,rest⟩ := apart.same one another (String.ofList_injective (asBytes_injective same))
      obtain ⟨roles,ordinals⟩ := (Separated.join_inj_last (Separated.not_mem_repr (by decide) _)
        (Separated.not_mem_repr (by decide) _)).mp rest
      obtain rfl : role = part := String.toList_inj.mp roles
      obtain rfl : ordinal = number := toString_ordinal_inj.mp (String.toList_inj.mp ordinals)
      rfl
    · rintro ⟨tenantId,name,role⟩ ⟨owner,other,part⟩ one another same
      have texts := congrArg String.toList (asBytes_injective same)
      have fronts : keyFront tenantId name ++ role.toList = keyFront owner other ++ part.toList := by
        simpa [keyFront] using texts
      obtain ⟨⟨rfl,rfl⟩,roles⟩ := apart.same one another fronts
      obtain rfl : role = part := String.toList_inj.mp roles
      rfl
    · intro tenantId name owner other one another same
      refine apart.joined one another ?_
      simpa using congrArg String.toList (asBytes_injective same)
    · intro tenantId name owner other one another same
      refine apart.joined one another ?_
      simpa using congrArg String.toList (asBytes_injective same)
    · exact fun tenantId name owner other one another same => apart.crons _ _ _ _ one another (asBytes_injective same)

end

/-- A scan for one node meets its own keys and no other node's. -/
theorem delegation_keys_exact [FleetosCore] {node owner : SpiffeId}
    (short : (asBytes (display node)).length < 65536)
    (measured : (asBytes (display owner)).length < 65536) (delegationId other : String) :
    (compositeDelegationKey node delegationId = compositeDelegationKey owner other ↔ node = owner ∧ delegationId = other) ∧
    (nodeDelegationPrefix node <+: compositeDelegationKey owner other ↔ node = owner) := by
  have scans : nodeDelegationPrefix node <+: compositeDelegationKey owner other ↔ node = owner := by
    constructor
    · intro under
      have own : nodeDelegationPrefix owner <+: compositeDelegationKey owner other := List.prefix_append _ _
      refine (owner_of_range short under own ?_).symm
      rw [nodePrefixLen_under own,Nat.mod_eq_of_lt measured,nodeDelegationPrefix_length]
    · rintro rfl
      exact List.prefix_append _ _
  refine ⟨⟨?_,?_⟩,scans⟩
  · intro same
    obtain rfl := scans.mp (same ▸ List.prefix_append _ _)
    exact ⟨rfl,asBytes_injective (List.append_cancel_left same)⟩
  · rintro ⟨rfl,rfl⟩
    rfl

open Reference Manifests

def shopApplied : Disk := KeyValue.commit Disk.empty
  [put .workloads (workloadKey "acme" "shop")
    (⟨"acme","shop",encodeWorkloadSpec { tenantId := "acme", workloadId := "shop" },[]⟩ : WorkloadSpecRecord)]

/-- An Apply may name a workload with a colon, and a scaling a role. -/
theorem ordinal_key_shared : ((adminServer Disk.empty).apply fleetctlProxy "req-1"
      ⟨some [workloadManifest "acme" "shop:web" { image := some "shop:v1" }],false⟩).toOption.any
        (fun response => response.proposal.isSome) = true ∧
    ((adminServer shopApplied).scaleWorkload fleetctlProxy "req-2"
      ⟨"acme","shop",.ofList [("web:db",(1 : UInt32))]⟩).isOk = true ∧
    ordinalKey "acme" "shop:web" "db" 0 = ordinalKey "acme" "shop" "web:db" 0 := by
  refine ⟨?_,?_,?_⟩ <;> decide +kernel

theorem delegation_keys_of_host : (asBytes (display hostId)).length < 65536 ∧
    ¬nodeDelegationPrefix hostId <+: compositeDelegationKey workerId "d-1" := by
  have short : (asBytes (display hostId)).length < 65536 := by decide
  refine ⟨short,fun under => ?_⟩
  have same := (@delegation_keys_exact _ hostId workerId short (by decide) "d-1" "d-1").2.mp under
  exact absurd (congrArg display same) (by decide)

end FleetosControl
