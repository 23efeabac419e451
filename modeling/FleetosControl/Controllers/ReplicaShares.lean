import FleetosControl.Controllers.Hpa

/-! The total that the metrics ask for, and how it is shared out among the roles by the method of
largest remainders. -/
namespace FleetosControl
open Selection Apportionment
open Std (ExtTreeMap)

def MetricSignal.wanted (signal : MetricSignal) (currentTotal : UInt32) : Nat :=
  ⌈(currentTotal.toNat * signal.avg.toNat : ℕ) / (signal.target.toNat : ℚ)⌉₊

def MetricSignal.active (signal : MetricSignal) : Bool := signal.target ≠ 0

def withinBounds (least most : UInt32) (wanted : Nat) : Nat := max least.toNat (min wanted most.toNat)

section
variable {least most : UInt32}

theorem withinBounds_mono {fewer more : Nat} (ordered : fewer ≤ more) :
    withinBounds least most fewer ≤ withinBounds least most more := by
  unfold withinBounds
  omega

theorem clamp32_toNat (ordered : least ≤ most) (raw : Nat) :
    (clamp32 (.ofNat (min raw (2^32 - 1))) least most).toNat = withinBounds least most raw := by
  have cut : (UInt32.ofNat (min raw (2^32 - 1))).toNat = min raw (2^32 - 1) := by
    rw [UInt32.toNat_ofNat',Nat.mod_eq_of_lt (by omega)]
  have above := most.toNat_lt
  rw [UInt32.le_iff_toNat_le] at ordered
  unfold clamp32 withinBounds
  split
  case isTrue low =>
    rw [UInt32.lt_iff_toNat_lt,cut] at low
    omega
  case isFalse high =>
    rw [UInt32.lt_iff_toNat_lt,cut] at high
    split
    case isTrue beyond =>
      rw [UInt32.lt_iff_toNat_lt,cut] at beyond
      omega
    case isFalse under =>
      rw [UInt32.lt_iff_toNat_lt,cut] at under
      omega

section
variable {currentTotal : UInt32} {signal : MetricSignal} {least most : UInt32}

theorem computeDesiredForMetric_none :
    computeDesiredForMetric currentTotal signal.avg signal.target least most = none ↔
      currentTotal = 0 ∨ signal.active = false := by
  simp [computeDesiredForMetric,MetricSignal.active,or_iff_not_imp_left]

theorem computeDesiredForMetric_some (ordered : least ≤ most) {desired : UInt32} :
    computeDesiredForMetric currentTotal signal.avg signal.target least most = some desired ↔
      currentTotal ≠ 0 ∧ signal.active ∧ desired.toNat = withinBounds least most (signal.wanted currentTotal) := by
  by_cases idle : currentTotal = 0 ∨ signal.target = 0
  · rw [(computeDesiredForMetric_none).mpr (by simpa [MetricSignal.active] using idle)]
    simp only [MetricSignal.active,decide_eq_true_eq]
    constructor
    · exact fun nothing => nomatch nothing
    · rintro ⟨running,active,_⟩
      exact absurd idle (not_or.mpr ⟨running,active⟩)
  · obtain ⟨running,active⟩ := not_or.mp idle
    have positive : 0 < signal.target.toNat := Nat.pos_of_ne_zero fun zero => active (UInt64.toNat_inj.mp zero)
    have value : computeDesiredForMetric currentTotal signal.avg signal.target least most =
        some (clamp32 (.ofNat (min ((currentTotal.toNat * signal.avg.toNat + signal.target.toNat - 1) /
          signal.target.toNat) (2^32 - 1))) least most) := by
      simp [computeDesiredForMetric,running,active]
    rw [value,MetricSignal.wanted,natCeil_div _ positive,← clamp32_toNat ordered,Option.some.injEq]
    simp only [MetricSignal.active,ne_eq,running,active,not_false_eq_true,decide_true,true_and]
    exact ⟨fun same => congrArg _ same.symm,fun same => (UInt32.toNat_inj.mp same).symm⟩

end

section
variable {least most currentTotal fewer more : UInt32} {signals others : List MetricSignal}
  {signal other : MetricSignal}

theorem computeDesiredTotal_none : computeDesiredTotal currentTotal signals least most = none ↔
      currentTotal = 0 ∨ ∀ signal ∈ signals, signal.target = 0 := by
  have every : computeDesiredTotal currentTotal signals least most = none ↔ ∀ signal ∈ signals,
      computeDesiredForMetric currentTotal signal.avg signal.target least most = none := by
    rw [computeDesiredTotal_eq,← Option.not_isSome_iff_eq_none,foldl_keepBest_isSome]
    simp
  rw [every]
  simp only [computeDesiredForMetric_none,MetricSignal.active]
  by_cases stopped : currentTotal = 0
  · simp [stopped]
  · simp [stopped]

theorem largest_signal {desired : UInt32} (ordered : least ≤ most)
    (computed : computeDesiredTotal currentTotal signals least most = some desired) :
    ∃ wanted, ((signals.filter (·.active)).map (·.wanted currentTotal)).max? = some wanted ∧
      desired.toNat = withinBounds least most wanted := by
  have greatest := computeDesiredTotal_greatest computed
  obtain ⟨signal,listed,single⟩ := mem_filterMap.mp greatest.member
  obtain ⟨running,active,amount⟩ := (computeDesiredForMetric_some ordered).mp single
  have member : signal.wanted currentTotal ∈ (signals.filter (·.active)).map (·.wanted currentTotal) :=
    mem_map.mpr ⟨signal,mem_filter.mpr ⟨listed,active⟩,rfl⟩
  cases found : ((signals.filter (·.active)).map (·.wanted currentTotal)).max? with
  | none =>
    rw [List.max?_eq_none_iff.mp found] at member
    cases member
  | some wanted =>
    refine ⟨wanted,rfl,?_⟩
    obtain ⟨reached,above⟩ := List.max?_eq_some_iff.mp found
    obtain ⟨largest,inside,rfl⟩ := mem_map.mp reached
    obtain ⟨present,wants⟩ := mem_filter.mp inside
    have bound : withinBounds least most (largest.wanted currentTotal) ≤ desired.toNat := by
      cases asked : computeDesiredForMetric currentTotal largest.avg largest.target least most with
      | none =>
        rcases computeDesiredForMetric_none.mp asked with stopped | idle
        · exact absurd stopped running
        · exact absurd (wants.symm.trans idle) (by decide)
      | some other =>
        have least := greatest.least other (mem_filterMap.mpr ⟨largest,present,asked⟩)
        rw [← ((computeDesiredForMetric_some ordered).mp asked).2.2,← UInt32.le_iff_toNat_le]
        exact Std.isLE_compare.mp least
    rw [amount] at bound ⊢
    exact Nat.le_antisymm (withinBounds_mono (above _ member)) bound

theorem computeDesiredTotal_perm (same : signals.Perm others) :
    computeDesiredTotal currentTotal others least most = computeDesiredTotal currentTotal signals least most := by
  have nones : computeDesiredTotal currentTotal others least most = none ↔
      computeDesiredTotal currentTotal signals least most = none := by
    rw [computeDesiredTotal_none,computeDesiredTotal_none]
    simp only [same.mem_iff]
  cases one : computeDesiredTotal currentTotal signals least most with
  | none => exact nones.mpr one
  | some desired =>
    cases two : computeDesiredTotal currentTotal others least most with
    | none => cases one.symm.trans (nones.mp two)
    | some other =>
      have tied : compare desired other = .eq := (computeDesiredTotal_greatest two).tied
        ((computeDesiredTotal_greatest one).perm (same.filterMap _))
      rw [Std.LawfulEqCmp.eq_of_compare tied]

theorem computeDesiredTotal_rel (each : List.Forall₂ (fun signal other => Option.Rel (· ≤ ·)
      (computeDesiredForMetric fewer signal.avg signal.target least most)
      (computeDesiredForMetric more other.avg other.target least most)) signals others) :
    Option.Rel (· ≤ ·) (computeDesiredTotal fewer signals least most) (computeDesiredTotal more others least most) := by
  unfold computeDesiredTotal
  refine List.rel_foldl ?_ .none each
  intro best better kept signal other single
  beta_reduce at single ⊢
  generalize computeDesiredForMetric fewer signal.avg signal.target least most = less at single ⊢
  generalize computeDesiredForMetric more other.avg other.target least most = larger at single ⊢
  cases single with
  | none => exact kept
  | some less =>
    refine .some ?_
    cases kept with
    | none => exact less
    | some below =>
      rw [UInt32.le_iff_toNat_le] at below less ⊢
      simp only [Option.elim_some,UInt32.toNat_max]
      omega

theorem computeDesiredForMetric_rel (ordered : least ≤ most) (running : fewer = 0 ↔ more = 0)
    (active : signal.active = other.active) (asks : signal.active → signal.wanted fewer ≤ other.wanted more) :
    Option.Rel (· ≤ ·) (computeDesiredForMetric fewer signal.avg signal.target least most)
      (computeDesiredForMetric more other.avg other.target least most) := by
  cases single : computeDesiredForMetric fewer signal.avg signal.target least most with
  | none =>
    have idle := computeDesiredForMetric_none.mp single
    rw [running,active,← computeDesiredForMetric_none] at idle
    rw [idle]
    exact .none
  | some desired =>
    obtain ⟨runs,wants,amount⟩ := (computeDesiredForMetric_some ordered).mp single
    cases answer : computeDesiredForMetric more other.avg other.target least most with
    | none =>
      have idle := computeDesiredForMetric_none.mp answer
      rw [← running,← active,← computeDesiredForMetric_none,single] at idle
      cases idle
    | some larger =>
      refine .some ?_
      rw [UInt32.le_iff_toNat_le,amount,((computeDesiredForMetric_some ordered).mp answer).2.2]
      exact withinBounds_mono (asks wants)

theorem wanted_mono (active : other.active) (total : fewer ≤ more) (average : signal.avg ≤ other.avg)
    (target : other.target ≤ signal.target) : signal.wanted fewer ≤ other.wanted more := by
  have positive : 0 < other.target.toNat := by
    refine Nat.pos_of_ne_zero fun zero => ?_
    exact of_decide_eq_true active (UInt64.toNat_inj.mp zero)
  have scale : (0 : ℚ) < other.target.toNat := by exact_mod_cast positive
  have product : fewer.toNat * signal.avg.toNat ≤ more.toNat * other.avg.toNat :=
    Nat.mul_le_mul (UInt32.le_iff_toNat_le.mp total) (UInt64.le_iff_toNat_le.mp average)
  have divisor : other.target.toNat ≤ signal.target.toNat := UInt64.le_iff_toNat_le.mp target
  unfold MetricSignal.wanted
  apply Nat.ceil_mono
  gcongr

/-- The total that the autoscaler computes, and how it depends on what it is computed from. -/
theorem computeDesiredTotal_correct (ordered : least ≤ most) (currentTotal : UInt32) (signals : List MetricSignal) :
    (computeDesiredTotal currentTotal signals least most = none ↔
        currentTotal = 0 ∨ ∀ signal ∈ signals, signal.target = 0) ∧
      (∀ desired, computeDesiredTotal currentTotal signals least most = some desired →
        ∃ wanted, ((signals.filter (·.active)).map (·.wanted currentTotal)).max? = some wanted ∧
          desired.toNat = withinBounds least most wanted) ∧
      (∀ others, List.Forall₂ (fun signal other => signal.target = other.target ∧ signal.avg ≤ other.avg) signals others →
        Option.Rel (· ≤ ·) (computeDesiredTotal currentTotal signals least most)
          (computeDesiredTotal currentTotal others least most)) ∧
      (∀ others, List.Forall₂ (fun signal other => signal.avg = other.avg ∧
          (signal.target = other.target ∨ signal.target ≠ 0 ∧ signal.target ≤ other.target)) signals others →
        Option.Rel (· ≤ ·) (computeDesiredTotal currentTotal others least most)
          (computeDesiredTotal currentTotal signals least most)) ∧
      (∀ more, currentTotal ≠ 0 → currentTotal ≤ more →
        Option.Rel (· ≤ ·) (computeDesiredTotal currentTotal signals least most)
          (computeDesiredTotal more signals least most)) ∧
      ∀ others, signals.Perm others →
        computeDesiredTotal currentTotal others least most = computeDesiredTotal currentTotal signals least most := by
  refine ⟨computeDesiredTotal_none,fun desired => largest_signal ordered,?_,?_,?_,?_⟩
  · intro others pairs
    refine computeDesiredTotal_rel (pairs.imp ?_)
    rintro signal other ⟨target,average⟩
    have active : signal.active = other.active := by rw [MetricSignal.active,MetricSignal.active,target]
    refine computeDesiredForMetric_rel ordered Iff.rfl active ?_
    exact fun wants => wanted_mono (active ▸ wants) (UInt32.le_refl _) average (target ▸ UInt64.le_refl _)
  · intro others pairs
    refine computeDesiredTotal_rel (pairs.flip.imp ?_)
    rintro other signal ⟨average,target⟩
    have active : other.active = signal.active := by
      rcases target with same | ⟨positive,less⟩
      · rw [MetricSignal.active,MetricSignal.active,same]
      · have wants : signal.active := decide_eq_true positive
        rw [wants,MetricSignal.active,decide_eq_true_eq]
        rintro zero
        rw [zero] at less
        exact positive (UInt64.le_antisymm less UInt64.zero_le)
    refine computeDesiredForMetric_rel ordered Iff.rfl active ?_
    intro wants
    refine wanted_mono (active ▸ wants) (UInt32.le_refl _) (average ▸ UInt64.le_refl _) ?_
    rcases target with same | ⟨_,less⟩
    · exact same ▸ UInt64.le_refl _
    · exact less
  · intro more running larger
    have runs : currentTotal = 0 ↔ more = 0 := by
      refine ⟨fun stopped => absurd stopped running,?_⟩
      rintro rfl
      exact UInt32.le_antisymm larger UInt32.zero_le
    refine computeDesiredTotal_rel (List.forall₂_same.mpr ?_)
    intro signal _
    refine computeDesiredForMetric_rel ordered runs rfl ?_
    exact fun wants => wanted_mono wants larger (UInt64.le_refl _) (UInt64.le_refl _)
  · intro others same
    exact computeDesiredTotal_perm same

theorem two_signals_computed : (1 : UInt32) ≤ 10 ∧
    ∃ wanted, (([⟨150,100⟩,⟨7,0⟩] : List MetricSignal).filter (·.active) |>.map (·.wanted 4)).max? = some wanted ∧
      (6 : UInt32).toNat = withinBounds 1 10 wanted :=
  ⟨by decide,(computeDesiredTotal_correct (by decide) 4 [⟨150,100⟩,⟨7,0⟩]).2.1 6 (by decide +kernel)⟩

end

end

namespace RoleShare

variable {left right : RoleShare}

theorem order_isLE : (left.order right).isLE ↔
    right.remainder < left.remainder ∨ right.remainder = left.remainder ∧ (compare left.role right.role).isLE := by
  unfold order
  rcases Nat.lt_trichotomy right.remainder left.remainder with less | same | more
  · simp [Nat.compare_eq_lt.mpr less,less]
  · simp [same]
  · simp [Nat.compare_eq_gt.mpr more,Nat.lt_asymm more,Nat.ne_of_gt more]

theorem remainder_le_of_order (ahead : (left.order right).isLE) : right.remainder ≤ left.remainder := by
  rcases order_isLE.mp ahead with less | ⟨same,_⟩
  · exact Nat.le_of_lt less
  · exact Nat.le_of_eq same

instance : Std.Total fun left right : RoleShare => (left.order right).isLE where
  total left right := by
    rw [order_isLE,order_isLE]
    rcases Nat.lt_trichotomy right.remainder left.remainder with less | same | more
    · exact .inl (.inl less)
    · cases up : (compare left.role right.role).isLE with
      | true => exact .inl (.inr ⟨same,rfl⟩)
      | false =>
        have down := Std.OrientedCmp.gt_iff_lt.mp (Ordering.isLE_eq_false.mp up)
        exact .inr (.inr ⟨same.symm,Ordering.isLE_of_eq_lt down⟩)
    · exact .inr (.inl more)

instance : IsTrans RoleShare fun left right => (left.order right).isLE where
  trans first second third ahead before := by
    rw [order_isLE] at ahead before ⊢
    rcases ahead with less | ⟨same,role⟩ <;> rcases before with fewer | ⟨equal,name⟩
    · exact .inl (Nat.lt_trans fewer less)
    · exact .inl (equal ▸ less)
    · exact .inl (same ▸ fewer)
    · exact .inr ⟨equal.trans same,Std.TransCmp.isLE_trans role name⟩

end RoleShare

variable (current : ExtTreeMap String UInt32 compare) {desiredTotal count : UInt32} {desired : Nat} {role : String}

def exactShare (desiredTotal count : UInt32) : ℚ := (desiredTotal.toNat * count.toNat : ℕ) / replicaSum current

theorem exactShare_floor (desiredTotal count : UInt32) :
    ⌊exactShare current desiredTotal count⌋₊ = desiredTotal.toNat * count.toNat / replicaSum current :=
  Nat.floor_div_eq_div _ _

variable {current} (positive : 0 < replicaSum current)
include positive

theorem exactShare_ceil (desiredTotal count : UInt32) : ⌈exactShare current desiredTotal count⌉₊ =
      (desiredTotal.toNat * count.toNat + replicaSum current - 1) / replicaSum current :=
  natCeil_div _ positive

theorem exactShare_fract_lt {less more : UInt32} :
    Int.fract (exactShare current desiredTotal less) < Int.fract (exactShare current desiredTotal more) ↔
      desiredTotal.toNat * less.toNat % replicaSum current < desiredTotal.toNat * more.toNat % replicaSum current := by
  have scale : (0 : ℚ) < replicaSum current := by exact_mod_cast positive
  unfold exactShare
  rw [Int.fract_div_natCast_eq_div_natCast_mod,Int.fract_div_natCast_eq_div_natCast_mod,div_lt_div_iff_of_pos_right scale]
  exact Nat.cast_lt

theorem exactShare_ceil_of_pos (part : 0 < desiredTotal.toNat * count.toNat % replicaSum current) :
    ⌈exactShare current desiredTotal count⌉₊ = desiredTotal.toNat * count.toNat / replicaSum current + 1 := by
  have parts := Nat.div_add_mod (desiredTotal.toNat * count.toNat) (replicaSum current)
  have below := Nat.mod_lt (desiredTotal.toNat * count.toNat) positive
  rw [exactShare_ceil positive]
  apply Nat.div_eq_of_lt_le
  · rw [Nat.add_mul,Nat.one_mul,Nat.mul_comm (_ / _)]
    omega
  · rw [Nat.add_mul,Nat.add_mul,Nat.one_mul,Nat.mul_comm (_ / _)]
    omega

omit positive

def replicaShares (positive : 0 < replicaSum current) (desired : Nat) : Shares RoleShare where
  items := roleShares current desired
  whole := (·.base)
  remainder := (·.remainder)
  denominator := replicaSum current
  desired := desired
  below share member := by
    obtain ⟨entry,_,rfl⟩ := mem_map.mp member
    exact Nat.mod_lt _ positive
  adds_up := by
    rw [roleShares,List.map_map,List.map_map,Nat.mul_comm _ desired]
    exact sum_div_add_sum_mod desired (replicaSum current) (·.2.toNat) current.toList

variable (current) in
def ranking (desired : Nat) : List RoleShare :=
  (roleShares current desired).insertionSort fun left right => (left.order right).isLE

theorem ranking_perm (desired : Nat) : (ranking current desired).Perm (roleShares current desired) :=
  List.perm_insertionSort _ _

theorem ranking_descending (desired : Nat) :
    (ranking current desired).Pairwise fun first second => second.remainder ≤ first.remainder :=
  (List.pairwise_insertionSort _ _).imp RoleShare.remainder_le_of_order

theorem roleShares_nodup (desired : Nat) : ((roleShares current desired).map (·.role)).Nodup := by
  have keys : (roleShares current desired).map (·.role) = current.keys := by
    rw [roleShares,List.map_map,← ExtTreeMap.map_fst_toList_eq_keys]
    rfl
  rw [keys]
  exact ExtTreeMap.nodup_keys

theorem mem_roleShares (has : current[role]? = some count) :
    ⟨role,desired * count.toNat / replicaSum current,desired * count.toNat % replicaSum current⟩ ∈
      roleShares current desired :=
  mem_map.mpr ⟨_,ExtTreeMap.mem_toList_iff_getElem?_eq_some.mpr has,rfl⟩

theorem mem_favoured (has : current[role]? = some count) : role ∈ favoured current desired ↔
      ⟨role,desired * count.toNat / replicaSum current,desired * count.toNat % replicaSum current⟩ ∈
        (ranking current desired).take (shortfall current desired) := by
  constructor
  · intro chosen
    obtain ⟨share,taken,same⟩ := mem_map.mp chosen
    have member := (ranking_perm desired).mem_iff.mp (List.mem_of_mem_take taken)
    rw [← List.inj_on_of_nodup_map (roleShares_nodup desired) member (mem_roleShares has) same]
    exact taken
  · exact fun taken => mem_map.mpr ⟨_,taken,rfl⟩

theorem distributeReplicas_given (positive : 0 < replicaSum current) {given : UInt32}
    (has : current[role]? = some count) (gets : (distributeReplicas current desiredTotal)[role]? = some given) :
    given.toNat = desiredTotal.toNat * count.toNat / replicaSum current +
      if role ∈ favoured current desiredTotal.toNat then 1 else 0 := by
  have total : desiredTotal.toNat * count.toNat / replicaSum current +
      (if role ∈ favoured current desiredTotal.toNat then 1 else 0) ≤ desiredTotal.toNat := rounded_le has
  have bound := desiredTotal.toNat_lt
  have nobody : desiredTotal = 0 → favoured current desiredTotal.toNat = [] := by
    rintro rfl
    have none : shortfall current 0 = 0 := Nat.zero_sub _
    unfold favoured
    rw [UInt32.toNat_zero,none,List.take_zero,List.map_nil]
  unfold distributeReplicas at gets
  split at gets
  case isTrue nothing =>
    rw [ExtTreeMap.getElem?_map,has] at gets
    cases gets
    simp only [Bool.or_eq_true,decide_eq_true_eq,Nat.ne_of_gt positive,false_or] at nothing
    rw [nobody nothing,nothing]
    simp
  case isFalse =>
    rw [ExtTreeMap.getElem?_map,has] at gets
    cases gets
    rw [UInt32.toNat_ofNat',Nat.mod_eq_of_lt (by omega)]

theorem distributeReplicas_eq_map (current : ExtTreeMap String UInt32 compare) (desiredTotal : UInt32) :
    ∃ give, distributeReplicas current desiredTotal = current.map give := by
  unfold distributeReplicas
  split
  · exact ⟨_,rfl⟩
  · exact ⟨_,rfl⟩

theorem mem_distributeReplicas : role ∈ distributeReplicas current desiredTotal ↔ role ∈ current := by
  obtain ⟨give,same⟩ := distributeReplicas_eq_map current desiredTotal
  rw [same]
  exact ExtTreeMap.mem_map

theorem distributeReplicas_sum (positive : 0 < replicaSum current) (desiredTotal : UInt32) :
    replicaSum (distributeReplicas current desiredTotal) = desiredTotal.toNat := by
  have rounded := (replicaShares positive desiredTotal.toNat).sum_rounded (ranking_perm desiredTotal.toNat) positive
    (roleShares_nodup desiredTotal.toNat)
  obtain ⟨give,same⟩ := distributeReplicas_eq_map current desiredTotal
  have each : ∀ entry ∈ current.toList, (give entry.1 entry.2).toNat =
      desiredTotal.toNat * entry.2.toNat / replicaSum current +
        if entry.1 ∈ favoured current desiredTotal.toNat then 1 else 0 := by
    intro entry member
    have has := ExtTreeMap.mem_toList_iff_getElem?_eq_some.mp member
    apply distributeReplicas_given positive has
    rw [same,ExtTreeMap.getElem?_map,has]
    rfl
  have shares : (distributeReplicas current desiredTotal).toList.map (·.2.toNat) =
      (roleShares current desiredTotal.toNat).map fun share =>
        share.base + if share.role ∈ favoured current desiredTotal.toNat then 1 else 0 := by
    rw [same,ExtTreeMap.toList_map,List.map_map,roleShares,List.map_map]
    exact List.map_congr_left each
  rw [replicaSum,shares]
  exact rounded

section
variable (positive : 0 < replicaSum current) {desiredTotal : UInt32} {role : String} {count given : UInt32}
  (has : current[role]? = some count) (gets : (distributeReplicas current desiredTotal)[role]? = some given)
include positive has gets

theorem distributeReplicas_rounds : given.toNat = desiredTotal.toNat * count.toNat / replicaSum current ∨
      0 < desiredTotal.toNat * count.toNat % replicaSum current ∧ role ∈ favoured current desiredTotal.toNat ∧
        given.toNat = desiredTotal.toNat * count.toNat / replicaSum current + 1 := by
  have amount := distributeReplicas_given positive has gets
  by_cases chosen : role ∈ favoured current desiredTotal.toNat
  · rw [if_pos chosen] at amount
    have part := (replicaShares positive desiredTotal.toNat).remainder_pos_of_mem_take
      (ranking_perm desiredTotal.toNat) (ranking_descending desiredTotal.toNat) ((mem_favoured has).mp chosen)
    exact .inr ⟨part,chosen,amount⟩
  · rw [if_neg chosen] at amount
    exact .inl amount

theorem count_le_given (grows : replicaSum current ≤ desiredTotal.toNat) : count ≤ given := by
  have share : count.toNat ≤ desiredTotal.toNat * count.toNat / replicaSum current :=
    (Nat.le_div_iff_mul_le positive).mpr (by rw [Nat.mul_comm]; exact Nat.mul_le_mul_right _ grows)
  have amount := distributeReplicas_given positive has gets
  rw [UInt32.le_iff_toNat_le,amount]
  exact Nat.le_add_right_of_le share

theorem given_le_count (shrinks : desiredTotal.toNat ≤ replicaSum current) : given ≤ count := by
  have less : desiredTotal.toNat * count.toNat ≤ replicaSum current * count.toNat := Nat.mul_le_mul_right _ shrinks
  rw [UInt32.le_iff_toNat_le]
  rcases distributeReplicas_rounds positive has gets with down | ⟨part,_,up⟩
  · rw [down]
    exact Nat.div_le_of_le_mul less
  · rw [up]
    have parts := Nat.div_add_mod (desiredTotal.toNat * count.toNat) (replicaSum current)
    have fewer : replicaSum current * (desiredTotal.toNat * count.toNat / replicaSum current) <
        replicaSum current * count.toNat := by omega
    exact Nat.lt_of_mul_lt_mul_left fewer

theorem given_floor_or_ceil :
    given.toNat = ⌊exactShare current desiredTotal count⌋₊ ∨ given.toNat = ⌈exactShare current desiredTotal count⌉₊ := by
  rcases distributeReplicas_rounds positive has gets with down | ⟨part,_,up⟩
  · rw [exactShare_floor]
    exact .inl down
  · rw [exactShare_ceil_of_pos positive part]
    exact .inr up

theorem given_zero (zero : count = 0) : given = 0 := by
  apply UInt32.toNat_inj.mp
  rcases distributeReplicas_rounds positive has gets with down | ⟨part,_,_⟩
  · rw [down,zero]
    simp
  · rw [zero] at part
    simp at part

theorem given_ceil_of_larger {other : String} {small rounded : UInt32} (owns : current[other]? = some small)
    (takes : (distributeReplicas current desiredTotal)[other]? = some rounded)
    (larger : Int.fract (exactShare current desiredTotal small) < Int.fract (exactShare current desiredTotal count))
    (up : ⌊exactShare current desiredTotal small⌋₊ < rounded.toNat) :
    given.toNat = ⌈exactShare current desiredTotal count⌉₊ := by
  have remainders := (exactShare_fract_lt positive).mp larger
  rw [exactShare_ceil_of_pos positive (Nat.zero_lt_of_lt remainders)]
  have favours : other ∈ favoured current desiredTotal.toNat := by
    rcases distributeReplicas_rounds positive owns takes with down | ⟨_,chosen,_⟩
    · rw [exactShare_floor,down] at up
      exact absurd up (Nat.lt_irrefl _)
    · exact chosen
  have chosen : role ∈ favoured current desiredTotal.toNat := by
    rw [mem_favoured has]
    have member := (ranking_perm desiredTotal.toNat).mem_iff.mpr (mem_roleShares has)
    rw [← List.take_append_drop (shortfall current desiredTotal.toNat) (ranking current desiredTotal.toNat)] at member
    rcases mem_append.mp member with taken | left
    · exact taken
    · have order := (replicaShares positive desiredTotal.toNat).remainder_le_of_mem_take
        (ranking_descending desiredTotal.toNat) ((mem_favoured owns).mp favours) left
      exact absurd order (Nat.not_le_of_lt remainders)
  have amount := distributeReplicas_given positive has gets
  rwa [if_pos chosen] at amount

end

/-- The replicas are shared out by largest remainders. -/
theorem distributeReplicas_apportions (current : ExtTreeMap String UInt32 compare)
    (positive : 0 < replicaSum current) (desiredTotal : UInt32) :
    (∀ role, role ∈ distributeReplicas current desiredTotal ↔ role ∈ current) ∧
      replicaSum (distributeReplicas current desiredTotal) = desiredTotal.toNat ∧
      (∀ (role : String) (count given : UInt32), current[role]? = some count →
        (distributeReplicas current desiredTotal)[role]? = some given →
        (given.toNat = ⌊exactShare current desiredTotal count⌋₊ ∨
          given.toNat = ⌈exactShare current desiredTotal count⌉₊) ∧
        (count = 0 → given = 0) ∧ (replicaSum current ≤ desiredTotal.toNat → count ≤ given) ∧
        (desiredTotal.toNat ≤ replicaSum current → given ≤ count)) ∧
      ∀ (role other : String) (count small given rounded : UInt32), current[role]? = some count →
        current[other]? = some small →
        (distributeReplicas current desiredTotal)[role]? = some given →
        (distributeReplicas current desiredTotal)[other]? = some rounded →
        Int.fract (exactShare current desiredTotal small) < Int.fract (exactShare current desiredTotal count) →
        ⌊exactShare current desiredTotal small⌋₊ < rounded.toNat →
        given.toNat = ⌈exactShare current desiredTotal count⌉₊ := by
  refine ⟨fun _ => mem_distributeReplicas,distributeReplicas_sum positive desiredTotal,?_,?_⟩
  · intro role count given has gets
    exact ⟨given_floor_or_ceil positive has gets,given_zero positive has gets,count_le_given positive has gets,
      given_le_count positive has gets⟩
  · intro role other count small given rounded has owns gets takes larger up
    exact given_ceil_of_larger positive has gets owns takes larger up

def threeRoles : ExtTreeMap String UInt32 compare :=
  ((∅ : ExtTreeMap String UInt32 compare).insert "db" 1).insert "web" 2 |>.insert "worker" 0

theorem three_roles_apportioned : 0 < replicaSum threeRoles ∧ replicaSum (distributeReplicas threeRoles 5) = 5 :=
  ⟨by decide +kernel,(distributeReplicas_apportions threeRoles (by decide +kernel) 5).2.1⟩

example : (distributeReplicas threeRoles 5).toList = [("db",2),("web",3),("worker",0)] := by decide +kernel

end FleetosControl
