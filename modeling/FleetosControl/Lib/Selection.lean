import Mathlib.Algebra.Order.BigOperators.Group.List
import Mathlib.Algebra.Order.Floor.Div
import Mathlib.Algebra.Order.Floor.Semifield
import Mathlib.Data.Rat.Floor

/-! Choosing from a list: the head of a sorted list, a fold that keeps the better of two, the shortest
prefix that is enough, and those that get a unit when units are shared out in proportion. -/
namespace FleetosControl.Selection

variable {α β σ : Type}

section
variable {cmp : α → α → Ordering} {items others : List α} {chosen other : α}

structure Least (cmp : α → α → Ordering) (items : List α) (chosen : α) : Prop where
  member : chosen ∈ items
  least : ∀ other ∈ items, (cmp chosen other).isLE = true

theorem Least.perm (same : items.Perm others) (least : Least cmp items chosen) : Least cmp others chosen :=
  ⟨same.subset least.member,fun other member => least.least other (same.symm.subset member)⟩

variable [Std.TransCmp cmp]

theorem Least.tied (one : Least cmp items chosen) (two : Least cmp items other) : cmp chosen other = .eq :=
  Std.OrientedCmp.isLE_antisymm (one.least other two.member) (two.least chosen one.member)

theorem isLE_swap (more : (cmp left right).isLE = false) : (cmp right left).isLE = true := by
  have swapped : cmp right left = (cmp left right).swap := Std.OrientedCmp.eq_swap
  rw [swapped]
  cases compared : cmp left right <;> simp_all

variable {before : α → α → Prop} [DecidableRel before]

theorem sorted_insertionSort (reads : ∀ left right, before left right ↔ (cmp left right).isLE = true) (items : List α) :
    (items.insertionSort before).Pairwise before := by
  have total : Std.Total before := ⟨fun left right => by
    rw [reads,reads]
    cases ordered : (cmp left right).isLE with
    | true => exact .inl rfl
    | false => exact .inr (isLE_swap ordered)⟩
  have trans : IsTrans α before := ⟨fun _ _ _ one two => by
    rw [reads] at one two ⊢
    exact Std.TransCmp.isLE_trans one two⟩
  exact List.pairwise_insertionSort before items

theorem head_insertionSort (reads : ∀ left right, before left right ↔ (cmp left right).isLE = true)
    (first : (items.insertionSort before).head? = some chosen) : Least cmp items chosen := by
  have sorted := sorted_insertionSort reads items
  refine ⟨(List.mem_insertionSort before).mp (List.mem_of_mem_head? first),fun other member => ?_⟩
  have listed := (List.mem_insertionSort before).mpr member
  obtain ⟨rest,arranged⟩ := List.head?_eq_some_iff.mp first
  rw [arranged] at sorted listed
  rcases List.mem_cons.mp listed with rfl | later
  · exact Std.ReflCmp.isLE_rfl
  · exact (reads _ _).mp (List.rel_of_pairwise_cons sorted later)

end

section
variable {κ : Type} [DecidableEq κ] {key : α → κ} {items others : List α}

theorem find?_unique (distinct : (items.map key).Nodup) {item} :
    items.find? (fun item => key item = wanted) = some item ↔ item ∈ items ∧ key item = wanted := by
  have named_of {first : α} (found : items.find? (fun item => key item = wanted) = some first) : key first = wanted := by
    simpa using List.find?_some found
  constructor
  · intro found
    exact ⟨List.mem_of_find?_eq_some found,named_of found⟩
  · rintro ⟨member,named⟩
    cases found : items.find? fun item => key item = wanted with
    | none => simpa [named] using List.find?_eq_none.mp found item member
    | some first =>
      have same : key first = key item := (named_of found).trans named.symm
      rw [List.inj_on_of_nodup_map distinct (List.mem_of_find?_eq_some found) member same]

theorem find?_perm (same : items.Perm others) (distinct : (items.map key).Nodup) (wanted : κ) :
    items.find? (fun item => key item = wanted) = others.find? fun item => key item = wanted := by
  have again : (others.map key).Nodup := (same.map key).nodup_iff.mp distinct
  apply Option.ext
  intro item
  rw [find?_unique distinct,find?_unique again,same.mem_iff]

end

section
variable (cmp : α → α → Ordering) {seen : List α} {best : Option α}

def keepBest (best found : Option α) : Option α :=
  match found with
  | none => best
  | some item =>
    match best with
    | none => some item
    | some kept => if cmp item kept = .lt then some item else some kept

variable {cmp} {pick : β → Option α}

theorem keepBest_isSome (best found : Option α) : (keepBest cmp best found).isSome = (best.isSome || found.isSome) := by
  cases found with
  | none => simp [keepBest]
  | some item =>
    cases best with
    | none => rfl
    | some kept => by_cases lower : cmp item kept = .lt <;> simp [keepBest,lower]

theorem foldl_keepBest_isSome (sources : List β) (best : Option α) :
    (sources.foldl (fun best source => keepBest cmp best (pick source)) best).isSome =
      (best.isSome || sources.any fun source => (pick source).isSome) := by
  induction sources generalizing best with
  | nil => simp
  | cons source sources ih => rw [List.foldl_cons,ih,keepBest_isSome,List.any_cons,Bool.or_assoc]

/-- What is kept is the best of what has been seen. -/
def Keeps (cmp : α → α → Ordering) (seen : List α) : Option α → Prop
  | none => seen = []
  | some kept => Least cmp seen kept

variable [Std.TransCmp cmp]

theorem keepBest_keeps (keeps : Keeps cmp seen best) (found : Option α) :
    Keeps cmp (seen ++ found.toList) (keepBest cmp best found) := by
  cases found with
  | none => simpa [keepBest] using keeps
  | some item =>
    cases best with
    | none =>
      rw [show seen = [] from keeps]
      exact ⟨by simp,by simp [Std.ReflCmp.isLE_rfl]⟩
    | some kept =>
      obtain ⟨member,lowest⟩ := keeps
      by_cases lower : cmp item kept = .lt
      · simp only [keepBest,lower,if_true]
        refine ⟨by simp,fun other listed => ?_⟩
        rcases List.mem_append.mp listed with earlier | here
        · exact Std.TransCmp.isLE_trans (by rw [lower]; rfl) (lowest other earlier)
        · rw [List.mem_singleton.mp here]
          exact Std.ReflCmp.isLE_rfl
      · simp only [keepBest,lower,if_false]
        refine ⟨List.mem_append_left _ member,fun other listed => ?_⟩
        rcases List.mem_append.mp listed with earlier | here
        · exact lowest other earlier
        · rw [List.mem_singleton.mp here]
          have swapped : cmp kept item = (cmp item kept).swap := Std.OrientedCmp.eq_swap
          rw [swapped]
          cases compared : cmp item kept <;> simp_all

theorem foldl_keepBest (sources : List β) (keeps : Keeps cmp seen best) : Keeps cmp (seen ++ sources.filterMap pick)
      (sources.foldl (fun best source => keepBest cmp best (pick source)) best) := by
  induction sources generalizing seen best with
  | nil => simpa using keeps
  | cons source sources ih =>
    have next := ih (keepBest_keeps keeps (pick source))
    have split : (source::sources).filterMap pick = (pick source).toList ++ sources.filterMap pick := by
      cases found : pick source <;> simp [found]
    rw [List.foldl_cons,split,← List.append_assoc]
    exact next

theorem foldl_keepBest_least {sources : List β}
    (found : sources.foldl (fun best source => keepBest cmp best (pick source)) none = some chosen) :
    Least cmp (sources.filterMap pick) chosen := by
  have start : Keeps cmp ([] : List α) none := rfl
  have keeps : Keeps cmp ([] ++ sources.filterMap pick)
      (sources.foldl (fun best source => keepBest cmp best (pick source)) none) := foldl_keepBest sources start
  rw [found] at keeps
  exact keeps

end

section
variable (enough : σ → Bool) (add : σ → α → σ)

def takeUntil : σ → List α → σ × List α
  | amount, [] => (amount,[])
  | amount, item::rest =>
    if enough amount then (amount,[])
    else
      let (final,taken) := takeUntil (add amount item) rest
      (final,item::taken)

/-- What is taken is the shortest prefix that is enough, or everything. -/
structure Taken (amount : σ) (items : List α) (final : σ) (taken : List α) : Prop where
  front : taken <+: items
  final_eq : final = taken.foldl add amount
  short : ∀ fewer, fewer <+: taken → fewer ≠ taken → enough (fewer.foldl add amount) = false
  all : enough final = false → taken = items

theorem takeUntil_taken (amount : σ) (items : List α) :
    Taken enough add amount items (takeUntil enough add amount items).1 (takeUntil enough add amount items).2 := by
  induction items generalizing amount with
  | nil => exact ⟨List.nil_prefix,rfl,by simp [takeUntil],fun _ => rfl⟩
  | cons item rest ih =>
    unfold takeUntil
    cases reached : enough amount with
    | true => exact ⟨List.nil_prefix,rfl,by simp,by simp [reached]⟩
    | false =>
      obtain ⟨front,final,short,all⟩ := ih (add amount item)
      simp only [Bool.false_eq_true,if_false]
      refine ⟨List.prefix_cons_inj item |>.mpr front,final,?_,fun lacking => congrArg _ (all lacking)⟩
      intro fewer shorter proper
      cases fewer with
      | nil => exact reached
      | cons first others =>
        obtain ⟨rfl,shorter⟩ := List.cons_prefix_cons.mp shorter
        exact short others shorter (fun same => proper (congrArg _ same))

variable {enough add}

theorem Taken.reaches {amount final items taken front} (outcome : Taken enough add amount items final taken)
    (first : front <+: items) (reached : enough (front.foldl add amount) = true) : taken <+: front ∧ enough final = true := by
  have shorter : taken <+: front := by
    rcases List.prefix_or_prefix_of_prefix outcome.front first with shorter | longer
    · exact shorter
    · by_cases same : front = taken
      · exact same ▸ List.prefix_rfl
      · rw [outcome.short front longer same] at reached
        cases reached
  refine ⟨shorter,?_⟩
  by_contra lacking
  have everything := outcome.all (by simpa using lacking)
  have same : front = taken := (everything ▸ first).eq_of_length_le shorter.length_le
  rw [outcome.final_eq,← same] at lacking
  exact lacking reached

end

section
variable {items chosen : List α} (weight : α → Nat)

theorem sum_diff [DecidableEq α] (inside : chosen.Subperm items) :
    (chosen.map weight).sum + ((items.diff chosen).map weight).sum = (items.map weight).sum := by
  have same := List.subperm_append_diff_self_of_count_le (List.subperm_ext_iff.mp inside)
  rw [← (same.map weight).sum_eq,List.map_append,List.sum_append]

end

end FleetosControl.Selection

namespace FleetosControl.Apportionment

/-- Shares of `desired` in whole units and in remainders over a common denominator. -/
structure Shares (α : Type) where
  items : List α
  whole : α → Nat
  remainder : α → Nat
  denominator : Nat
  desired : Nat
  below : ∀ item ∈ items, remainder item < denominator
  adds_up : denominator * (items.map whole).sum + (items.map remainder).sum = denominator * desired

theorem sum_div_add_sum_mod {α : Type} (desired total : Nat) (weight : α → Nat) (items : List α) :
    total * (items.map fun item => desired * weight item / total).sum +
      (items.map fun item => desired * weight item % total).sum = desired * (items.map weight).sum := by
  induction items with
  | nil => simp
  | cons item rest ih =>
    have parts := Nat.div_add_mod (desired * weight item) total
    simp only [List.map_cons,List.sum_cons,Nat.mul_add]
    omega

theorem natCeil_div (left : Nat) {right : Nat} (positive : 0 < right) :
    ⌈(left : ℚ) / right⌉₊ = (left + right - 1) / right := by
  rw [← Nat.ceilDiv_eq_add_pred_div]
  apply eq_of_forall_ge_iff
  intro bound
  rw [Nat.ceil_le,ceilDiv_le_iff_le_mul positive,div_le_iff₀ (by exact_mod_cast positive),Nat.mul_comm]
  exact_mod_cast Iff.rfl

theorem of_mem_take {α : Type} {good : α → Bool} {items : List α}
    (ordered : items.Pairwise fun first second => good second → good first) {many : Nat}
    (enough : many ≤ items.countP good) {item} (taken : item ∈ items.take many) : good item := by
  induction items generalizing many with
  | nil => simp at taken
  | cons head tail ih =>
    obtain ⟨first,rest⟩ := List.pairwise_cons.mp ordered
    cases many with
    | zero => simp at taken
    | succ many =>
      have leads : good head := by
        obtain ⟨other,member,fine⟩ := List.countP_pos_iff.mp (Nat.lt_of_lt_of_le many.succ_pos enough)
        rcases List.mem_cons.mp member with rfl | later
        · exact fine
        · exact first other later fine
      rw [List.countP_cons_of_pos leads] at enough
      rcases List.mem_cons.mp taken with rfl | later
      · exact leads
      · exact ih rest (Nat.le_of_succ_le_succ enough) later

namespace Shares

variable {α κ : Type} (shares : Shares α)

def short : Nat := shares.desired - (shares.items.map shares.whole).sum

theorem denominator_pos (member : item ∈ shares.items) : 0 < shares.denominator :=
  Nat.zero_lt_of_lt (shares.below item member)

theorem wholes_le (positive : 0 < shares.denominator) : (shares.items.map shares.whole).sum ≤ shares.desired := by
  apply Nat.le_of_mul_le_mul_left _ positive
  rw [← shares.adds_up]
  exact Nat.le_add_right _ _

theorem denominator_mul_short : shares.denominator * shares.short = (shares.items.map shares.remainder).sum := by
  rw [short,Nat.mul_sub,← shares.adds_up,Nat.add_sub_cancel_left]

theorem remainders_le (items : List α) (inside : items ⊆ shares.items) :
    (items.map shares.remainder).sum ≤ shares.denominator * items.countP (0 < shares.remainder ·) := by
  induction items with
  | nil => simp
  | cons item rest ih =>
    have member : item ∈ shares.items := inside (List.mem_cons_self)
    have bound := shares.below item member
    have tail := ih (List.subset_of_cons_subset inside)
    rw [List.map_cons,List.sum_cons,List.countP_cons]
    split
    case isTrue =>
      rw [Nat.mul_succ]
      omega
    case isFalse nothing =>
      simp only [decide_eq_true_eq,Nat.pos_iff_ne_zero,not_not] at nothing
      rw [nothing,Nat.zero_add,Nat.add_zero]
      exact tail

theorem short_le_countP (positive : 0 < shares.denominator) :
    shares.short ≤ shares.items.countP (0 < shares.remainder ·) := by
  apply Nat.le_of_mul_le_mul_left _ positive
  rw [shares.denominator_mul_short]
  exact shares.remainders_le shares.items (List.Subset.refl _)

variable {ranked : List α} (permuted : ranked.Perm shares.items)
  (descending : ranked.Pairwise fun first second => shares.remainder second ≤ shares.remainder first)

include permuted descending

theorem remainder_pos_of_mem_take {item} (taken : item ∈ ranked.take shares.short) : 0 < shares.remainder item := by
  have member : item ∈ shares.items := permuted.mem_iff.mp (List.mem_of_mem_take taken)
  have enough : shares.short ≤ ranked.countP (0 < shares.remainder ·) := by
    rw [permuted.countP_eq]
    exact shares.short_le_countP (shares.denominator_pos member)
  have ordered : ranked.Pairwise fun first second =>
      decide (0 < shares.remainder second) → decide (0 < shares.remainder first) := by
    refine descending.imp ?_
    intro first second less
    simp only [decide_eq_true_eq]
    exact fun positive => Nat.lt_of_lt_of_le positive less
  exact of_decide_eq_true (of_mem_take ordered enough taken)

omit permuted in
theorem remainder_le_of_mem_take (taken : first ∈ ranked.take shares.short)
    (left : second ∈ ranked.drop shares.short) : shares.remainder second ≤ shares.remainder first := by
  rw [← List.take_append_drop shares.short ranked] at descending
  exact (List.pairwise_append.mp descending).2.2 first taken second left

omit descending in
theorem length_take (positive : 0 < shares.denominator) : (ranked.take shares.short).length = shares.short := by
  have enough : shares.short ≤ ranked.length :=
    calc
      shares.short ≤ shares.items.countP (0 < shares.remainder ·) := shares.short_le_countP positive
      _ ≤ shares.items.length := List.countP_le_length
      _ = ranked.length := permuted.length_eq.symm
  rw [List.length_take,Nat.min_eq_left enough]

omit descending in
theorem sum_rounded [DecidableEq κ] (positive : 0 < shares.denominator) {key : α → κ}
    (nodup : (shares.items.map key).Nodup) :
    (shares.items.map fun item =>
      shares.whole item + if key item ∈ (ranked.take shares.short).map key then 1 else 0).sum = shares.desired := by
  have distinct : ((ranked.take shares.short ++ ranked.drop shares.short).map key).Nodup := by
    rw [List.take_append_drop]
    exact ((permuted.map key).nodup_iff).mpr nodup
  rw [List.map_append,List.nodup_append] at distinct
  have favoured : (shares.items.map fun item => if key item ∈ (ranked.take shares.short).map key then 1 else 0).sum =
      shares.short := by
    rw [← (permuted.map _).sum_eq]
    have first : ∀ item ∈ ranked.take shares.short,
        (if key item ∈ (ranked.take shares.short).map key then 1 else 0) = 1 :=
      fun item taken => if_pos (List.mem_map_of_mem taken)
    have rest : ∀ item ∈ ranked.drop shares.short,
        (if key item ∈ (ranked.take shares.short).map key then 1 else 0) = 0 := by
      intro item left
      apply if_neg
      intro same
      exact distinct.2.2 _ same _ (List.mem_map_of_mem left) rfl
    conv_lhs => rw [← List.take_append_drop shares.short ranked]
    rw [List.map_append,List.sum_append,List.take_append_drop,List.map_congr_left first,List.map_congr_left rest]
    simp only [List.map_const',List.sum_replicate,smul_eq_mul,mul_one,mul_zero,add_zero]
    exact shares.length_take permuted positive
  rw [List.sum_map_add,favoured,short]
  exact Nat.add_sub_cancel' (shares.wholes_le positive)

end Shares

end FleetosControl.Apportionment
