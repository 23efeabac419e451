import Mathlib.Algebra.Order.BigOperators.Group.List
import Mathlib.Algebra.Order.Ring.Nat
import Std.Data.ExtTreeMap

/-! Tables of ordered keys and the atomic write batches over several of them. The last write of a
batch to a key decides what the key holds. -/
namespace FleetosControl.KeyValue
open Std

variable {ι κ ν : Type} {cmp : κ → κ → Ordering} [TransCmp cmp]

abbrev Store (ι κ ν : Type) (cmp : κ → κ → Ordering) := ι → ExtTreeMap κ ν cmp

inductive Write (ι κ ν : Type) where
  | insert (table : ι) (key : κ) (value : ν)
  | remove (table : ι) (key : κ)
  deriving DecidableEq, Repr

namespace Write

def table : Write ι κ ν → ι
  | .insert table _ _ => table
  | .remove table _ => table

@[simp] theorem table_insert (table : ι) (key : κ) (value : ν) : (Write.insert table key value).table = table := rfl

@[simp] theorem table_remove (table : ι) (key : κ) : (Write.remove table key : Write ι κ ν).table = table := rfl

def key : Write ι κ ν → κ
  | .insert _ key _ => key
  | .remove _ key => key

def on (write : Write ι κ ν) (contents : ExtTreeMap κ ν cmp) : ExtTreeMap κ ν cmp :=
  match write with
  | .insert _ key value => contents.insert key value
  | .remove _ key => contents.erase key

end Write

theorem toList_nodup (contents : ExtTreeMap κ ν cmp) : contents.toList.Nodup := by
  refine (ExtTreeMap.distinct_keys_toList (t := contents)).imp ?_
  intro left right apart same
  subst same
  exact apart ReflCmp.compare_self

section
variable (store : Store ι κ ν cmp) (source target : ι) (chosen : κ → ν → Bool)

/-- Moves the chosen entries of one table to another under their own keys. -/
def moves : List (Write ι κ ν) :=
  ((store source).toList.filter fun entry => chosen entry.1 entry.2).flatMap
    fun entry => [.remove source entry.1,.insert target entry.1 entry.2]

variable {source target}

theorem moves_table (write : Write ι κ ν) (member : write ∈ moves store source target chosen) :
    write.table = source ∨ write.table = target := by
  obtain ⟨entry,_,inside⟩ := List.mem_flatMap.mp member
  rcases List.mem_cons.mp inside with rfl | inside
  · exact .inl rfl
  · obtain rfl := List.mem_singleton.mp inside
    exact .inr rfl

variable [LawfulEqCmp cmp]

theorem mem_chosen (key : κ) (value : ν) :
    (key,value) ∈ (store source).toList.filter (fun entry => chosen entry.1 entry.2) ↔
      (store source)[key]? = some value ∧ chosen key value = true := by
  rw [List.mem_filter,ExtTreeMap.mem_toList_iff_getElem?_eq_some]

theorem mem_chosen_keys (key : κ) :
    key ∈ ((store source).toList.filter fun entry => chosen entry.1 entry.2).map Prod.fst ↔
      ∃ value, (store source)[key]? = some value ∧ chosen key value = true := by
  simp only [List.mem_map,Prod.exists,mem_chosen]
  constructor
  · rintro ⟨_,value,found,rfl⟩
    exact ⟨value,found⟩
  · rintro ⟨value,found⟩
    exact ⟨key,value,found,rfl⟩

end

section
variable [LawfulEqCmp cmp] {contents : ExtTreeMap κ ν cmp} {value found : ν} {other : κ}

theorem insert_eq_some : (contents.insert key value)[other]? = some found ↔
      other = key ∧ value = found ∨ other ≠ key ∧ contents[other]? = some found := by
  by_cases same : other = key
  · subst same
    simp
  · have apart : ¬cmp key other = .eq := fun equal => same (LawfulEqCmp.eq_of_compare equal).symm
    simp [ExtTreeMap.getElem?_insert,apart,same]

theorem erase_eq_some : (contents.erase key)[other]? = some found ↔ other ≠ key ∧ contents[other]? = some found := by
  by_cases same : other = key
  · subst same
    simp
  · have apart : ¬cmp key other = .eq := fun equal => same (LawfulEqCmp.eq_of_compare equal).symm
    simp [ExtTreeMap.getElem?_erase,apart,same]

theorem insert_of_lookup (stored : contents[key]? = some value) : contents.insert key value = contents := by
  apply ExtTreeMap.ext_getElem?
  intro other
  apply Option.ext
  intro found
  rw [insert_eq_some]
  constructor
  · rintro (⟨rfl,rfl⟩ | ⟨_,kept⟩)
    · exact stored
    · exact kept
  · intro kept
    by_cases same : other = key
    · subst same
      exact .inl ⟨rfl,Option.some.inj (stored.symm.trans kept)⟩
    · exact .inr ⟨same,kept⟩

theorem on_lookup_other (write : Write ι κ ν) (contents : ExtTreeMap κ ν cmp) (other : write.key ≠ key) :
    (write.on contents)[key]? = contents[key]? := by
  have apart : ¬cmp write.key key = .eq := fun equal => other (LawfulEqCmp.eq_of_compare equal)
  cases write with
  | insert table written value => exact (ExtTreeMap.getElem?_insert).trans (if_neg apart)
  | remove table removed => exact (ExtTreeMap.getElem?_erase).trans (if_neg apart)

theorem toList_single (key : κ) (value : ν) : ((∅ : ExtTreeMap κ ν cmp).insert key value).toList = [(key,value)] := by
  apply List.perm_singleton.mp
  apply (List.perm_ext_iff_of_nodup (toList_nodup _) (by simp)).mpr
  rintro ⟨other,found⟩
  rw [ExtTreeMap.mem_toList_iff_getElem?_eq_some,insert_eq_some]
  simp [eq_comm]

theorem insertMany_toList (contents : ExtTreeMap κ ν cmp) :
    (∅ : ExtTreeMap κ ν cmp).insertMany contents.toList = contents := by
  classical
  apply ExtTreeMap.ext_getElem?
  intro key
  cases found : contents[key]? with
  | some value =>
    have member : (key,value) ∈ contents.toList := ExtTreeMap.mem_toList_iff_getElem?_eq_some.mpr found
    exact ExtTreeMap.getElem?_insertMany_list_of_mem ReflCmp.compare_self ExtTreeMap.distinct_keys_toList member
  | none =>
    have absent : (contents.toList.map Prod.fst).contains key = false := by
      rw [ExtTreeMap.map_fst_toList_eq_keys]
      simpa using found
    rw [ExtTreeMap.getElem?_insertMany_list_of_contains_eq_false absent]
    simp

end

variable [DecidableEq ι]

def Write.perform (store : Store ι κ ν cmp) (write : Write ι κ ν) : Store ι κ ν cmp :=
  Function.update store write.table (write.on (store write.table))

export Write (perform)

def commit (store : Store ι κ ν cmp) (batch : List (Write ι κ ν)) : Store ι κ ν cmp :=
  batch.foldl perform store

variable (store : Store ι κ ν cmp) (batch : List (Write ι κ ν)) (table : ι)

@[simp] theorem commit_nil : commit store ([] : List (Write ι κ ν)) = store := rfl

@[simp] theorem commit_cons (write : Write ι κ ν) (batch : List (Write ι κ ν)) :
    commit store (write::batch) = commit (write.perform store) batch := rfl

theorem commit_append (first second : List (Write ι κ ν)) :
    commit store (first ++ second) = commit (commit store first) second :=
  List.foldl_append

@[simp] theorem perform_same (write : Write ι κ ν) :
    write.perform store write.table = write.on (store write.table) := by
  simp [perform]

theorem perform_other (write : Write ι κ ν) (table : ι)
    (elsewhere : write.table ≠ table) : write.perform store table = store table := by
  simp [perform,Function.update_of_ne elsewhere.symm]

/-- A table after a batch depends on that table alone: the writes that name it,
in order, on what it held before. -/
theorem commit_table : commit store batch table =
      (batch.filter (fun write => write.table = table)).foldl (fun contents write => write.on contents) (store table) := by
  induction batch generalizing store with
  | nil => rfl
  | cons write batch ih =>
    rw [commit_cons,ih]
    by_cases same : write.table = table
    · subst same
      simp
    · simp [same,perform_other store write table same]

theorem commit_congr (first second : Store ι κ ν cmp) (batch : List (Write ι κ ν)) (table : ι)
    (same : first table = second table) : commit first batch table = commit second batch table := by
  rw [commit_table,commit_table,same]

theorem commit_frame
    (untouched : ∀ write ∈ batch, write.table ≠ table) : commit store batch table = store table := by
  have none : batch.filter (fun write => write.table = table) = [] := by
    simpa [List.filter_eq_nil_iff] using untouched
  rw [commit_table,none]
  rfl

theorem commit_only :
    commit store batch table = commit store (batch.filter fun write => write.table = table) table := by
  rw [commit_table,commit_table,List.filter_filter]
  simp

theorem commit_between (before middle after : List (Write ι κ ν)) (table : ι)
    (earlier : ∀ write ∈ before, write.table ≠ table) (later : ∀ write ∈ after, write.table ≠ table) :
    commit store (before ++ middle ++ after) table = commit store middle table := by
  rw [commit_append,commit_frame _ _ _ later,commit_append]
  exact commit_congr _ _ _ _ (commit_frame _ _ _ earlier)

/-- Writes grouped by table: each table sees the writes of its own group. -/
theorem commit_tables (tables : List ι) (distinct : tables.Nodup)
    (writes : ι → List (Write ι κ ν)) (own : ∀ table, ∀ write ∈ writes table, write.table = table) (table : ι) :
    commit store (tables.flatMap writes) table =
      if table ∈ tables then commit store (writes table) table else store table := by
  induction tables generalizing store with
  | nil => rfl
  | cons first tables ih =>
    obtain ⟨fresh,distinct⟩ := List.nodup_cons.mp distinct
    rw [List.flatMap_cons,commit_append,ih _ distinct]
    by_cases same : table = first
    · subst same
      simp [fresh]
    · have elsewhere : commit store (writes first) table = store table := by
        apply commit_frame
        intro write member named
        exact same (named.symm.trans (own first write member))
      simp only [List.mem_cons,same,false_or,elsewhere]
      split
      · exact commit_congr _ _ _ _ elsewhere
      · rfl

theorem commit_inserts (entries : List (κ × ν)) :
    commit store (entries.map fun entry => .insert table entry.1 entry.2) table = (store table).insertMany entries := by
  induction entries generalizing store with
  | nil => simp
  | cons entry entries ih =>
    rw [List.map_cons,commit_cons,ih,ExtTreeMap.insertMany_cons]
    simp [perform,Write.on]

/-- What a batch leaves at a key depends on what was there and on nothing else of the store. -/
theorem commit_lookup_congr (first second : Store ι κ ν cmp) (batch : List (Write ι κ ν)) {table : ι} {key : κ}
    (same : (first table)[key]? = (second table)[key]?) :
    (commit first batch table)[key]? = (commit second batch table)[key]? := by
  induction batch generalizing first second with
  | nil => exact same
  | cons write batch ih =>
    rw [commit_cons,commit_cons]
    apply ih
    by_cases own : write.table = table
    · subst own
      rw [perform_same,perform_same]
      cases write with
      | insert table written value =>
        exact ExtTreeMap.getElem?_insert.trans ((congrArg (ite _ _) same).trans ExtTreeMap.getElem?_insert.symm)
      | remove table removed =>
        exact ExtTreeMap.getElem?_erase.trans ((congrArg (ite _ _) same).trans ExtTreeMap.getElem?_erase.symm)
    · rw [perform_other first write table own,perform_other second write table own]
      exact same

theorem commit_optional_lookup (key : κ) (value : Option ν) :
    (commit store (value.map (Write.insert table key)).toList table)[key]? = value.or (store table)[key]? := by
  cases value with
  | none => rfl
  | some value =>
    have inserted := perform_same store (Write.insert table key value)
    change ((Write.insert table key value).perform store (Write.insert table key value).table)[key]? = some value
    rw [inserted]
    exact ExtTreeMap.getElem?_insert_self

section
variable (chosen : κ → ν → Bool) {source target : ι}

theorem moves_source (apart : source ≠ target) :
    (moves store source target chosen).filter (fun write => write.table = source) =
      (((store source).toList.filter fun entry => chosen entry.1 entry.2).map Prod.fst).map (.remove source) := by
  rw [moves,List.filter_flatMap,List.map_map,List.map_eq_flatMap]
  congr 1
  funext entry
  simp [apart.symm]

theorem moves_target (apart : source ≠ target) :
    (moves store source target chosen).filter (fun write => write.table = target) =
      ((store source).toList.filter fun entry => chosen entry.1 entry.2).map
        fun entry => .insert target entry.1 entry.2 := by
  rw [moves,List.filter_flatMap,List.map_eq_flatMap]
  congr 1
  funext entry
  simp [apart]

end

section
variable [LawfulEqCmp cmp] {value : ν} {holds : ι → κ → ν → Prop}

theorem commit_lookup_other {table}
    (untouched : ∀ write ∈ batch, write.table = table → write.key ≠ key) :
    (commit store batch table)[key]? = (store table)[key]? := by
  induction batch generalizing store with
  | nil => rfl
  | cons write batch ih =>
    rw [commit_cons,ih _ fun later member => untouched later (List.mem_cons_of_mem _ member)]
    by_cases same : write.table = table
    · have other := untouched write List.mem_cons_self same
      subst same
      rw [perform_same]
      exact on_lookup_other write _ other
    · rw [perform_other store write table same]

theorem commit_removes [DecidableEq κ] (keys : List κ) (key : κ) :
    (commit store (keys.map fun key => .remove table key) table)[key]? =
      if key ∈ keys then none else (store table)[key]? := by
  induction keys generalizing store with
  | nil => simp
  | cons first keys ih =>
    rw [List.map_cons,commit_cons,ih]
    by_cases same : first = key
    · subst same
      simp [perform,Write.on]
    · simp [perform,Write.on,ExtTreeMap.getElem?_erase,same,Ne.symm same]

theorem commit_removes_keys : commit store ((store table).keys.map fun key => .remove table key) table = ∅ := by
  classical
  apply ExtTreeMap.ext_getElem?
  intro key
  rw [commit_removes]
  by_cases member : key ∈ store table
  · simp [ExtTreeMap.mem_keys,member]
  · simp [ExtTreeMap.mem_keys,member]

variable {table}

theorem commit_lookup_kept
    (agreed : ∀ write ∈ batch, write.table = table → write.key = key → write = .insert table key value)
    (stored : (store table)[key]? = some value) : (commit store batch table)[key]? = some value := by
  induction batch generalizing store with
  | nil => exact stored
  | cons write batch ih =>
    rw [commit_cons]
    apply ih _ fun later member => agreed later (List.mem_cons_of_mem _ member)
    by_cases same : write.table = table
    · by_cases named : write.key = key
      · rw [agreed write List.mem_cons_self same named]
        exact (congrArg (·[key]?) (perform_same store (Write.insert table key value))).trans ExtTreeMap.getElem?_insert_self
      · subst same
        rw [perform_same,on_lookup_other write _ named]
        exact stored
    · rw [perform_other store write table same]
      exact stored

/-- A key to which a batch writes one value only, whatever it writes elsewhere. -/
theorem commit_lookup_agreed
    (agreed : ∀ write ∈ batch, write.table = table → write.key = key → write = .insert table key value)
    (written : .insert table key value ∈ batch) : (commit store batch table)[key]? = some value := by
  obtain ⟨front,back,rfl⟩ := List.append_of_mem written
  rw [commit_append,commit_cons]
  apply commit_lookup_kept
  · intro write member
    exact agreed write (List.mem_append_right _ (List.mem_cons_of_mem _ member))
  · exact (congrArg (·[key]?) (perform_same _ (Write.insert table key value))).trans ExtTreeMap.getElem?_insert_self

theorem commit_restores
    (stored : ∀ write ∈ batch, write.table = table →
      ∃ key value, write = .insert table key value ∧ (store table)[key]? = some value) :
    commit store batch table = store table := by
  induction batch generalizing store with
  | nil => rfl
  | cons write batch ih =>
    have kept : write.perform store table = store table := by
      by_cases same : write.table = table
      · obtain ⟨key,value,rfl,found⟩ := stored write List.mem_cons_self same
        exact (perform_same store (Write.insert table key value)).trans (insert_of_lookup found)
      · exact perform_other store write table same
    rw [commit_cons,ih _ fun later member named => by
      rw [kept]
      exact stored later (List.mem_cons_of_mem _ member) named,kept]

section
variable (chosen : κ → ν → Bool) {source target : ι}

theorem commit_moves_source (apart : source ≠ target) (key : κ) :
    (commit store (moves store source target chosen) source)[key]? =
      (store source)[key]?.filter fun value => !chosen key value := by
  classical
  rw [commit_only,moves_source store chosen apart,commit_removes]
  simp only [mem_chosen_keys]
  cases found : (store source)[key]? with
  | none => simp
  | some value => cases picked : chosen key value <;> simp [picked,Option.filter]

theorem commit_moves_target (apart : source ≠ target) (key : κ) :
    (commit store (moves store source target chosen) target)[key]? =
      ((store source)[key]?.filter (chosen key)).or (store target)[key]? := by
  classical
  rw [commit_only,moves_target store chosen apart,commit_inserts]
  have distinct := (ExtTreeMap.distinct_keys_toList (t := store source)).filter fun entry => chosen entry.1 entry.2
  by_cases member : ∃ value, (store source)[key]? = some value ∧ chosen key value = true
  · obtain ⟨value,found,picked⟩ := member
    rw [ExtTreeMap.getElem?_insertMany_list_of_mem ReflCmp.compare_self distinct
      ((mem_chosen store chosen key value).mpr ⟨found,picked⟩)]
    simp [found,picked,Option.filter]
  · have absent := mt (mem_chosen_keys store chosen key).mp member
    rw [ExtTreeMap.getElem?_insertMany_list_of_contains_eq_false (by simpa using absent)]
    cases found : (store source)[key]? with
    | none => simp
    | some value =>
      have dropped : chosen key value = false := by simpa [found] using member
      simp [dropped,Option.filter]

end

def Every (holds : ι → κ → ν → Prop) (store : Store ι κ ν cmp) : Prop :=
  ∀ table key value, (store table)[key]? = some value → holds table key value

def Write.Keeps (holds : ι → κ → ν → Prop) : Write ι κ ν → Prop
  | .insert table key value => holds table key value
  | .remove _ _ => True

variable {store}

theorem perform_every (every : Every holds store) (write : Write ι κ ν) (keeps : write.Keeps holds) :
    Every holds (write.perform store) := by
  intro table key value found
  by_cases same : write.table = table
  · subst same
    rw [perform_same] at found
    cases write with
    | insert table written stored =>
      rcases insert_eq_some.mp found with ⟨rfl,rfl⟩ | ⟨_,kept⟩
      · exact keeps
      · exact every _ _ _ kept
    | remove table removed =>
      exact every _ _ _ (erase_eq_some.mp found).2
  · rw [perform_other store write table same] at found
    exact every _ _ _ found

/-- The rule for properties of stored entries: a batch whose inserts have the property keeps it. -/
theorem commit_every (every : Every holds store) (batch : List (Write ι κ ν))
    (keeps : ∀ write ∈ batch, write.Keeps holds) : Every holds (commit store batch) := by
  induction batch generalizing store with
  | nil => exact every
  | cons write batch ih =>
    exact ih (perform_every every write (keeps write List.mem_cons_self))
      (fun later member => keeps later (List.mem_cons_of_mem _ member))

variable {batch}

theorem commit_found (found : (commit store batch table)[key]? = some value) :
    (store table)[key]? = some value ∨ Write.insert table key value ∈ batch := by
  let told : ι → κ → ν → Prop := fun table key value =>
    (store table)[key]? = some value ∨ Write.insert table key value ∈ batch
  have start : Every told store := fun _ _ _ => .inl
  refine commit_every start batch ?_ table key value found
  intro write member
  cases write with
  | insert => exact .inr member
  | remove => trivial

end

def total (weight : ν → Nat) (contents : ExtTreeMap κ ν cmp) : Nat :=
  (contents.toList.map fun entry => weight entry.2).sum

variable [LawfulEqCmp cmp] {contents : ExtTreeMap κ ν cmp} {value : ν} {weight : ν → Nat}

theorem toList_split (found : contents[key]? = some value) :
    contents.toList.Perm ((key,value)::(contents.erase key).toList) := by
  refine (List.perm_ext_iff_of_nodup (toList_nodup _) (List.nodup_cons.mpr ⟨?_,toList_nodup _⟩)).mpr ?_
  · simp [ExtTreeMap.mem_toList_iff_getElem?_eq_some]
  · rintro ⟨other,stored⟩
    rw [List.mem_cons,ExtTreeMap.mem_toList_iff_getElem?_eq_some,ExtTreeMap.mem_toList_iff_getElem?_eq_some,
      ExtTreeMap.getElem?_erase,Prod.mk.injEq]
    by_cases same : other = key
    · simp [same,found,eq_comm]
    · have apart : ¬cmp key other = .eq := fun equal => same (LawfulEqCmp.eq_of_compare equal).symm
      simp [same,apart]

theorem total_split (found : contents[key]? = some value) :
    total weight contents = weight value + total weight (contents.erase key) := by
  rw [total,((toList_split found).map _).sum_eq,List.map_cons,List.sum_cons]
  rfl

theorem total_insert : total weight (contents.insert key value) = weight value + total weight (contents.erase key) := by
  have rest : (contents.insert key value).erase key = contents.erase key := by
    apply ExtTreeMap.ext_getElem?
    intro other
    rw [ExtTreeMap.getElem?_erase,ExtTreeMap.getElem?_erase,ExtTreeMap.getElem?_insert]
    split <;> rfl
  rw [total_split ExtTreeMap.getElem?_insert_self,rest]

theorem erase_absent (absent : contents[key]? = none) : contents.erase key = contents := by
  apply ExtTreeMap.ext_getElem?
  intro other
  rw [ExtTreeMap.getElem?_erase]
  split
  case isTrue same => rw [← LawfulEqCmp.eq_of_compare same,absent]
  · rfl

theorem total_erase_le (weight : ν → Nat) (contents : ExtTreeMap κ ν cmp) (key : κ) :
    total weight (contents.erase key) ≤ total weight contents := by
  cases found : contents[key]? with
  | none => rw [erase_absent found]
  | some value =>
    rw [total_split found]
    exact Nat.le_add_left _ _

theorem total_insert_le (weight : ν → Nat) (contents : ExtTreeMap κ ν cmp) (key : κ) (value : ν) :
    total weight (contents.insert key value) ≤ total weight contents + weight value := by
  rw [total_insert,Nat.add_comm]
  exact Nat.add_le_add_right (total_erase_le weight contents key) _

end FleetosControl.KeyValue
