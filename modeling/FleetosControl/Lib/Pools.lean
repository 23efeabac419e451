import Mathlib.Data.List.Nodup
import Mathlib.Data.List.Perm.Subperm

/-! Numbers handed out from blocks, in order and each to one place. The laws are fields, so that two
numbers cannot clash. -/
namespace FleetosControl.Allocation

structure Held where
  slot : Nat
  next : Nat
  deriving DecidableEq

section
variable {τ κ : Type}

theorem update_eq_some {α β : Type} [DecidableEq α] {assigned : α → Option β} {key other value found} :
    Function.update assigned key (some value) other = some found ↔
      other = key ∧ value = found ∨ other ≠ key ∧ assigned other = some found := by
  by_cases same : other = key <;> simp [same]

structure Pools (owner : κ → τ) (slots size : Nat) where
  held : τ → Option Held
  lease : κ → Option Nat
  slot_lt : ∀ {holder : τ} {block : Held}, held holder = some block → block.slot < slots
  next_le : ∀ {holder : τ} {block : Held}, held holder = some block → block.next ≤ size
  apart : ∀ {left right : τ} {first second : Held}, held left = some first → held right = some second →
    first.slot = second.slot → left = right
  leased : ∀ {place : κ} {offset : Nat}, lease place = some offset →
    ∃ block, held (owner place) = some block ∧ offset < block.next
  once : ∀ {left right : κ} {offset : Nat}, owner left = owner right → lease left = some offset →
    lease right = some offset → left = right

namespace Pools

variable {owner : κ → τ} {slots size offset here there : Nat} {block first second : Held} {place : κ} {holder : τ}

def empty : Pools owner slots size where
  held _ := none
  lease _ := none
  slot_lt holds := by cases holds
  next_le holds := by cases holds
  apart holds := by cases holds
  leased found := by cases found
  once _ found := by cases found

def number (size : Nat) (block : Held) (offset : Nat) : Nat := block.slot * size + offset

theorem number_lt (bounded : block.slot < slots) (inside : offset < size) : number size block offset < slots * size :=
  calc
    block.slot * size + offset < block.slot * size + size := Nat.add_lt_add_left inside _
    _ = (block.slot + 1) * size := (Nat.succ_mul _ _).symm
    _ ≤ slots * size := Nat.mul_le_mul_right _ bounded

theorem number_inj {left right : Nat} (inside : left < size) (within : right < size)
    (same : number size first left = number size second right) : first.slot = second.slot ∧ left = right := by
  have positive : 0 < size := Nat.zero_lt_of_lt inside
  have slot : ∀ (block : Held) (offset : Nat), offset < size → number size block offset / size = block.slot := by
    intro block offset bounded
    rw [number,Nat.mul_comm,Nat.mul_add_div positive,Nat.div_eq_of_lt bounded,Nat.add_zero]
  have slots : first.slot = second.slot := by
    rw [← slot first left inside,← slot second right within,same]
  unfold number at same
  rw [slots] at same
  exact ⟨slots,Nat.add_left_cancel same⟩

variable (pools : Pools owner slots size)

theorem lease_inside (found : pools.lease place = some offset) :
    ∃ block, pools.held (owner place) = some block ∧ offset < size := by
  obtain ⟨block,holds,below⟩ := pools.leased found
  exact ⟨block,holds,Nat.lt_of_lt_of_le below (pools.next_le holds)⟩

theorem blocks_disjoint (one : pools.held left = some first) (other : pools.held right = some second)
    (different : left ≠ right) (inside : here < size) (within : there < size) :
    number size first here ≠ number size second there :=
  fun same => different (pools.apart one other (number_inj inside within same).1)

theorem leases_distinct (one : pools.lease left = some here) (other : pools.lease right = some there)
    (holds : pools.held (owner left) = some first) (keeps : pools.held (owner right) = some second)
    (same : number size first here = number size second there) : left = right := by
  obtain ⟨_,_,inside⟩ := pools.lease_inside one
  obtain ⟨_,_,within⟩ := pools.lease_inside other
  obtain ⟨slot,rfl⟩ := number_inj inside within same
  exact pools.once (pools.apart holds keeps slot) one other

/-- Every number that has been handed out still has a place. -/
def Full : Prop :=
  ∀ (holder : τ) (block : Held) (offset : Nat), pools.held holder = some block → offset < block.next →
    ∃ place, owner place = holder ∧ pools.lease place = some offset

theorem full_empty : (empty : Pools owner slots size).Full := by
  intro holder block offset holds
  cases holds

variable {pools}

theorem Full.next_le_length (full : pools.Full) (holds : pools.held holder = some block) {places : List κ}
    (listed : ∀ (place : κ) (offset : Nat), owner place = holder → pools.lease place = some offset → place ∈ places) :
    block.next ≤ places.length := by
  have covered : List.range block.next ⊆ places.filterMap pools.lease := by
    intro offset below
    obtain ⟨place,mine,leased⟩ := full holder block offset holds (List.mem_range.mp below)
    exact List.mem_filterMap.mpr ⟨place,listed place offset mine leased,leased⟩
  calc
    block.next = (List.range block.next).length := List.length_range.symm
    _ ≤ (places.filterMap pools.lease).length := (List.nodup_range.subperm covered).length_le
    _ ≤ places.length := List.length_filterMap_le _ _

variable (pools) [DecidableEq τ] [DecidableEq κ]

def openSlot (holder : τ) (slot : Nat) (fresh : pools.held holder = none) (bounded : slot < slots)
    (unused : ∀ (other : τ) (block : Held), pools.held other = some block → block.slot ≠ slot) :
    Pools owner slots size where
  held := Function.update pools.held holder (some ⟨slot,0⟩)
  lease := pools.lease
  slot_lt := by
    intro other block holds
    rcases update_eq_some.mp holds with ⟨_,rfl⟩ | ⟨_,before⟩
    · exact bounded
    · exact pools.slot_lt before
  next_le := by
    intro other block holds
    rcases update_eq_some.mp holds with ⟨_,rfl⟩ | ⟨_,before⟩
    · exact Nat.zero_le size
    · exact pools.next_le before
  apart := by
    intro left right first second one other slots
    rcases update_eq_some.mp one with ⟨mine,rfl⟩ | ⟨_,left⟩ <;>
      rcases update_eq_some.mp other with ⟨yours,rfl⟩ | ⟨_,right⟩
    · exact mine.trans yours.symm
    · exact absurd slots.symm (unused _ second right)
    · exact absurd slots (unused _ first left)
    · exact pools.apart left right slots
  leased := by
    intro place offset found
    obtain ⟨block,holds,below⟩ := pools.leased found
    have other : owner place ≠ holder := by
      intro same
      rw [same,fresh] at holds
      cases holds
    exact ⟨block,update_eq_some.mpr (.inr ⟨other,holds⟩),below⟩
  once := pools.once

def take (place : κ) (block : Held) (holds : pools.held (owner place) = some block) (room : block.next < size) :
    Pools owner slots size where
  held := Function.update pools.held (owner place) (some ⟨block.slot,block.next + 1⟩)
  lease := Function.update pools.lease place (some block.next)
  slot_lt := by
    intro other taken found
    rcases update_eq_some.mp found with ⟨_,rfl⟩ | ⟨_,before⟩
    · exact (pools.slot_lt holds : block.slot < slots)
    · exact pools.slot_lt before
  next_le := by
    intro other taken found
    rcases update_eq_some.mp found with ⟨_,rfl⟩ | ⟨_,before⟩
    · exact room
    · exact pools.next_le before
  apart := by
    -- the slot of the block stays, so every slot has the owner it had
    have before : ∀ (other : τ) (taken : Held),
        Function.update pools.held (owner place) (some ⟨block.slot,block.next + 1⟩) other = some taken →
        ∃ old, pools.held other = some old ∧ old.slot = taken.slot := by
      intro other taken found
      rcases update_eq_some.mp found with ⟨rfl,rfl⟩ | ⟨_,before⟩
      · exact ⟨block,holds,rfl⟩
      · exact ⟨taken,before,rfl⟩
    intro left right first second one other slots
    obtain ⟨oldFirst,held,slot⟩ := before left first one
    obtain ⟨oldSecond,kept,place⟩ := before right second other
    exact pools.apart held kept (slot.trans (slots.trans place.symm))
  leased := by
    intro other offset found
    rcases update_eq_some.mp found with ⟨rfl,rfl⟩ | ⟨_,before⟩
    · exact ⟨_,update_eq_some.mpr (.inl ⟨rfl,rfl⟩),Nat.lt_succ_self _⟩
    · obtain ⟨old,held,below⟩ := pools.leased before
      by_cases mine : owner other = owner place
      · rw [mine,holds,Option.some.injEq] at held
        subst held
        exact ⟨_,update_eq_some.mpr (.inl ⟨mine,rfl⟩),Nat.lt_succ_of_lt below⟩
      · exact ⟨old,update_eq_some.mpr (.inr ⟨mine,held⟩),below⟩
  once := by
    -- earlier numbers of the block lie below the one that is handed out
    have older : ∀ other : κ, owner other = owner place → pools.lease other ≠ some block.next := by
      intro other mine found
      obtain ⟨old,held,below⟩ := pools.leased found
      rw [mine,holds,Option.some.injEq] at held
      subst held
      exact Nat.lt_irrefl _ below
    intro left right offset owners one other
    rcases update_eq_some.mp one with ⟨mine,rfl⟩ | ⟨_,first⟩ <;>
      rcases update_eq_some.mp other with ⟨yours,same⟩ | ⟨_,second⟩
    · exact mine.trans yours.symm
    · subst mine
      exact absurd second (older right owners.symm)
    · subst yours same
      exact absurd first (older left owners)
    · exact pools.once owners first second

variable {pools}

omit [DecidableEq κ] in
theorem Full.openSlot (full : pools.Full) {slot : Nat} (fresh : pools.held holder = none) (bounded : slot < slots)
    (unused : ∀ (other : τ) (block : Held), pools.held other = some block → block.slot ≠ slot) :
    (pools.openSlot holder slot fresh bounded unused).Full := by
  intro other block offset holds below
  rcases update_eq_some.mp holds with ⟨_,rfl⟩ | ⟨_,before⟩
  · exact absurd below (Nat.not_lt_zero _)
  · exact full other block offset before below

theorem Full.take (full : pools.Full) (holds : pools.held (owner place) = some block) (room : block.next < size)
    (free : pools.lease place = none) : (pools.take place block holds room).Full := by
  have kept : ∀ (other : κ) (offset : Nat), pools.lease other = some offset →
      (pools.take place block holds room).lease other = some offset := by
    intro other offset leased
    refine update_eq_some.mpr (.inr ⟨?_,leased⟩)
    rintro rfl
    cases free.symm.trans leased
  intro other taken offset found below
  rcases update_eq_some.mp found with ⟨rfl,rfl⟩ | ⟨_,before⟩
  · rcases Nat.lt_succ_iff_lt_or_eq.mp below with earlier | rfl
    · obtain ⟨leaser,mine,leased⟩ := full _ block offset holds earlier
      exact ⟨leaser,mine,kept leaser offset leased⟩
    · exact ⟨place,rfl,update_eq_some.mpr (.inl ⟨rfl,rfl⟩)⟩
  · obtain ⟨leaser,mine,leased⟩ := full other taken offset before below
    exact ⟨leaser,mine,kept leaser offset leased⟩

end Pools

end

structure Roster (κ : Type) (capacity : Nat) where
  places : List κ
  nodup : places.Nodup
  bounded : places.length ≤ capacity

namespace Roster

variable {κ : Type} {capacity position : Nat} {place : κ}

def empty : Roster κ capacity := ⟨[],List.nodup_nil,Nat.zero_le _⟩

variable (roster : Roster κ capacity)

theorem position_lt (found : roster.places[position]? = some place) : position < roster.places.length :=
    (List.getElem?_eq_some_iff.mp found).1

theorem full (complete : capacity ≤ roster.places.length) (inside : position < capacity) :
    ∃ place, roster.places[position]? = some place :=
  ⟨_,List.getElem?_eq_getElem (Nat.lt_of_lt_of_le inside complete)⟩

def add (place : κ) (fresh : place ∉ roster.places) (room : roster.places.length < capacity) : Roster κ capacity where
  places := roster.places ++ [place]
  nodup := List.nodup_append_comm.mp (List.nodup_cons.mpr ⟨fresh,roster.nodup⟩)
  bounded := by
    rw [List.length_append,List.length_singleton]
    exact room

theorem add_position : (roster.add place fresh room).places[position]? = some other ↔
      roster.places[position]? = some other ∨ position = roster.places.length ∧ other = place := by
  simp only [add,List.getElem?_append]
  split
  case isTrue below =>
    constructor
    · exact .inl
    · rintro (found | ⟨rfl,_⟩)
      · exact found
      · exact absurd below (Nat.lt_irrefl _)
  case isFalse above =>
    rw [List.getElem?_eq_none_iff.mpr (Nat.not_lt.mp above)]
    constructor
    · intro last
      obtain ⟨small,same⟩ := List.getElem?_eq_some_iff.mp last
      rw [List.length_singleton] at small
      have position : position = roster.places.length := by omega
      subst position
      exact .inr ⟨rfl,by simpa using same.symm⟩
    · rintro (nothing | ⟨rfl,rfl⟩)
      · cases nothing
      · simp

end Roster

end FleetosControl.Allocation
