import Mathlib.Data.Nat.Log
import Mathlib.Tactic.Ring
import Std.Data.ExtTreeSet
import Std.Data.String.ToNat
import FleetosControl.Lib.KeyValue

/-! Byte strings: fixed-width integers, codecs that read their value back from the front of any byte
string, and texts joined by a separator. -/
namespace FleetosControl.Wire

abbrev Bytes := List UInt8

def leBytes : Nat → Nat → Bytes
  | 0, _ => []
  | width+1, n => UInt8.ofNat n :: leBytes width (n / 256)

def leNat : Bytes → Nat
  | [] => 0
  | byte::rest => byte.toNat + 256 * leNat rest

@[simp] theorem leBytes_length (width n : Nat) : (leBytes width n).length = width := by
  induction width generalizing n with
  | zero => rfl
  | succ width ih => simp [leBytes,ih]

theorem leNat_leBytes (width n : Nat) : leNat (leBytes width n) = n % 256^width := by
  induction width generalizing n with
  | zero => simp [leBytes,leNat,Nat.mod_one]
  | succ width ih =>
    have whole : 256^(width+1) = 256 * 256^width := by rw [Nat.pow_succ,Nat.mul_comm]
    have digit : (UInt8.ofNat n).toNat = n % 256 := UInt8.toNat_ofNat'
    rw [whole,Nat.mod_mul]
    simp only [leBytes,leNat,ih,digit]

def beBytes (width n : Nat) : Bytes := (leBytes width n).reverse

theorem beBytes_injective {width n m : Nat} (left : n < 256^width) (right : m < 256^width)
    (same : beBytes width n = beBytes width m) : n = m := by
  have bytes := congrArg leNat (List.reverse_inj.mp same)
  rwa [leNat_leBytes,leNat_leBytes,Nat.mod_eq_of_lt left,Nat.mod_eq_of_lt right] at bytes

def u64le (value : UInt64) : Bytes := leBytes 8 value.toNat

/-- `u64::from_le_bytes` behind the length check of `try_into`. -/
def u64ofLe (bytes : Bytes) : Option UInt64 :=
  if bytes.length = 8 then some (UInt64.ofNat (leNat bytes)) else none

@[simp] theorem u64ofLe_u64le (value : UInt64) : u64ofLe (u64le value) = some value := by
  have bound : value.toNat < 256^8 := value.toNat_lt
  rw [u64ofLe,u64le,leBytes_length,if_pos rfl,leNat_leBytes,Nat.mod_eq_of_lt bound,UInt64.ofNat_toNat]

def u64be (value : UInt64) : Bytes := beBytes 8 value.toNat

variable {left right : UInt64}

theorem u64be_injective (same : u64be left = u64be right) : left = right :=
  UInt64.toNat_inj.mp (beBytes_injective left.toNat_lt right.toNat_lt same)

@[simp] theorem u64be_inj : u64be left = u64be right ↔ left = right := ⟨u64be_injective,congrArg u64be⟩

theorem compareLex_snoc {α : Type} (cmp : α → α → Ordering) (xs ys : List α) (x y : α) (same : xs.length = ys.length) :
    List.compareLex cmp (xs ++ [x]) (ys ++ [y]) = (List.compareLex cmp xs ys).then (cmp x y) := by
  induction xs generalizing ys with
  | nil =>
    obtain rfl := List.eq_nil_of_length_eq_zero same.symm
    simp [List.compareLex_cons_cons,List.compareLex_nil_nil]
  | cons first xs ih =>
    cases ys with
    | nil => simp at same
    | cons other ys =>
      simp only [List.cons_append,List.compareLex_cons_cons,ih ys (by simpa using same)]
      cases cmp first other <;> rfl

theorem compare_byte (n m : Nat) : compare (UInt8.ofNat n) (UInt8.ofNat m) = compare (n % 256) (m % 256) := by
  simp [UInt8.compare_eq_toNat_compare_toNat]

theorem compare_divMod (n m : Nat) :
    (compare (n / 256) (m / 256)).then (compare (n % 256) (m % 256)) = compare n m := by
  simp only [Nat.compare_eq_ite_lt]
  split_ifs <;> first | rfl | omega

theorem compare_beBytes (width n m : Nat) (left : n < 256^width) (right : m < 256^width) :
    compare (beBytes width n) (beBytes width m) = compare n m := by
  induction width generalizing n m with
  | zero =>
    obtain rfl : n = 0 := by simpa using left
    obtain rfl : m = 0 := by simpa using right
    rfl
  | succ width ih =>
    have smaller : ∀ k, k < 256^(width+1) → k / 256 < 256^width := by
      intro k bound
      rw [Nat.div_lt_iff_lt_mul (by omega)]
      rwa [Nat.pow_succ] at bound
    have digits : ∀ k, beBytes (width+1) k = beBytes width (k / 256) ++ [UInt8.ofNat k] := by
      intro k
      simp [beBytes,leBytes]
    have high := ih (n / 256) (m / 256) (smaller n left) (smaller m right)
    rw [List.compare_eq_compareLex] at high ⊢
    rw [digits,digits,compareLex_snoc _ _ _ _ _ (by simp [beBytes]),high,compare_byte,compare_divMod]

theorem compare_u64be (left right : UInt64) : compare (u64be left) (u64be right) = compare left right := by
  rw [u64be,u64be,compare_beBytes 8 _ _ left.toNat_lt right.toNat_lt,UInt64.compare_eq_toNat_compare_toNat]

structure Codec (α : Type) where
  encode : α → Bytes
  decode : Bytes → Option (α × Bytes)
  decode_encode : ∀ value rest, decode (encode value ++ rest) = some (value,rest)

namespace Codec
variable {α β : Type}

attribute [simp] decode_encode

/-- Seven bits a byte, low bits first, the high bit set on all bytes but the last. -/
def varintFuel : Nat → Nat → Bytes
  | 0, _ => []
  | fuel+1, n => if n < 128 then [UInt8.ofNat n] else UInt8.ofNat (n % 128 + 128) :: varintFuel fuel (n / 128)

def varintRead : Bytes → Option (Nat × Bytes)
  | [] => none
  | byte::rest =>
    if byte.toNat < 128 then some (byte.toNat,rest)
    else (varintRead rest).map fun (n,rest) => (byte.toNat - 128 + 128 * n,rest)

theorem varintRead_varintFuel (fuel n : Nat) (enough : n < 128^(fuel+1)) (rest : Bytes) :
    varintRead (varintFuel (fuel+1) n ++ rest) = some (n,rest) := by
  induction fuel generalizing n with
  | zero =>
    have small : n < 128 := by simpa using enough
    have byte : (UInt8.ofNat n).toNat = n := by rw [UInt8.toNat_ofNat']; omega
    simp [varintFuel,small,varintRead,byte]
  | succ fuel ih =>
    by_cases small : n < 128
    · have byte : (UInt8.ofNat n).toNat = n := by rw [UInt8.toNat_ofNat']; omega
      simp [varintFuel,small,varintRead,byte]
    · have smaller : n / 128 < 128^(fuel+1) := by
        rw [Nat.div_lt_iff_lt_mul (by omega)]
        rwa [Nat.pow_succ] at enough
      have byte : (UInt8.ofNat (n % 128 + 128)).toNat = n % 128 + 128 := by
        rw [UInt8.toNat_ofNat']; omega
      have large : ¬ n % 128 + 128 < 128 := by omega
      rw [varintFuel,if_neg small,List.cons_append,varintRead,byte,if_neg large,ih _ smaller]
      simp only [Option.map_some,Option.some.injEq,Prod.mk.injEq,and_true]
      omega

theorem varintFuel_length (fuel width n : Nat) (fits : n < 128^(width+1)) : (varintFuel fuel n).length ≤ width+1 := by
  induction fuel generalizing n width with
  | zero => simp [varintFuel]
  | succ fuel ih =>
    by_cases small : n < 128
    · simp [varintFuel,small]
    · cases width with
      | zero => simp at fits; omega
      | succ width =>
        have smaller : n / 128 < 128^(width+1) := by
          rw [Nat.div_lt_iff_lt_mul (by omega)]
          rwa [Nat.pow_succ] at fits
        have shorter := ih width (n / 128) smaller
        simp [varintFuel,small]
        omega

theorem lt_varint_fuel (n : Nat) : n < 128^(Nat.log2 n + 1) :=
  calc n < 2^(Nat.log2 n + 1) := Nat.lt_log2_self
    _ ≤ 128^(Nat.log2 n + 1) := Nat.pow_le_pow_left (by omega) _

def varint : Codec Nat where
  encode n := varintFuel (Nat.log2 n + 1) n
  decode := varintRead
  decode_encode n rest := varintRead_varintFuel _ n (lt_varint_fuel n) rest

/-- Reads through a partial inverse: an encoding of `β` by its image in `α`. -/
def retract (codec : Codec α) (into : β → α) (back : α → Option β)
    (inverse : ∀ value, back (into value) = some value) : Codec β where
  encode value := codec.encode (into value)
  decode bytes := do
    let (image,rest) ← codec.decode bytes
    let value ← back image
    pure (value,rest)
  decode_encode value rest := by simp [inverse]

def iso (codec : Codec α) (into : β → α) (back : α → β) (inverse : ∀ value, back (into value) = value) : Codec β :=
  codec.retract into (fun image => some (back image)) (fun value => congrArg some (inverse value))

def empty : Codec Unit where
  encode _ := []
  decode bytes := some ((),bytes)
  decode_encode _ _ := rfl

def byte : Codec UInt8 where
  encode value := [value]
  decode
    | [] => none
    | value::rest => some (value,rest)
  decode_encode _ _ := rfl

/-- An unsigned integer below `limit`, in at most `width` varint bytes. -/
def unsigned (limit width : Nat) (fits : limit ≤ 128^(width+1)) : Codec {n : Nat // n < limit} where
  encode value := varint.encode value.1
  decode bytes := do
    let (n,rest) ← varintRead bytes
    if bound : n < limit then
      if bytes.length ≤ rest.length + (width+1) then some (⟨n,bound⟩,rest) else none
    else none
  decode_encode value rest := by
    have read := varint.decode_encode value.1 rest
    have short := varintFuel_length (Nat.log2 value.1 + 1) width value.1 (lt_of_lt_of_le value.2 fits)
    change varintRead (varint.encode value.1 ++ rest) = _ at read
    change (varint.encode value.1).length ≤ width+1 at short
    simp only [read,Option.bind_eq_bind,Option.bind_some,value.2,dite_true,List.length_append]
    rw [if_pos (by omega)]

def u16 : Codec UInt16 :=
  (unsigned (2^16) 2 (by decide)).iso (fun value => ⟨value.toNat,value.toNat_lt⟩) (fun n => UInt16.ofNat n.1) (by simp)

def u32 : Codec UInt32 :=
  (unsigned (2^32) 4 (by decide)).iso (fun value => ⟨value.toNat,value.toNat_lt⟩) (fun n => UInt32.ofNat n.1) (by simp)

def u64 : Codec UInt64 :=
  (unsigned (2^64) 9 (by decide)).iso (fun value => ⟨value.toNat,value.toNat_lt⟩) (fun n => UInt64.ofNat n.1) (by simp)

/-- Signed integers alternate around zero: 0, -1, 1, -2, 2, ... -/
def zigzag (value : Int) : Nat := if 0 ≤ value then 2 * value.toNat else 2 * (-value - 1).toNat + 1

def unzigzag (n : Nat) : Int := if n % 2 = 0 then (n / 2 : Nat) else -((n / 2 : Nat) : Int) - 1

theorem unzigzag_zigzag (value : Int) : unzigzag (zigzag value) = value := by
  unfold unzigzag zigzag
  split_ifs <;> omega

theorem zigzag_lt (value : Int64) : zigzag value.toInt < 2^64 := by
  have low := value.le_toInt
  have high := value.toInt_lt
  unfold zigzag
  split_ifs <;> omega

def i64 : Codec Int64 :=
  (unsigned (2^64) 9 (by decide)).iso (fun value => ⟨zigzag value.toInt,zigzag_lt value⟩)
    (fun n => Int64.ofInt (unzigzag n.1)) (by simp [unzigzag_zigzag])

def bool : Codec Bool :=
  byte.retract (fun value => if value then 1 else 0)
    (fun b => if b = 0 then some false else if b = 1 then some true else none) (by decide)

def pair (first : Codec α) (second : Codec β) : Codec (α × β) where
  encode value := first.encode value.1 ++ second.encode value.2
  decode bytes := do
    let (left,rest) ← first.decode bytes
    let (right,rest) ← second.decode rest
    pure ((left,right),rest)
  decode_encode value rest := by simp [List.append_assoc]

def option (codec : Codec α) : Codec (Option α) where
  encode
    | none => [0]
    | some value => 1 :: codec.encode value
  decode
    | 0::rest => some (none,rest)
    | 1::rest => (codec.decode rest).map fun (value,rest) => (some value,rest)
    | _ => none
  decode_encode value rest := by cases value <;> simp

def readMany (codec : Codec α) : Nat → Bytes → Option (List α × Bytes)
  | 0, bytes => some ([],bytes)
  | count+1, bytes => do
    let (value,rest) ← codec.decode bytes
    let (values,rest) ← readMany codec count rest
    pure (value::values,rest)

theorem readMany_flatMap (codec : Codec α) (values : List α) (rest : Bytes) :
    readMany codec values.length (values.flatMap codec.encode ++ rest) = some (values,rest) := by
  induction values with
  | nil => rfl
  | cons value values ih => simp [readMany,List.append_assoc,ih]

def list (codec : Codec α) : Codec (List α) where
  encode values := varint.encode values.length ++ values.flatMap codec.encode
  decode bytes := do
    let (count,rest) ← varint.decode bytes
    readMany codec count rest
  decode_encode values rest := by
    simp [List.append_assoc,readMany_flatMap]

def bytes : Codec Bytes := list byte

def string : Codec String :=
  bytes.retract (fun text => text.toByteArray.data.toList) (fun raw => String.fromUTF8? ⟨raw.toArray⟩) (by
    intro text
    have valid : (⟨text.toByteArray.data.toList.toArray⟩ : ByteArray) = text.toByteArray := by simp
    rw [valid]
    simp only [String.fromUTF8?,text.isValidUTF8,dite_true]
    rfl)

def enumeration (index : α → Nat) (variant : Nat → Option α)
    (inverse : ∀ value, variant (index value) = some value) : Codec α :=
  varint.retract index variant inverse

def variant (codec : Codec α) (make : α → β) (bytes : Bytes) : Option (β × Bytes) :=
  (codec.decode bytes).map fun (value,rest) => (make value,rest)

theorem variant_encode (codec : Codec α) (make : α → β) (value : α) (rest : Bytes) :
    codec.variant make (codec.encode value ++ rest) = some (make value,rest) := by
  simp [variant]

def tagged (index : α → Nat) (payload : α → Bytes) (read : Nat → Bytes → Option (α × Bytes))
    (inverse : ∀ value rest, read (index value) (payload value ++ rest) = some (value,rest)) : Codec α where
  encode value := varint.encode (index value) ++ payload value
  decode bytes := do
    let (tag,rest) ← varint.decode bytes
    read tag rest
  decode_encode value rest := by simp [List.append_assoc,inverse]

def sortedSet {κ : Type} {cmp : κ → κ → Ordering} [Std.TransCmp cmp] [Std.LawfulEqCmp cmp] (key : Codec κ) :
    Codec (Std.ExtTreeSet κ cmp) :=
  (list key).iso (fun set => set.toList) (fun keys => Std.ExtTreeSet.ofList keys cmp) (by
    classical
    intro set
    apply Std.ExtTreeSet.ext_mem
    intro key
    rw [Std.ExtTreeSet.mem_ofList,List.contains_iff_mem,Std.ExtTreeSet.mem_toList])

def sortedMap {κ ν : Type} {cmp : κ → κ → Ordering} [Std.TransCmp cmp] [Std.LawfulEqCmp cmp]
    (key : Codec κ) (value : Codec ν) : Codec (Std.ExtTreeMap κ ν cmp) :=
  (list (key.pair value)).iso (fun map => map.toList) (fun entries => Std.ExtTreeMap.ofList entries cmp) (by
    intro map
    rw [Std.ExtTreeMap.ofList_eq_insertMany_empty,KeyValue.insertMany_toList])

end Codec

end FleetosControl.Wire

namespace FleetosControl.Separated

variable {α : Type} {separator : α} {first second left right : List α}

/-- One text is cut at an earlier separator: what lies between the two cuts moves across. -/
def Shifted (separator : α) (first second left right : List α) : Prop :=
  ∃ between, left = first ++ separator::between ∧ second = between ++ separator::right

theorem join_eq_iff : first ++ separator::second = left ++ separator::right ↔
    (first = left ∧ second = right) ∨ Shifted separator first second left right ∨
      Shifted separator left right first second := by
  constructor
  · intro same
    rcases List.append_eq_append_iff.mp same with ⟨rest,longer,tail⟩ | ⟨rest,longer,tail⟩
    · cases rest with
      | nil =>
        obtain ⟨_,rfl⟩ := List.cons.inj tail
        exact .inl ⟨by simpa using longer.symm,rfl⟩
      | cons head between =>
        obtain ⟨rfl,rfl⟩ := List.cons.inj tail
        exact .inr (.inl ⟨between,longer,rfl⟩)
    · cases rest with
      | nil =>
        obtain ⟨_,rfl⟩ := List.cons.inj tail
        exact .inl ⟨by simpa using longer,rfl⟩
      | cons head between =>
        obtain ⟨rfl,rfl⟩ := List.cons.inj tail
        exact .inr (.inr ⟨between,longer,rfl⟩)
  · rintro (⟨rfl,rfl⟩ | ⟨between,rfl,rfl⟩ | ⟨between,rfl,rfl⟩)
    · rfl
    · simp
    · simp

/-- Cut at the last separator, a text has one reading. -/
theorem join_inj_last (absent : separator ∉ second) (missing : separator ∉ right) :
    first ++ separator::second = left ++ separator::right ↔ first = left ∧ second = right := by
  rw [join_eq_iff]
  constructor
  · rintro (same | ⟨between,_,rfl⟩ | ⟨between,_,rfl⟩)
    · exact same
    · simp at absent
    · simp at missing
  · exact .inl

/-- Cut at the first separator, a text has one reading. -/
theorem join_inj_first (absent : separator ∉ first) (missing : separator ∉ left) :
    first ++ separator::second = left ++ separator::right ↔ first = left ∧ second = right := by
  rw [join_eq_iff]
  constructor
  · rintro (same | ⟨between,rfl,_⟩ | ⟨between,rfl,_⟩)
    · exact same
    · simp at missing
    · simp at absent
  · exact .inl

theorem not_mem_repr {letter : Char} (other : letter.isDigit = false) (n : Nat) : letter ∉ n.repr.toList := by
  intro member
  have digit : letter.isDigit = true := by
    apply Nat.isDigit_of_mem_toDigits (b := 10) (n := n) (by decide) (by decide)
    rw [← Nat.toList_repr]
    exact member
  rw [other] at digit
  cases digit

theorem dash_not_mem_repr (n : Nat) : '-' ∉ n.repr.toList := not_mem_repr (by decide) n

theorem toString_int_inj {left right : Int} : toString left = toString right ↔ left = right := by
  have negative (n : Nat) : (toString (Int.negSucc n)).toList = '-' :: (n + 1).repr.toList := by
    have text : toString (Int.negSucc n) = "-" ++ (n + 1).repr := rfl
    rw [text,String.toList_append]
    rfl
  have unsigned (m n : Nat) : toString (Int.ofNat m) ≠ toString (Int.negSucc n) := by
    intro same
    apply dash_not_mem_repr m
    have texts : (toString (Int.ofNat m)).toList = '-' :: (n + 1).repr.toList := by rw [same,negative]
    exact texts ▸ List.mem_cons_self
  constructor
  · intro same
    cases left with
    | ofNat m =>
      cases right with
      | ofNat n => exact congrArg Int.ofNat (Nat.repr_inj.mp same)
      | negSucc n => exact absurd same (unsigned m n)
    | negSucc m =>
      cases right with
      | ofNat n => exact absurd same.symm (unsigned n m)
      | negSucc n =>
        have texts := congrArg String.toList same
        rw [negative,negative] at texts
        have digits := Nat.repr_inj.mp (String.toList_inj.mp (List.cons.inj texts).2)
        exact congrArg Int.negSucc (by omega)
  · exact congrArg toString

end FleetosControl.Separated
