import Mathlib.Data.List.Basic
import Mathlib.Data.Nat.Basic
import Mathlib.Tactic.Ring

/-!
# Byte slices and fixed-width integers

Indexing a byte slice outside its bounds aborts the program, so every access is
a computation that may panic. Fixed arrays carry their length; integers are laid
out in little-endian order, and `leNat_leBytes` and `leBytes_leNat` are the two
round trips.
-/

namespace WolfNet.Std

/-- Why a computation aborted. -/
inductive Panic where
  | outOfRange
deriving DecidableEq, Repr

/-- A computation that may panic. -/
abbrev Rust (α : Type) := Except Panic α

/-- A computation without a panic goes on. -/
@[simp] theorem Rust.ok_bind {α β : Type} (value : α) (rest : α → Rust β) :
    ((Except.ok value : Rust α) >>= rest) = rest value := rfl

/-- A panic ends a computation. -/
@[simp] theorem Rust.error_bind {α β : Type} (panic : Panic) (rest : α → Rust β) :
    ((Except.error panic : Rust α) >>= rest) = .error panic := rfl

/-- A value is a computation without a panic. -/
@[simp] theorem Rust.pure_eq {α : Type} (value : α) : (pure value : Rust α) = .ok value := rfl

/-- A run of two computations that succeeds passes through a value of the first. -/
theorem Rust.bind_eq_ok {α β : Type} {first : Rust α} {rest : α → Rust β} {result : β} :
    first >>= rest = .ok result ↔ ∃ value, first = .ok value ∧ rest value = .ok result := by
  cases first with
  | ok value => simp
  | error panic => simp

/-- A byte string with proof that its length is `count`. -/
abbrev SizedBytes (count : Nat) := {bytes : List UInt8 // bytes.length = count}

/-- `bytes[position]`. -/
def index (bytes : List UInt8) (position : Nat) : Rust UInt8 :=
  match bytes[position]? with
  | some byte => .ok byte
  | none => .error .outOfRange

/-- `&bytes[start..stop]`. -/
def slice (bytes : List UInt8) (start stop : Nat) : Rust (List UInt8) :=
  if start ≤ stop ∧ stop ≤ bytes.length then .ok ((bytes.take stop).drop start)
  else .error .outOfRange

/-- A fixed array copied out of `&bytes[start..start + count]`. -/
def array (bytes : List UInt8) (start count : Nat) : Rust (SizedBytes count) :=
  if bounded : start + count ≤ bytes.length then
    .ok ⟨(bytes.drop start).take count, by simp; omega⟩
  else .error .outOfRange

/-- `bytes[start..start + source.len()].copy_from_slice(source)`. -/
def copyFromSlice (bytes : List UInt8) (start : Nat) (source : List UInt8) : Rust (List UInt8) :=
  if start + source.length ≤ bytes.length then
    .ok (bytes.take start ++ source ++ bytes.drop (start + source.length))
  else .error .outOfRange

/-- `copy_from_slice` into an array of `count` bytes, which takes a source of its own length. -/
def arrayFrom (count : Nat) (source : List UInt8) : Rust (SizedBytes count) :=
  if sized : source.length = count then .ok ⟨source, sized⟩ else .error .outOfRange

/-- `copyFromSlice` in a buffer of a fixed size. -/
def SizedBytes.store {size : Nat} (buf : SizedBytes size) (start : Nat) (source : List UInt8) :
    Rust (SizedBytes size) :=
  if bounded : start + source.length ≤ size then
    .ok ⟨buf.1.take start ++ source ++ buf.1.drop (start + source.length), by
      simp only [List.length_append, List.length_take, List.length_drop, buf.2]
      omega⟩
  else .error .outOfRange

/-- What a system call that reads `bytes` leaves in a buffer: as many of them as fit. -/
def SizedBytes.fill {size : Nat} (buf : SizedBytes size) (bytes : List UInt8) : SizedBytes size :=
  ⟨bytes.take size ++ buf.1.drop bytes.length, by
    simp only [List.length_append, List.length_take, List.length_drop, buf.2]
    omega⟩

/-- A subtraction of lengths or counters, which must not underflow. -/
def checkedSub (minuend subtrahend : Nat) : Rust Nat :=
  if subtrahend ≤ minuend then .ok (minuend - subtrahend) else .error .outOfRange

/-- An index below the length is in bounds. -/
theorem index_ok {bytes : List UInt8} (position : Nat) (bounded : position < bytes.length) :
    index bytes position = .ok bytes[position] := by
  simp [index, bounded]

/-- A slice within the length is in bounds. -/
theorem slice_ok {bytes : List UInt8} {start stop : Nat} (ordered : start ≤ stop)
    (bounded : stop ≤ bytes.length) :
    slice bytes start stop = .ok ((bytes.take stop).drop start) := by
  simp [slice, ordered, bounded]

/-- A copy that ends within the length is in bounds. -/
theorem copyFromSlice_ok {bytes : List UInt8} {start : Nat} {source : List UInt8}
    (bounded : start + source.length ≤ bytes.length) :
    copyFromSlice bytes start source =
      .ok (bytes.take start ++ source ++ bytes.drop (start + source.length)) := by
  simp [copyFromSlice, bounded]

/-- A subtraction that does not go below zero is fine. -/
theorem checkedSub_ok {minuend subtrahend : Nat} (ordered : subtrahend ≤ minuend) :
    checkedSub minuend subtrahend = .ok (minuend - subtrahend) :=
  if_pos ordered

/-- Reading in front of what follows does not see it. -/
theorem array_append_left {front back : List UInt8} {start count : Nat}
    (bounded : start + count ≤ front.length) :
    array (front ++ back) start count = array front start count := by
  rw [array, dif_pos (by rw [List.length_append]; omega), array, dif_pos bounded]
  congr 2
  rw [List.drop_append_of_le_length (by omega),
    List.take_append_of_le_length (by rw [List.length_drop]; omega)]

/-- A slice of the front is a slice of the whole. -/
theorem slice_append_left {front back : List UInt8} {start stop : Nat} (ordered : start ≤ stop)
    (bounded : stop ≤ front.length) : slice
    (front ++ back) start stop = slice front start stop := by
  rw [slice_ok ordered (by rw [List.length_append]; omega), slice_ok ordered bounded,
    List.take_append_of_le_length bounded]

/-- The slice of a front is that front. -/
theorem slice_front (front back : List UInt8) :
    slice (front ++ back) 0 front.length = .ok front := by
  rw [slice_append_left (Nat.zero_le _) le_rfl, slice_ok (Nat.zero_le _) le_rfl, List.take_length,
    List.drop_zero]

/-- Copying a slice into an array reads the array where the slice is. -/
theorem slice_arrayFrom (bytes : List UInt8) (start count : Nat) :
    slice bytes start (start + count) >>= arrayFrom count = array bytes start count := by
  by_cases bounded : start + count ≤ bytes.length
  · have taken : ((bytes.take (start + count)).drop start).length = count := by
      simp only [List.length_drop, List.length_take]
      omega
    rw [slice_ok (Nat.le_add_right _ _) bounded, Rust.ok_bind, arrayFrom, dif_pos taken, array,
      dif_pos bounded]
    congr 2
    rw [List.drop_take, Nat.add_sub_cancel_left]
  · rw [slice, if_neg (fun held => bounded held.2), array, dif_neg bounded]
    rfl

/-- A store that ends within the buffer keeps its size. -/
theorem SizedBytes.store_ok {size start : Nat} {buf : SizedBytes size} {source : List UInt8}
    (bounded : start + source.length ≤ size) :
    ∃ stored, buf.store start source = .ok stored ∧
      stored.1 = buf.1.take start ++ source ++ buf.1.drop (start + source.length) :=
  ⟨_, dif_pos bounded, rfl⟩

/-- What lies between a front and a back is replaced by as many bytes. -/
theorem SizedBytes.store_append {size start : Nat} {buf : SizedBytes size}
    {front old back source : List UInt8} (contents : buf.1 = front ++ (old ++ back))
    (frontLength : front.length = start) (sameLength : source.length = old.length) :
    ∃ stored, buf.store start source = .ok stored ∧ stored.1 = front ++ (source ++ back) := by
  have whole := buf.2
  simp only [contents, List.length_append] at whole
  obtain ⟨stored, run, value⟩ := @store_ok _ start buf source (by omega)
  refine ⟨stored, run, ?_⟩
  rw [value, contents, ← frontLength, List.take_left, ← List.drop_drop, List.drop_left,
    sameLength, List.drop_left, List.append_assoc]

/-- A fixed array between a front and a back of known lengths. -/
theorem array_append {front back : List UInt8} {start count : Nat} (middle : SizedBytes count)
    (frontLength : front.length = start) :
    array (front ++ (middle.1 ++ back)) start count = .ok middle := by
  have bounded : start + count ≤ (front ++ (middle.1 ++ back)).length := by
    simp only [List.length_append, frontLength, middle.2]
    omega
  have dropped : (front ++ (middle.1 ++ back)).drop start = middle.1 ++ back := by
    rw [← frontLength, List.drop_left]
  rw [array, dif_pos bounded]
  congr 1
  apply Subtype.ext
  simp only [dropped, List.take_append_of_le_length middle.2.ge]
  exact List.take_of_length_le middle.2.le

/-- The `count` low bytes of a number, least significant first. -/
def leBytes : Nat → Nat → List UInt8
  | 0, _ => []
  | count + 1, value => UInt8.ofNat (value % 256) :: leBytes count (value / 256)

/-- The number a little-endian byte string denotes. -/
def leNat : List UInt8 → Nat
  | [] => 0
  | byte :: rest => byte.toNat + 256 * leNat rest

/-- A number is written in as many bytes as it is given. -/
@[simp] theorem length_leBytes (count value : Nat) : (leBytes count value).length = count := by
  induction count generalizing value with
  | zero => rfl
  | succ count ih => simp [leBytes, ih]

/-- Reading back what was written, up to what fits. -/
theorem leNat_leBytes (count value : Nat) : leNat (leBytes count value) = value % 256 ^ count := by
  induction count generalizing value with
  | zero => simp [leBytes, leNat, Nat.mod_one]
  | succ count ih =>
      have low : (UInt8.ofNat (value % 256)).toNat = value % 256 := by
        rw [UInt8.toNat_ofNat']
        omega
      rw [leBytes, leNat, low, ih, Nat.pow_succ, Nat.mul_comm (256 ^ count) 256, Nat.mod_mul]

/-- Writing back what was read. -/
theorem leBytes_leNat (bytes : List UInt8) : leBytes bytes.length (leNat bytes) = bytes := by
  induction bytes with
  | nil => rfl
  | cons byte rest ih =>
      have bound := byte.toNat_lt
      have low : (byte.toNat + 256 * leNat rest) % 256 = byte.toNat := by omega
      have high : (byte.toNat + 256 * leNat rest) / 256 = leNat rest := by omega
      rw [List.length_cons, leBytes, leNat, low, high, ih, UInt8.ofNat_toNat]

/-- Bytes are read as a number below their range. -/
theorem leNat_lt (bytes : List UInt8) : leNat bytes < 256 ^ bytes.length := by
  induction bytes with
  | nil => simp [leNat]
  | cons byte rest ih =>
      have bound := byte.toNat_lt
      rw [leNat, List.length_cons, Nat.pow_succ]
      omega

/-- `u64::to_le_bytes`. -/
def u64ToLeBytes (value : UInt64) : SizedBytes 8 := ⟨leBytes 8 value.toNat, length_leBytes _ _⟩

/-- `u64::from_le_bytes`. -/
def u64FromLeBytes (bytes : SizedBytes 8) : UInt64 := UInt64.ofNat (leNat bytes.1)

/-- `u16::to_le_bytes`. -/
def u16ToLeBytes (value : UInt16) : SizedBytes 2 := ⟨leBytes 2 value.toNat, length_leBytes _ _⟩

/-- `u16::from_le_bytes`. -/
def u16FromLeBytes (bytes : SizedBytes 2) : UInt16 := UInt16.ofNat (leNat bytes.1)

/-- A 64-bit number is read back. -/
@[simp] theorem u64FromLeBytes_toLeBytes (value : UInt64) :
    u64FromLeBytes (u64ToLeBytes value) = value := by
  have bound := value.toNat_lt
  apply UInt64.toNat_inj.mp
  rw [u64FromLeBytes, u64ToLeBytes, leNat_leBytes, UInt64.toNat_ofNat']
  omega

/-- Eight bytes are written back. -/
@[simp] theorem u64ToLeBytes_fromLeBytes (bytes : SizedBytes 8) :
    u64ToLeBytes (u64FromLeBytes bytes) = bytes := by
  have bound := leNat_lt bytes.1
  have whole := leBytes_leNat bytes.1
  rw [bytes.2] at bound whole
  have value : (u64FromLeBytes bytes).toNat = leNat bytes.1 := by
    rw [u64FromLeBytes, UInt64.toNat_ofNat']
    omega
  apply Subtype.ext
  simp only [u64ToLeBytes, value, whole]

/-- A 16-bit number is read back. -/
@[simp] theorem u16FromLeBytes_toLeBytes (value : UInt16) :
    u16FromLeBytes (u16ToLeBytes value) = value := by
  have bound := value.toNat_lt
  apply UInt16.toNat_inj.mp
  rw [u16FromLeBytes, u16ToLeBytes, leNat_leBytes, UInt16.toNat_ofNat']
  omega

/-- Two bytes are written back. -/
@[simp] theorem u16ToLeBytes_fromLeBytes (bytes : SizedBytes 2) :
    u16ToLeBytes (u16FromLeBytes bytes) = bytes := by
  have bound := leNat_lt bytes.1
  have whole := leBytes_leNat bytes.1
  rw [bytes.2] at bound whole
  have value : (u16FromLeBytes bytes).toNat = leNat bytes.1 := by
    rw [u16FromLeBytes, UInt16.toNat_ofNat']
    omega
  apply Subtype.ext
  simp only [u16ToLeBytes, value, whole]

/-- Different 64-bit numbers are written differently. -/
theorem u64ToLeBytes_injective : Function.Injective u64ToLeBytes :=
  Function.LeftInverse.injective u64FromLeBytes_toLeBytes

end WolfNet.Std
