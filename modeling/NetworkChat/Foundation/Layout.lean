import Mathlib.Data.List.Basic
import Mathlib.Tactic.Ring

/-!
# Values of fixed size as bytes

A `FixedLayout` is the object representation of a type of fixed size: every
value has one list of bytes of the type's size, and reading these bytes gives the
value back. Words are laid out with the least significant byte first.

Reading is total on byte lists, as copying bytes into an object is. `FullLayout`
marks the types for which every list of the right length is the representation
of some value, so that reading and writing are inverse both ways.
-/

set_option autoImplicit false

namespace NetworkChat.Foundation

/-! ## Little-endian digits -/

/-- The lowest `count` bytes of a number, the least significant first. -/
def littleEndian : ℕ → ℕ → List UInt8
  | 0, _ => []
  | count + 1, value => UInt8.ofNat (value % 256) :: littleEndian count (value / 256)

/-- The number whose bytes are listed, the least significant first. -/
def fromLittleEndian : List UInt8 → ℕ
  | [] => 0
  | byte :: bytes => byte.toNat + 256 * fromLittleEndian bytes

@[simp] theorem length_littleEndian (count value : ℕ) :
    (littleEndian count value).length = count := by
  induction count generalizing value with
  | zero => rfl
  | succ count ih => simp only [littleEndian, List.length_cons, ih]

/-- Reading the lowest bytes of a number gives its remainder. -/
theorem fromLittleEndian_littleEndian (count value : ℕ) :
    fromLittleEndian (littleEndian count value) = value % 256 ^ count := by
  induction count generalizing value with
  | zero => simp only [littleEndian, fromLittleEndian, pow_zero, Nat.mod_one]
  | succ count ih =>
      have low : (UInt8.ofNat (value % 256)).toNat = value % 256 := by
        rw [UInt8.toNat_ofNat']
        omega
      rw [littleEndian, fromLittleEndian, ih, low, pow_succ', Nat.mod_mul]

theorem fromLittleEndian_lt (bytes : List UInt8) :
    fromLittleEndian bytes < 256 ^ bytes.length := by
  induction bytes with
  | nil => simp only [fromLittleEndian, List.length_nil, pow_zero, Nat.zero_lt_one]
  | cons byte bytes ih =>
      have low := byte.toNat_lt
      rw [fromLittleEndian, List.length_cons, pow_succ']
      omega

/-- A list of bytes is the representation of the number it stands for. -/
theorem littleEndian_fromLittleEndian (bytes : List UInt8) :
    littleEndian bytes.length (fromLittleEndian bytes) = bytes := by
  induction bytes with
  | nil => rfl
  | cons byte bytes ih =>
      have low := byte.toNat_lt
      have digit : (byte.toNat + 256 * fromLittleEndian bytes) % 256 = byte.toNat := by omega
      have rest : (byte.toNat + 256 * fromLittleEndian bytes) / 256 =
          fromLittleEndian bytes := by omega
      rw [List.length_cons, fromLittleEndian, littleEndian, digit, rest, ih]
      simp only [UInt8.ofNat_toNat]

/-! ## Layouts -/

/-- The object representation of a type of fixed size. -/
class FixedLayout (Value : Type*) where
  /-- The size of every value in bytes. -/
  size : ℕ
  toBytes : Value → List UInt8
  ofBytes : List UInt8 → Value
  length_toBytes : ∀ value, (toBytes value).length = size
  ofBytes_toBytes : ∀ value, ofBytes (toBytes value) = value

/-- A layout that uses every list of bytes of its size. -/
class FullLayout (Value : Type*) extends FixedLayout Value where
  toBytes_ofBytes : ∀ bytes : List UInt8, bytes.length = size →
    toBytes (ofBytes bytes) = bytes

export FixedLayout (toBytes ofBytes)

attribute [simp] FixedLayout.length_toBytes FixedLayout.ofBytes_toBytes

instance : FullLayout UInt32 where
  size := 4
  toBytes word := littleEndian 4 word.toNat
  ofBytes bytes := UInt32.ofNat (fromLittleEndian bytes)
  length_toBytes word := length_littleEndian 4 word.toNat
  ofBytes_toBytes word := by
    rw [fromLittleEndian_littleEndian, Nat.mod_eq_of_lt (by simpa using word.toNat_lt)]
    exact UInt32.ofNat_toNat
  toBytes_ofBytes bytes length := by
    have bound := fromLittleEndian_lt bytes
    rw [length] at bound
    rw [UInt32.toNat_ofNat', Nat.mod_eq_of_lt (by simpa using bound), ← length]
    exact littleEndian_fromLittleEndian bytes

instance : FullLayout UInt64 where
  size := 8
  toBytes word := littleEndian 8 word.toNat
  ofBytes bytes := UInt64.ofNat (fromLittleEndian bytes)
  length_toBytes word := length_littleEndian 8 word.toNat
  ofBytes_toBytes word := by
    rw [fromLittleEndian_littleEndian, Nat.mod_eq_of_lt (by simpa using word.toNat_lt)]
    exact UInt64.ofNat_toNat
  toBytes_ofBytes bytes length := by
    have bound := fromLittleEndian_lt bytes
    rw [length] at bound
    rw [UInt64.toNat_ofNat', Nat.mod_eq_of_lt (by simpa using bound), ← length]
    exact littleEndian_fromLittleEndian bytes

/-- A type in bijection with a laid out type shares its layout. -/
@[reducible] def FullLayout.transport {Value Word : Type*} [FullLayout Word] (toWord : Value → Word)
    (ofWord : Word → Value) (ofWord_toWord : ∀ value, ofWord (toWord value) = value)
    (toWord_ofWord : ∀ word, toWord (ofWord word) = word) : FullLayout Value where
  size := FixedLayout.size Word
  toBytes value := toBytes (toWord value)
  ofBytes bytes := ofWord (ofBytes bytes)
  length_toBytes value := FixedLayout.length_toBytes (toWord value)
  ofBytes_toBytes value := by rw [FixedLayout.ofBytes_toBytes, ofWord_toWord]
  toBytes_ofBytes bytes length := by
    rw [toWord_ofWord, FullLayout.toBytes_ofBytes bytes length]

instance : FullLayout Int32 :=
  .transport Int32.toUInt32 UInt32.toInt32 Int32.toInt32_toUInt32 UInt32.toUInt32_toInt32

instance : FullLayout Int64 :=
  .transport Int64.toUInt64 UInt64.toInt64 Int64.toInt64_toUInt64 UInt64.toUInt64_toInt64

/-- Two members one after the other, with no padding between or after them. -/
instance {First Second : Type*} [FullLayout First] [FullLayout Second] :
    FullLayout (First × Second) where
  size := FixedLayout.size First + FixedLayout.size Second
  toBytes pair := toBytes pair.1 ++ toBytes pair.2
  ofBytes bytes := (ofBytes (bytes.take (FixedLayout.size First)),
    ofBytes (bytes.drop (FixedLayout.size First)))
  length_toBytes pair := by simp only [List.length_append, FixedLayout.length_toBytes]
  ofBytes_toBytes pair := by
    rw [List.take_left' (FixedLayout.length_toBytes pair.1),
      List.drop_left' (FixedLayout.length_toBytes pair.1), FixedLayout.ofBytes_toBytes,
      FixedLayout.ofBytes_toBytes]
  toBytes_ofBytes bytes length := by
    have first : (bytes.take (FixedLayout.size First)).length = FixedLayout.size First := by
      rw [List.length_take]
      omega
    have second : (bytes.drop (FixedLayout.size First)).length = FixedLayout.size Second := by
      rw [List.length_drop]
      omega
    rw [FullLayout.toBytes_ofBytes _ first, FullLayout.toBytes_ofBytes _ second,
      List.take_append_drop]

@[simp] theorem size_uint32 : FixedLayout.size UInt32 = 4 := rfl

@[simp] theorem size_uint64 : FixedLayout.size UInt64 = 8 := rfl

@[simp] theorem size_int32 : FixedLayout.size Int32 = 4 := rfl

@[simp] theorem size_int64 : FixedLayout.size Int64 = 8 := rfl

end NetworkChat.Foundation
