import Mathlib.Algebra.Group.Nat.Defs
import Mathlib.Data.List.Basic

namespace Malstrom.Data.MessagePack

/-! Arrays of unsigned integers in MessagePack, every integer in the shortest
form it fits. -/

def bigEndian : Nat → Nat → List UInt8
  | 0, _ => []
  | width + 1, value => UInt8.ofNat (value / 256 ^ width) :: bigEndian width value

def ofBigEndian : List UInt8 → Nat
  | [] => 0
  | byte :: rest => byte.toNat * 256 ^ rest.length + ofBigEndian rest

@[simp] theorem length_bigEndian (width value : Nat) :
    (bigEndian width value).length = width := by
  induction width with
  | zero => rfl
  | succ width ih => simp [bigEndian, ih]

theorem ofBigEndian_bigEndian (width value : Nat) :
    ofBigEndian (bigEndian width value) = value % 256 ^ width := by
  induction width with
  | zero => simp [bigEndian, ofBigEndian, Nat.mod_one]
  | succ width ih =>
      have first : (UInt8.ofNat (value / 256 ^ width)).toNat =
          value / 256 ^ width % 256 := UInt8.toNat_ofNat'
      calc ofBigEndian (bigEndian (width + 1) value)
        _ = value / 256 ^ width % 256 * 256 ^ width + value % 256 ^ width := by
          rw [bigEndian, ofBigEndian, ih, length_bigEndian, first]
        _ = value % 256 ^ width + 256 ^ width * (value / 256 ^ width % 256) := by
          rw [Nat.mul_comm, Nat.add_comm]
        _ = value % 256 ^ (width + 1) := by rw [Nat.pow_succ, Nat.mod_mul]

/-- `bytes` are the big-endian form of a number of that width. -/
def takeBigEndian (width : Nat) (bytes : List UInt8) : Option (Nat × List UInt8) :=
  if bytes.length < width then none
  else some (ofBigEndian (bytes.take width), bytes.drop width)

theorem takeBigEndian_append (width value : Nat) (rest : List UInt8) :
    takeBigEndian width (bigEndian width value ++ rest) =
      some (value % 256 ^ width, rest) := by
  have long : ¬ (bigEndian width value ++ rest).length < width := by simp
  rw [takeBigEndian, if_neg long, List.take_left' (length_bigEndian width value),
    List.drop_left' (length_bigEndian width value), ofBigEndian_bigEndian]

theorem takeBigEndian_of_lt {width value : Nat} (fits : value < 256 ^ width)
    (rest : List UInt8) :
    takeBigEndian width (bigEndian width value ++ rest) = some (value, rest) := by
  rw [takeBigEndian_append, Nat.mod_eq_of_lt fits]

def writeUInt (value : UInt64) : List UInt8 :=
  if value.toNat < 0x80 then [UInt8.ofNat value.toNat]
  else if value.toNat < 256 ^ 1 then 0xcc :: bigEndian 1 value.toNat
  else if value.toNat < 256 ^ 2 then 0xcd :: bigEndian 2 value.toNat
  else if value.toNat < 256 ^ 4 then 0xce :: bigEndian 4 value.toNat
  else 0xcf :: bigEndian 8 value.toNat

def readUInt : List UInt8 → Option (UInt64 × List UInt8)
  | [] => none
  | marker :: rest =>
      let sized width := (takeBigEndian width rest).map fun (value, rest) =>
        (UInt64.ofNat value, rest)
      if marker.toNat < 0x80 then some (UInt64.ofNat marker.toNat, rest)
      else if marker = 0xcc then sized 1
      else if marker = 0xcd then sized 2
      else if marker = 0xce then sized 4
      else if marker = 0xcf then sized 8
      else none

theorem readUInt_writeUInt (value : UInt64) (rest : List UInt8) :
    readUInt (writeUInt value ++ rest) = some (value, rest) := by
  have bound : value.toNat < 256 ^ 8 := value.toNat_lt
  unfold writeUInt
  split
  next fixint =>
    have same : (UInt8.ofNat value.toNat).toNat = value.toNat := by
      rw [UInt8.toNat_ofNat']
      omega
    simp only [List.singleton_append, readUInt, same, if_pos fixint,
      UInt64.ofNat_toNat]
  next =>
    split
    next small => simp [readUInt, takeBigEndian_of_lt small]
    next =>
      split
      next small => simp [readUInt, takeBigEndian_of_lt small]
      next =>
        split
        next small => simp [readUInt, takeBigEndian_of_lt small]
        next => simp [readUInt, takeBigEndian_of_lt bound]

def readUInts : Nat → List UInt8 → Option (List UInt64)
  | _, [] => some []
  | 0, _ :: _ => none
  | fuel + 1, byte :: bytes => do
      let (value, rest) ← readUInt (byte :: bytes)
      let values ← readUInts fuel rest
      return value :: values

theorem writeUInt_ne_nil (value : UInt64) : writeUInt value ≠ [] := by
  unfold writeUInt
  split
  · simp
  · split
    · simp
    · split
      · simp
      · split <;> simp

theorem readUInts_writeUInt {fuel : Nat} {values : List UInt64}
    (enough : values.length ≤ fuel) :
    readUInts fuel (values.flatMap writeUInt) = some values := by
  induction values generalizing fuel with
  | nil => cases fuel <;> rfl
  | cons value values ih =>
      cases fuel with
      | zero => simp at enough
      | succ fuel =>
          have read := readUInt_writeUInt value (values.flatMap writeUInt)
          have later := ih (Nat.le_of_succ_le_succ enough)
          rw [List.flatMap_cons]
          cases written : writeUInt value ++ values.flatMap writeUInt with
          | nil =>
              exact absurd (List.append_eq_nil_iff.mp written).1
                (writeUInt_ne_nil value)
          | cons byte bytes =>
              rw [written] at read
              simp [readUInts, read, later]

theorem length_le_writeUInts (values : List UInt64) :
    values.length ≤ (values.flatMap writeUInt).length := by
  induction values with
  | nil => exact Nat.le_refl 0
  | cons value values ih =>
      have some := List.length_pos_iff.mpr (writeUInt_ne_nil value)
      rw [List.flatMap_cons, List.length_append, List.length_cons]
      omega

def writeLength (length : Nat) : List UInt8 :=
  if length < 0x10 then [UInt8.ofNat (0x90 + length)]
  else if length < 256 ^ 2 then 0xdc :: bigEndian 2 length
  else 0xdd :: bigEndian 4 length

def readLength : List UInt8 → Option (Nat × List UInt8)
  | [] => none
  | marker :: rest =>
      if 0x90 ≤ marker.toNat ∧ marker.toNat < 0xa0 then
        some (marker.toNat - 0x90, rest)
      else if marker = 0xdc then takeBigEndian 2 rest
      else if marker = 0xdd then takeBigEndian 4 rest
      else none

theorem readLength_writeLength (length : Nat) (rest : List UInt8) :
    readLength (writeLength length ++ rest) = some (length % 256 ^ 4, rest) := by
  unfold writeLength
  split
  next short =>
    have same : (UInt8.ofNat (0x90 + length)).toNat = 0x90 + length := by
      rw [UInt8.toNat_ofNat']
      omega
    have isShort : 0x90 ≤ 0x90 + length ∧ 0x90 + length < 0xa0 := by omega
    have within : length % 256 ^ 4 = length := Nat.mod_eq_of_lt (by omega)
    simp only [List.singleton_append, readLength, same, if_pos isShort,
      Nat.add_sub_cancel_left, within]
  next =>
    split
    next medium =>
      have within : length % 256 ^ 4 = length := Nat.mod_eq_of_lt (by omega)
      rw [within]
      exact takeBigEndian_of_lt medium rest
    next => simp [readLength, takeBigEndian_append]

def writeArray (values : List UInt64) : List UInt8 :=
  writeLength values.length ++ values.flatMap writeUInt

/-- The length is written with 32 bits at most. -/
def readArray (bytes : List UInt8) : Option (List UInt64) := do
  let (length, rest) ← readLength bytes
  let values ← readUInts rest.length rest
  if values.length % 256 ^ 4 = length then return values else none

theorem readArray_writeArray (values : List UInt64) :
    readArray (writeArray values) = some values := by
  have read := readUInts_writeUInt (length_le_writeUInts values)
  simp only [readArray, writeArray, readLength_writeLength, Option.bind_eq_bind,
    Option.bind_some, read, if_pos, pure]

end Malstrom.Data.MessagePack
