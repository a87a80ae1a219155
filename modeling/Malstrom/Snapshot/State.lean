import Mathlib.Data.Fintype.Card
import Malstrom.Types

namespace Malstrom.Snapshot

open Data

variable {S : Type}

/-! The state of an operator as bytes. -/

structure Codec (S : Type) where
  toVec : S → Bytes
  fromSlice : Bytes → Option S
  faithful : ∀ state, fromSlice (toVec state) = some state

inductive StatePanic where
  | deserializing
  deriving DecidableEq

/-- MessagePack's `nil`, which is how an absent value is written. -/
def nil : Bytes := [0xc0]

namespace Codec

def serializeState (codec : Codec S) (state : S) : Bytes := codec.toVec state

def deserializeState (codec : Codec S) (bytes : Bytes) : Except StatePanic S :=
  match codec.fromSlice bytes with
  | some state => .ok state
  | none => .error .deserializing

/-- The state which was persisted for an operator, if any was. -/
def loadState (codec : Codec S) (persisted : Option Bytes) :
    Except StatePanic (Option S) :=
  match persisted with
  | none => .ok none
  | some bytes =>
      match codec.deserializeState bytes with
      | .ok state => .ok (some state)
      | .error panic => .error panic

/-- A value which may be absent is written as it is, or as `nil`. -/
def serializeOption (codec : Codec S) : Option S → Bytes
  | none => nil
  | some state => codec.serializeState state

@[simp] theorem loadState_none (codec : Codec S) :
    codec.loadState none = .ok none := rfl

@[simp] theorem loadState_serializeState (codec : Codec S) (state : S) :
    codec.loadState (some (codec.serializeState state)) = .ok (some state) := by
  simp [loadState, deserializeState, serializeState, codec.faithful]

theorem loadState_nil {codec : Codec S} (notNil : codec.fromSlice nil = none) :
    codec.loadState (some nil) = .error .deserializing := by
  simp [loadState, deserializeState, notNil]

end Codec

/-- An unsigned byte: a positive fixint or a `uint 8`. -/
def byteCodec : Codec UInt8 where
  toVec byte := if byte < 128 then [byte] else [0xcc, byte]
  fromSlice
    | [byte] => if byte < 128 then some byte else none
    | [0xcc, byte] => some byte
    | _ => none
  faithful byte := by
    by_cases fixint : byte < 128
    · simp [fixint]
    · simp [fixint]

theorem byteCodec_notNil : byteCodec.fromSlice nil = none := by decide

def writeEntry (entry : Bool × UInt8) : Bytes :=
  (if entry.1 then 0xc3 else 0xc2) :: byteCodec.toVec entry.2

def readKey (byte : UInt8) : Option Bool :=
  if byte = 0xc3 then some true
  else if byte = 0xc2 then some false
  else none

def readByte : Bytes → Option (UInt8 × Bytes)
  | [] => none
  | byte :: rest =>
      if byte < 128 then some (byte, rest)
      else if byte = 0xcc then
        match rest with
        | [] => none
        | byte :: rest => some (byte, rest)
      else none

def readEntries : Nat → Bytes → Option (List (Bool × UInt8))
  | 0, [] => some []
  | 0, _ :: _ => none
  | _ + 1, [] => none
  | count + 1, byte :: bytes =>
      match readKey byte, readByte bytes with
      | some key, some (value, rest) =>
          (readEntries count rest).map ((key, value) :: ·)
      | _, _ => none

theorem readByte_toVec (byte : UInt8) (rest : Bytes) :
    readByte (byteCodec.toVec byte ++ rest) = some (byte, rest) := by
  by_cases fixint : byte < 128
  · simp [byteCodec, readByte, fixint]
  · simp [byteCodec, readByte, fixint]

theorem readEntries_writeEntry (entries : List (Bool × UInt8)) :
    readEntries entries.length (entries.flatMap writeEntry) = some entries := by
  induction entries with
  | nil => rfl
  | cons entry rest ih =>
      obtain ⟨key, value⟩ := entry
      have isKey : readKey (if key then 0xc3 else 0xc2) = some key := by
        cases key <;> rfl
      simp [writeEntry, readEntries, isKey, readByte_toVec, ih]

/-- A map of at most two entries: a `fixmap`, its entries in their order. -/
def mapCodec : Codec (IndexMap Bool UInt8) where
  toVec map :=
    UInt8.ofNat (0x80 + map.entries.length) :: map.entries.flatMap writeEntry
  fromSlice
    | [] => none
    | header :: bytes =>
        match readEntries (header.toNat - 0x80) bytes with
        | some entries =>
            if nodup : (entries.map Prod.fst).Nodup then some ⟨entries, nodup⟩
            else none
        | none => none
  faithful map := by
    have few : map.entries.length ≤ 2 := by
      simpa using map.nodup.length_le_card
    have header : (UInt8.ofNat (0x80 + map.entries.length)).toNat - 0x80 =
        map.entries.length := by
      rw [UInt8.toNat_ofNat']
      omega
    simp only [header, readEntries_writeEntry, map.nodup, dif_pos]

end Malstrom.Snapshot
