import Mathlib.Data.List.Lex
import Mathlib.Order.Defs.LinearOrder
import Mathlib.Order.Basic
import Mathlib.Order.Compare
import Std.Data.ExtTreeMap

/-! The fixed-width byte strings of the sync log, ordered as `BTreeMap` orders them. -/

namespace KnotEditor

instance (priority := high) decidableEqByteArray : DecidableEq ByteArray := ByteArray.instDecidableEq

/-- A `[u8; 32]`: an operation hash, a verifying key or a space id. -/
structure Bytes32 where
  bytes : List UInt8
  size : bytes.length = 32
  deriving DecidableEq

namespace Bytes32

def digits (value : Bytes32) : List Nat := value.bytes.map UInt8.toNat

theorem digits_injective : Function.Injective digits := by
  intro left right same
  obtain ⟨leftBytes, _⟩ := left
  obtain ⟨rightBytes, _⟩ := right
  have bytes : leftBytes = rightBytes :=
    List.map_injective_iff.mpr (fun _ _ => UInt8.toNat_inj.mp) same
  subst bytes
  rfl

instance : LinearOrder Bytes32 := LinearOrder.lift' digits digits_injective

instance : Std.TransOrd Bytes32 := inferInstance

def filled (byte : UInt8) : Bytes32 := ⟨List.replicate 32 byte, List.length_replicate⟩

end Bytes32

instance : Std.LawfulEqOrd Bytes32 where
  eq_of_compare same := compare_eq_iff_eq.mp same

def hexDigit (value : Nat) : Char :=
  if value < 10 then Char.ofNat (48 + value) else Char.ofNat (87 + value)

def hex32 (value : Bytes32) : String :=
  String.ofList (value.bytes.flatMap fun byte =>
    [hexDigit (byte.toNat / 16), hexDigit (byte.toNat % 16)])

theorem hexDigit_inj : ∀ left < 16, ∀ right < 16,
    hexDigit left = hexDigit right → left = right := by
  decide

def hexPair (byte : UInt8) : List Char := [hexDigit (byte.toNat / 16), hexDigit (byte.toNat % 16)]

theorem hexPair_inj (left right : UInt8) (same : hexPair left = hexPair right) : left = right := by
  simp only [hexPair, List.cons.injEq, and_true] at same
  have high := hexDigit_inj _ (by have := left.toNat_lt; omega) _
    (by have := right.toNat_lt; omega) same.1
  have low := hexDigit_inj _ (by omega) _ (by omega) same.2
  apply UInt8.toNat_inj.mp
  omega

theorem flatMap_hexPair_inj (left : List UInt8) :
    ∀ right, left.flatMap hexPair = right.flatMap hexPair → left = right := by
  induction left with
  | nil =>
    intro right same
    cases right with
    | nil => rfl
    | cons byte rest => simp [hexPair] at same
  | cons byte rest ih =>
    intro right same
    cases right with
    | nil => simp [hexPair] at same
    | cons other others =>
      rw [List.flatMap_cons, List.flatMap_cons] at same
      have parts := List.append_inj same rfl
      rw [hexPair_inj byte other parts.1, ih others parts.2]

theorem hex32_inj (left right : Bytes32) (same : hex32 left = hex32 right) : left = right := by
  have bytes := flatMap_hexPair_inj left.bytes right.bytes (String.ofList_inj.mp same)
  cases left
  cases right
  simpa using bytes

theorem length_hex32 (value : Bytes32) : (hex32 value).toList.length = 64 := by
  rw [hex32, String.toList_ofList, List.length_flatMap]
  simp [value.size]

end KnotEditor
