import Mathlib.Data.List.Basic

/-! Percent encoding of byte strings: a byte the escapes name, or one outside ASCII, is written as
`%` and two upper-case hex digits. -/

namespace PercentEncoding

def percent : UInt8 := 37

def hexDigit (value : Nat) : UInt8 :=
  UInt8.ofNat (if value < 10 then 48 + value else 55 + value)

def hexValue (byte : UInt8) : Option Nat :=
  let code := byte.toNat
  if 48 ≤ code && code ≤ 57 then some (code - 48)
  else if 65 ≤ code && code ≤ 70 then some (code - 55)
  else if 97 ≤ code && code ≤ 102 then some (code - 87)
  else none

def encodeByte (escapes : UInt8 → Bool) (byte : UInt8) : List UInt8 :=
  if 128 ≤ byte.toNat || escapes byte then
    [percent, hexDigit (byte.toNat / 16), hexDigit (byte.toNat % 16)]
  else [byte]

def encode (escapes : UInt8 → Bool) (bytes : List UInt8) : List UInt8 :=
  bytes.flatMap (encodeByte escapes)

def escapeAt : List UInt8 → Option UInt8
  | byte :: high :: low :: _ =>
    if byte = percent then do
      let high ← hexValue high
      let low ← hexValue low
      return UInt8.ofNat (high * 16 + low)
    else none
  | _ => none

def decodeAfter : Nat → List UInt8 → List UInt8
  | _, [] => []
  | skipped + 1, _ :: rest => decodeAfter skipped rest
  | 0, byte :: rest =>
    match escapeAt (byte :: rest) with
    | some value => value :: decodeAfter 2 rest
    | none => byte :: decodeAfter 0 rest

/-- Every escape is replaced by its byte; a `%` that begins none stays. -/
def decode (bytes : List UInt8) : List UInt8 := decodeAfter 0 bytes

/-- Some `%` is not followed by two hex digits. -/
def malformed : List UInt8 → Bool
  | [] => false
  | byte :: rest => (byte == percent && (escapeAt (byte :: rest)).isNone) || malformed rest

@[simp]
theorem decode_nil : decode [] = [] := rfl

theorem decode_plain {byte : UInt8} (plain : byte ≠ percent) (rest : List UInt8) :
    decode (byte :: rest) = byte :: decode rest := by
  have none : escapeAt (byte :: rest) = none := by
    unfold escapeAt
    split
    next same =>
      cases same
      simp [plain]
    · rfl
  rw [decode, decodeAfter, none]
  rfl

theorem decode_escape {high low : UInt8} {value : UInt8} {rest : List UInt8}
    (escape : escapeAt (percent :: high :: low :: rest) = some value) :
    decode (percent :: high :: low :: rest) = value :: decode rest := by
  rw [decode, decodeAfter, escape]
  rfl

theorem hexValue_hexDigit {value : Nat} (small : value < 16) :
    hexValue (hexDigit value) = some value := by
  have every : ∀ digit < 16, hexValue (hexDigit digit) = some digit := by decide
  exact every value small

theorem escapeAt_hexDigits (byte : UInt8) (rest : List UInt8) :
    escapeAt (percent :: hexDigit (byte.toNat / 16) :: hexDigit (byte.toNat % 16) :: rest) =
      some byte := by
  have bound := UInt8.toNat_lt byte
  have high : hexValue (hexDigit (byte.toNat / 16)) = some (byte.toNat / 16) :=
    hexValue_hexDigit (by omega)
  have low : hexValue (hexDigit (byte.toNat % 16)) = some (byte.toNat % 16) :=
    hexValue_hexDigit (by omega)
  have whole : byte.toNat / 16 * 16 + byte.toNat % 16 = byte.toNat := by omega
  rw [escapeAt, if_pos rfl, high, low]
  exact congrArg some (by rw [whole, UInt8.ofNat_toNat])

theorem decode_encodeByte {escapes : UInt8 → Bool} (escapesPercent : escapes percent = true)
    (byte : UInt8) (rest : List UInt8) :
    decode (encodeByte escapes byte ++ rest) = byte :: decode rest := by
  unfold encodeByte
  split
  · exact decode_escape (escapeAt_hexDigits byte rest)
  next kept =>
    have plain : byte ≠ percent := by
      intro same
      rw [same, escapesPercent] at kept
      simp at kept
    exact decode_plain plain rest

theorem decode_encode {escapes : UInt8 → Bool} (escapesPercent : escapes percent = true)
    (bytes : List UInt8) : decode (encode escapes bytes) = bytes := by
  induction bytes with
  | nil => rfl
  | cons byte rest ih =>
    rw [encode, List.flatMap_cons, decode_encodeByte escapesPercent]
    exact congrArg (byte :: ·) ih

theorem hexDigit_ne_percent {value : Nat} (small : value < 16) : hexDigit value ≠ percent := by
  have every : ∀ digit < 16, hexDigit digit ≠ percent := by decide
  exact every value small

theorem malformed_encodeByte_append {escapes : UInt8 → Bool}
    (escapesPercent : escapes percent = true) (byte : UInt8) (rest : List UInt8) :
    malformed (encodeByte escapes byte ++ rest) = malformed rest := by
  have bound := UInt8.toNat_lt byte
  unfold encodeByte
  split
  · have high := beq_false_of_ne (hexDigit_ne_percent (show byte.toNat / 16 < 16 by omega))
    have low := beq_false_of_ne (hexDigit_ne_percent (show byte.toNat % 16 < 16 by omega))
    simp [malformed, escapeAt_hexDigits, high, low]
  next kept =>
    have plain : byte ≠ percent := by
      intro same
      rw [same, escapesPercent] at kept
      simp at kept
    simp [malformed, plain]

theorem malformed_encode {escapes : UInt8 → Bool} (escapesPercent : escapes percent = true)
    (bytes : List UInt8) : malformed (encode escapes bytes) = false := by
  induction bytes with
  | nil => rfl
  | cons byte rest ih =>
    rw [encode, List.flatMap_cons, malformed_encodeByte_append escapesPercent]
    exact ih

theorem mem_encode {escapes : UInt8 → Bool} {bytes : List UInt8} {byte : UInt8}
    (member : byte ∈ encode escapes bytes) :
    byte = percent ∨ (∃ value < 16, byte = hexDigit value) ∨
      (byte.toNat < 128 ∧ escapes byte = false) := by
  rcases List.mem_flatMap.mp member with ⟨origin, -, inside⟩
  have bound := UInt8.toNat_lt origin
  unfold encodeByte at inside
  split at inside
  · simp only [List.mem_cons, List.not_mem_nil, or_false] at inside
    rcases inside with rfl | rfl | rfl
    · exact Or.inl rfl
    · exact Or.inr (Or.inl ⟨_, by omega, rfl⟩)
    · exact Or.inr (Or.inl ⟨_, by omega, rfl⟩)
  next kept =>
    cases List.mem_singleton.mp inside
    simp only [Bool.or_eq_true, decide_eq_true_eq, not_or, Nat.not_le,
      Bool.not_eq_true] at kept
    exact Or.inr (Or.inr kept)

theorem escapeAt_append {bytes : List UInt8} {value : UInt8} (escape : escapeAt bytes = some value)
    (rest : List UInt8) : escapeAt (bytes ++ rest) = some value := by
  rcases bytes with _ | ⟨byte, _ | ⟨high, _ | ⟨low, others⟩⟩⟩
  · cases escape
  · cases escape
  · cases escape
  · exact escape

theorem length_of_escapeAt {byte : UInt8} {rest : List UInt8} {value : UInt8}
    (escape : escapeAt (byte :: rest) = some value) : 2 ≤ rest.length := by
  rcases rest with _ | ⟨high, _ | ⟨low, others⟩⟩
  · cases escape
  · cases escape
  · simp

theorem decodeAfter_append {bytes : List UInt8} {skipped : Nat}
    (formed : malformed bytes = false) (inside : skipped ≤ bytes.length) (rest : List UInt8) :
    decodeAfter skipped (bytes ++ rest) = decodeAfter skipped bytes ++ decodeAfter 0 rest := by
  induction bytes generalizing skipped with
  | nil =>
    cases Nat.le_zero.mp inside
    rfl
  | cons byte others ih =>
    rw [malformed, Bool.or_eq_false_iff] at formed
    cases skipped with
    | succ skipped => exact ih formed.2 (Nat.le_of_succ_le_succ inside)
    | zero =>
      cases escape : escapeAt (byte :: others) with
      | some value =>
        have whole := escapeAt_append escape rest
        rw [List.cons_append] at whole ⊢
        rw [decodeAfter, decodeAfter, escape, whole]
        exact congrArg (value :: ·) (ih formed.2 (length_of_escapeAt escape))
      | none =>
        have plain : byte ≠ percent := by
          intro same
          rw [same] at escape formed
          simp [escape] at formed
        have first := decode_plain plain others
        have whole := decode_plain plain (others ++ rest)
        rw [decode, decode] at first whole
        rw [List.cons_append, whole, first]
        exact congrArg (byte :: ·) (ih formed.2 (Nat.zero_le _))

theorem decode_append {bytes : List UInt8} (formed : malformed bytes = false)
    (rest : List UInt8) : decode (bytes ++ rest) = decode bytes ++ decode rest :=
  decodeAfter_append formed (Nat.zero_le _) rest

theorem decode_intercalate {mark : UInt8} (plain : mark ≠ percent) {pieces : List (List UInt8)}
    (formed : ∀ piece ∈ pieces, malformed piece = false) :
    decode ([mark].intercalate pieces) = [mark].intercalate (pieces.map decode) := by
  induction pieces with
  | nil => rfl
  | cons first rest ih =>
    rw [List.forall_mem_cons] at formed
    cases rest with
    | nil => simp
    | cons second others =>
      rw [List.intercalate_cons_cons, List.append_assoc, decode_append formed.1,
        List.singleton_append, decode_plain plain, ih formed.2]
      simp only [List.map_cons, List.intercalate_cons_cons, List.append_assoc,
        List.singleton_append]

theorem decode_eq_nil_iff {bytes : List UInt8} : decode bytes = [] ↔ bytes = [] := by
  cases bytes with
  | nil => simp
  | cons byte rest =>
    simp only [reduceCtorEq, iff_false]
    rw [decode, decodeAfter]
    split <;> simp

end PercentEncoding
