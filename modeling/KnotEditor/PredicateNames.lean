import KnotEditor.Library.Fallible
import KnotEditor.Library.Radix
import KnotEditor.Sync.SpaceAuthority

/-! Names that predicates and their authors are written under, read back: `did:key` for a verifying
key, and the serialized reference to a predicate. -/

namespace KnotEditor

open Radix

def pushValue : List Nat → Nat → List Nat
  | [], carry => carryDigits 256 carry carry
  | byte :: bytes, carry =>
    let scaled := carry + byte * 58
    scaled % 256 :: pushValue bytes (scaled / 256)

def base58btcDecode (encoded : String) : Option (List UInt8) := do
  let leadingOnes := (encoded.toList.takeWhile (· == '1')).length
  let bytes ← (encoded.toList.drop leadingOnes).foldlM (fun bytes character => do
    let value ← base58Alphabet.idxOf? character
    some (pushValue bytes value)) []
  return List.replicate leadingOnes 0 ++ bytes.reverse.map UInt8.ofNat

def didKeyVerifyingKey (did : String) : Option Bytes32 := do
  let multibase ← stripStart did "did:key:"
  let base58 ← stripStart multibase "z"
  let decoded ← base58btcDecode base58
  if decoded.length < 2 ∨ decoded.take 2 ≠ [0xed, 0x01] then none
  if size : (decoded.drop 2).length = 32 then some ⟨decoded.drop 2, size⟩ else none

inductive PredicateForm
  | text (value : String)
  | map (entries : List (String × PredicateForm))
  | other

def parseLowercaseHex32 (value : String) : Option Bytes32 :=
  if value.utf8ByteSize ≠ 64 ∨ value.toList.any fun character =>
      'A' ≤ character && character ≤ 'Z' then none
  else do
    let bytes ← hexPairs value.toList
    if size : bytes.length = 32 then some ⟨bytes, size⟩ else none

namespace KnotPredicateRefV1

def serialize : KnotPredicateRefV1 → PredicateForm
  | core predicate => .text predicate.slug
  | defined id => .map [("defined", .text (hex32 id))]
  | unrecognized label => .text label

def visitStr (value : String) : KnotPredicateRefV1 :=
  match (KnotCorePredicateV1.fromSlug value).or (KnotCorePredicateV1.fromIri value) with
  | some predicate => core predicate
  | none => unrecognized value

def visitMap (entries : List (String × PredicateForm)) : Except String KnotPredicateRefV1 := do
  let (key, value) :: rest := entries | .error "empty relation predicate map"
  if key ≠ "defined" then
    .error s!"unknown relation predicate key '{key}'"
  let .text value := value | .error "invalid type: expected a string"
  let some id := parseLowercaseHex32 value
    | .error "defined predicate is not 64 lowercase hex characters"
  if !rest.isEmpty then
    .error "relation predicate map has extra keys"
  return defined id

def deserialize : PredicateForm → Except String KnotPredicateRefV1
  | .text value => .ok (visitStr value)
  | .map entries => visitMap entries
  | .other => .error "expected a core predicate slug or IRI, or a defined-hash map"

end KnotPredicateRefV1

section base58

theorem carryDigits_eq (base fuel carry : Nat) :
    carryDigits base fuel carry = spill base fuel carry := by
  induction fuel generalizing carry with
  | zero => rfl
  | succ fuel ih => rw [carryDigits, spill, ih]

theorem pushByte_eq (digits : List Nat) (carry : Nat) :
    pushByte digits carry = push 58 256 digits carry := by
  induction digits generalizing carry with
  | nil => exact carryDigits_eq 58 carry carry
  | cons digit digits ih => rw [pushByte, push, ih]

theorem pushValue_eq (bytes : List Nat) (carry : Nat) :
    pushValue bytes carry = push 256 58 bytes carry := by
  induction bytes generalizing carry with
  | nil => exact carryDigits_eq 256 carry carry
  | cons byte bytes ih => rw [pushValue, push, ih]

def symbol (digit : Nat) : Char := base58Alphabet.getD digit '1'

theorem idxOf_symbol : ∀ digit < 58, base58Alphabet.idxOf? (symbol digit) = some digit := by
  decide

theorem symbol_zero : ∀ digit < 58, (symbol digit == '1') = (digit == 0) := by decide

variable (bytes : List UInt8) {character : Char} {text : List Char} {digits : List Nat}

theorem symbol_of_idxOf {digit : Nat} (found : base58Alphabet.idxOf? character = some digit) :
    digit < 58 ∧ symbol digit = character := by
  rw [List.idxOf?, List.findIdx?_eq_some_iff_getElem] at found
  obtain ⟨bound, same, _⟩ := found
  refine ⟨bound, ?_⟩
  rw [symbol, List.getD_eq_getElem?_getD, List.getElem?_eq_getElem bound]
  exact eq_of_beq same

theorem drop_takeWhile {α : Type} (p : α → Bool) (items : List α) :
    items.drop (items.takeWhile p).length = items.dropWhile p := by
  have whole : items.takeWhile p ++ items.dropWhile p = items := List.takeWhile_append_dropWhile
  calc items.drop (items.takeWhile p).length
      = (items.takeWhile p ++ items.dropWhile p).drop (items.takeWhile p).length := by rw [whole]
    _ = items.dropWhile p := List.drop_left

theorem zero_toNat : (fun digit => digit == 0) ∘ UInt8.toNat = fun byte : UInt8 => byte == 0 := by
  funext byte
  rw [Function.comp_apply, Bool.eq_iff_iff, beq_iff_eq, beq_iff_eq, ← UInt8.toNat_inj]
  rfl

theorem base58btc_eq :
    base58btc bytes = String.ofList ((convert 256 58 (bytes.map UInt8.toNat)).map symbol) := by
  have step : (fun digits (byte : UInt8) => pushByte digits byte.toNat) =
      fun digits byte => push 58 256 digits byte.toNat := by
    funext digits byte
    exact pushByte_eq digits byte.toNat
  rw [base58btc, drop_takeWhile, step, convert, List.takeWhile_map, List.dropWhile_map, zero_toNat,
    List.foldl_map, List.length_map, List.map_append, List.map_replicate]
  rfl

theorem idxOf_isSome_iff :
    (base58Alphabet.idxOf? character).isSome ↔ character ∈ base58Alphabet := by
  rw [List.isSome_idxOf?]

def Spells (text : List Char) (digits : List Nat) : Prop :=
  (∀ digit ∈ digits, digit < 58) ∧ digits.map symbol = text

theorem exists_spells (within : ∀ character ∈ text, character ∈ base58Alphabet) :
    ∃ digits, Spells text digits := by
  induction text with
  | nil => exact ⟨[], by simp, rfl⟩
  | cons character text ih =>
    obtain ⟨digits, below, same⟩ := ih fun later member =>
      within later (List.mem_cons_of_mem character member)
    obtain ⟨digit, found⟩ := Option.isSome_iff_exists.mp
      (idxOf_isSome_iff.mpr (within character List.mem_cons_self))
    obtain ⟨bound, symbol_⟩ := symbol_of_idxOf found
    refine ⟨digit :: digits, ?_, ?_⟩
    · rw [List.forall_mem_cons]
      exact ⟨bound, below⟩
    · rw [List.map_cons, symbol_, same]

theorem Spells.foldlM (spells : Spells text digits) (bytes : List Nat) :
    text.foldlM (fun bytes character => do
        let value ← base58Alphabet.idxOf? character
        some (pushValue bytes value)) bytes =
      some (digits.foldl (push 256 58) bytes) := by
  obtain ⟨below, rfl⟩ := spells
  induction digits generalizing bytes with
  | nil => rfl
  | cons digit digits ih =>
    rw [List.forall_mem_cons] at below
    have rest := ih (push 256 58 bytes digit) below.2
    rw [List.map_cons, List.foldlM_cons, idxOf_symbol digit below.1, List.foldl_cons, ← rest,
      ← pushValue_eq]
    rfl

theorem takeWhile_ones (below : ∀ digit ∈ digits, digit < 58) :
    ((digits.map symbol).takeWhile (· == '1')).length = (digits.takeWhile (· == 0)).length ∧
      (digits.map symbol).dropWhile (· == '1') = (digits.dropWhile (· == 0)).map symbol := by
  induction digits with
  | nil => exact ⟨rfl, rfl⟩
  | cons digit digits ih =>
    rw [List.forall_mem_cons] at below
    have same := symbol_zero digit below.1
    obtain ⟨length, rest⟩ := ih below.2
    by_cases zero : digit = 0
    · have first : (symbol digit == '1') = true := by rw [same, zero]; rfl
      have head : (digit == 0) = true := beq_iff_eq.mpr zero
      simp only [List.map_cons, List.takeWhile_cons, List.dropWhile_cons, first, head, if_true,
        List.length_cons, length, rest, and_self]
    · have head : ¬(digit == 0) = true := fun same => zero (eq_of_beq same)
      have first : ¬(symbol digit == '1') = true := by rwa [same]
      simp only [List.map_cons, List.takeWhile_cons, List.dropWhile_cons, first, head,
        Bool.false_eq_true, if_false, List.length_nil, and_self]

theorem Spells.decode (spells : Spells text digits) :
    base58btcDecode (String.ofList text) = some ((convert 58 256 digits).map UInt8.ofNat) := by
  obtain ⟨below, same⟩ := spells
  obtain ⟨ones, rest⟩ := takeWhile_ones below
  have tail : Spells ((digits.dropWhile (· == 0)).map symbol) (digits.dropWhile (· == 0)) :=
    ⟨fun digit member => below digit ((List.dropWhile_suffix _).subset member), rfl⟩
  rw [base58btcDecode, String.toList_ofList, drop_takeWhile, ← same, ones, rest, tail.foldlM,
    convert, List.map_append, List.map_replicate]
  rfl

theorem foldlM_of_outside (outside : character ∉ base58Alphabet) {text : List Char}
    (member : character ∈ text) (bytes : List Nat) :
    text.foldlM (fun bytes character => do
      let value ← base58Alphabet.idxOf? character
      some (pushValue bytes value)) bytes = none := by
  induction text generalizing bytes with
  | nil => cases member
  | cons first rest ih =>
    rw [List.foldlM_cons]
    rcases List.mem_cons.mp member with rfl | later
    · have none_ : base58Alphabet.idxOf? character = none := by
        rw [← Option.not_isSome_iff_eq_none, idxOf_isSome_iff]
        exact outside
      rw [none_]
      rfl
    · cases base58Alphabet.idxOf? first with
      | none => rfl
      | some value => exact ih later (pushValue bytes value)

theorem decode_of_outside {text : String} {character : Char} (member : character ∈ text.toList)
    (outside : character ∉ base58Alphabet) : base58btcDecode text = none := by
  have zero : '1' ∈ base58Alphabet := by decide
  have kept : character ∈ text.toList.dropWhile (· == '1') := by
    have whole : text.toList.takeWhile (· == '1') ++ text.toList.dropWhile (· == '1') =
        text.toList := List.takeWhile_append_dropWhile
    rw [← whole, List.mem_append] at member
    rcases member with one | later
    · have same := List.mem_takeWhile_imp one
      rw [eq_of_beq same] at outside
      exact absurd zero outside
    · exact later
  rw [base58btcDecode, drop_takeWhile, foldlM_of_outside outside kept]
  rfl

theorem bytes_below : ∀ digit ∈ bytes.map UInt8.toNat, digit < 256 := by
  intro digit member
  obtain ⟨byte, _, rfl⟩ := List.mem_map.mp member
  exact byte.toNat_lt

theorem map_ofNat_toNat : (bytes.map UInt8.toNat).map UInt8.ofNat = bytes := by
  rw [List.map_map]
  refine (List.map_congr_left fun byte _ => ?_).trans (List.map_id bytes)
  exact UInt8.ofNat_toNat

theorem map_toNat_ofNat (below : ∀ digit ∈ digits, digit < 256) :
    (digits.map UInt8.ofNat).map UInt8.toNat = digits := by
  rw [List.map_map]
  refine (List.map_congr_left fun digit member => ?_).trans (List.map_id digits)
  exact UInt8.toNat_ofNat_of_lt' (below digit member)

theorem decode_encode : base58btcDecode (base58btc bytes) = some bytes := by
  have spells : Spells ((convert 256 58 (bytes.map UInt8.toNat)).map symbol)
      (convert 256 58 (bytes.map UInt8.toNat)) := ⟨convert_lt (by decide) (by decide), rfl⟩
  rw [base58btc_eq, spells.decode, convert_convert (by decide) (by decide) (bytes_below bytes),
    map_ofNat_toNat]

theorem encode_decode {text : String}
    (within : ∀ character ∈ text.toList, character ∈ base58Alphabet) :
    ∃ bytes, base58btcDecode text = some bytes ∧ base58btc bytes = text := by
  obtain ⟨digits, spells⟩ := exists_spells within
  have decoded := spells.decode
  rw [String.ofList_toList] at decoded
  refine ⟨_, decoded, ?_⟩
  rw [base58btc_eq, map_toNat_ofNat (convert_lt (by decide) (by decide)),
    convert_convert (by decide) (by decide) spells.1, spells.2, String.ofList_toList]

theorem decode_eq_none_iff {text : String} :
    base58btcDecode text = none ↔ ∃ character ∈ text.toList, character ∉ base58Alphabet := by
  constructor
  · intro refused
    by_contra within
    push Not at within
    obtain ⟨bytes, decoded, _⟩ := encode_decode within
    rw [refused] at decoded
    cases decoded
  · rintro ⟨character, member, outside⟩
    exact decode_of_outside member outside

theorem decode_eq_some_iff {text : String} {bytes : List UInt8} :
    base58btcDecode text = some bytes ↔ text = base58btc bytes := by
  constructor
  · intro decoded
    have within : ∀ character ∈ text.toList, character ∈ base58Alphabet := by
      by_contra outside
      push Not at outside
      rw [decode_eq_none_iff.mpr outside] at decoded
      cases decoded
    obtain ⟨again, same, encoded⟩ := encode_decode within
    rw [← encoded, Option.some.inj (decoded.symm.trans same)]
  · intro encoded
    rw [encoded, decode_encode]

theorem encoding_within :
    (∀ digit ∈ bytes.foldl (fun digits byte => pushByte digits byte.toNat) [], digit < 58) ∧
      ∀ byte : UInt8, Within 58 256 (2 ^ 32)
        (bytes.foldl (fun digits byte => pushByte digits byte.toNat) []) byte.toNat := by
  have digits : bytes.foldl (fun digits byte => pushByte digits byte.toNat) [] =
      Nat.digits 58 (value 256 (bytes.map UInt8.toNat)) := by
    rw [← foldl_push (by decide) (by decide), List.foldl_map]
    congr 1
    funext digits byte
    exact pushByte_eq digits byte.toNat
  have below : ∀ digit ∈ Nat.digits 58 (value 256 (bytes.map UInt8.toNat)), digit < 58 :=
    fun digit => Nat.digits_lt_base (by decide)
  rw [digits]
  exact ⟨below, fun byte => within_of_digits (by decide) (by decide) below byte.toNat_lt⟩

theorem decoding_within {bytes : List Nat}
    (decoded : text.foldlM (fun bytes character => do
      let value ← base58Alphabet.idxOf? character
      some (pushValue bytes value)) [] = some bytes) :
    (∀ byte ∈ bytes, byte < 256) ∧ ∀ (character : Char) (value : Nat),
      base58Alphabet.idxOf? character = some value → Within 256 58 (2 ^ 32) bytes value := by
  have within : ∀ character ∈ text, character ∈ base58Alphabet := by
    by_contra outside
    push Not at outside
    obtain ⟨character, member, outside⟩ := outside
    rw [foldlM_of_outside outside member] at decoded
    cases decoded
  obtain ⟨digits, spells⟩ := exists_spells within
  rw [spells.foldlM, foldl_push (by decide) (by decide), Option.some.injEq] at decoded
  have below : ∀ byte ∈ bytes, byte < 256 := by
    rw [← decoded]
    exact fun byte => Nat.digits_lt_base (by decide)
  refine ⟨below, fun character value found => ?_⟩
  exact within_of_digits (by decide) (by decide) below (symbol_of_idxOf found).1

theorem stripStart_eq_some_iff {value start rest : String} :
    stripStart value start = some rest ↔ value = start ++ rest := by
  rw [stripStart]
  constructor
  · intro stripped
    split at stripped
    next leads =>
      obtain ⟨tail, whole⟩ := List.isPrefixOf_iff_prefix.mp leads
      rw [← whole, List.drop_left, Option.some.injEq] at stripped
      rw [← String.toList_inj, String.toList_append, ← stripped, String.toList_ofList, whole]
    · cases stripped
  · intro whole
    rw [whole, String.toList_append, if_pos (List.isPrefixOf_iff_prefix.mpr ⟨_, rfl⟩),
      List.drop_left, String.ofList_toList]

theorem didKeyVerifyingKey_eq_some_iff {did : String} {key : Bytes32} :
    didKeyVerifyingKey did = some key ↔ did = didKey key := by
  have named : didKey key = "did:key:" ++ ("z" ++ base58btc ([0xed, 0x01] ++ key.bytes)) := by
    rw [didKey, ← String.append_assoc]
    rfl
  constructor
  · intro recovered
    simp only [didKeyVerifyingKey, Option.bind_eq_bind, Option.bind_eq_some_iff] at recovered
    obtain ⟨multibase, head, base58, tail, decoded, read, rest⟩ := recovered
    split at rest
    · cases rest
    next tagged =>
      push Not at tagged
      split at rest
      next size =>
        have bytes : decoded = [0xed, 0x01] ++ key.bytes := by
          rw [← Option.some.inj rest, ← tagged.2, List.take_append_drop]
        rw [stripStart_eq_some_iff.mp head, stripStart_eq_some_iff.mp tail,
          decode_eq_some_iff.mp read, bytes, named]
      · cases rest
  · intro same
    have tagged : ¬(([0xed, 0x01] ++ key.bytes).length < 2 ∨
        ([0xed, 0x01] ++ key.bytes).take 2 ≠ [0xed, 0x01]) := by
      rintro (short | other)
      · rw [List.length_append, key.size] at short
        exact absurd short (by decide)
      · exact other rfl
    simp only [didKeyVerifyingKey, Option.bind_eq_bind, Option.bind_eq_some_iff]
    refine ⟨_, stripStart_eq_some_iff.mpr (same.trans named), _, stripStart_eq_some_iff.mpr rfl,
      _, decode_encode _, ?_⟩
    have size : (([0xed, 0x01] ++ key.bytes).drop 2).length = 32 := key.size
    rw [if_neg tagged, dif_pos size]
    rfl

/-- Base58 and `did:key` name bytes one to one, within `u32` at any length. -/
theorem did_key_names_one_key :
    (∀ bytes, base58btcDecode (base58btc bytes) = some bytes) ∧
    (∀ text : String, (∀ character ∈ text.toList, character ∈ base58Alphabet) →
      ∃ bytes, base58btcDecode text = some bytes ∧ base58btc bytes = text) ∧
    (∀ text, base58btcDecode text = none ↔
      ∃ character ∈ text.toList, character ∉ base58Alphabet) ∧
    (∀ bytes : List UInt8,
      (∀ digit ∈ bytes.foldl (fun digits byte => pushByte digits byte.toNat) [], digit < 58) ∧
      ∀ byte : UInt8, Within 58 256 (2 ^ 32)
        (bytes.foldl (fun digits byte => pushByte digits byte.toNat) []) byte.toNat) ∧
    (∀ (text : List Char) (bytes : List Nat), text.foldlM (fun bytes character => do
        let value ← base58Alphabet.idxOf? character
        some (pushValue bytes value)) [] = some bytes →
      (∀ byte ∈ bytes, byte < 256) ∧ ∀ (character : Char) (value : Nat),
        base58Alphabet.idxOf? character = some value → Within 256 58 (2 ^ 32) bytes value) ∧
    ∀ did key, didKeyVerifyingKey did = some key ↔ did = didKey key :=
  ⟨decode_encode, fun _ => encode_decode, fun _ => decode_eq_none_iff, encoding_within,
    fun _ _ => decoding_within, fun _ _ => didKeyVerifyingKey_eq_some_iff⟩

end base58

theorem hexDigitValue_hexDigit :
    ∀ value < 16, hexDigitValue (hexDigit value) = some value := by decide

theorem hexDigit_bounds : ∀ value < 16,
    (hexDigit value).utf8Size = 1 ∧ ¬('A' ≤ hexDigit value ∧ hexDigit value ≤ 'Z') := by decide

theorem hexPairs_flatMap (bytes : List UInt8) : hexPairs (bytes.flatMap hexPair) = some bytes := by
  induction bytes with
  | nil => rfl
  | cons byte rest ih =>
    have bound := byte.toNat_lt
    have high := hexDigitValue_hexDigit (byte.toNat / 16) (by omega)
    have low := hexDigitValue_hexDigit (byte.toNat % 16) (by omega)
    have whole : byte.toNat / 16 * 16 + byte.toNat % 16 = byte.toNat := by omega
    rw [List.flatMap_cons, hexPair, List.cons_append, List.cons_append, List.nil_append, hexPairs,
      high, low, ih]
    simp only [Option.bind_eq_bind, Option.bind_some, whole, UInt8.ofNat_toNat]

theorem hexPairs_hex32 (value : Bytes32) : hexPairs (hex32 value).toList = some value.bytes := by
  rw [hex32, String.toList_ofList]
  exact hexPairs_flatMap value.bytes

theorem mem_hex32 {value : Bytes32} {character : Char} (member : character ∈ (hex32 value).toList) :
    ∃ digit < 16, hexDigit digit = character := by
  rw [hex32, String.toList_ofList, List.mem_flatMap] at member
  obtain ⟨byte, _, member⟩ := member
  have bound := byte.toNat_lt
  rcases List.mem_cons.mp member with high | member
  · exact ⟨byte.toNat / 16, by omega, high.symm⟩
  · exact ⟨byte.toNat % 16, by omega, (List.mem_singleton.mp member).symm⟩

theorem length_utf8Bytes_single {text : List Char}
    (single : ∀ character ∈ text, character.utf8Size = 1) :
    (utf8Bytes text).length = text.length := by
  induction text with
  | nil => rfl
  | cons character rest ih =>
    rw [List.forall_mem_cons] at single
    rw [utf8Bytes_cons, List.length_append, String.length_utf8EncodeChar, single.1, ih single.2,
      List.length_cons, Nat.add_comm]

theorem utf8ByteSize_hex32 (value : Bytes32) : (hex32 value).utf8ByteSize = 64 := by
  rw [← length_utf8Bytes, length_utf8Bytes_single, length_hex32]
  intro character member
  obtain ⟨digit, small, rfl⟩ := mem_hex32 member
  exact (hexDigit_bounds digit small).1

theorem parseLowercaseHex32_hex32 (id : Bytes32) : parseLowercaseHex32 (hex32 id) = some id := by
  have lowercase : ¬((hex32 id).utf8ByteSize ≠ 64 ∨ (hex32 id).toList.any fun character =>
      'A' ≤ character && character ≤ 'Z') := by
    rintro (size | upper)
    · exact size (utf8ByteSize_hex32 id)
    · obtain ⟨character, member, upper⟩ := List.any_eq_true.mp upper
      obtain ⟨digit, small, rfl⟩ := mem_hex32 member
      rw [Bool.and_eq_true, decide_eq_true_eq, decide_eq_true_eq] at upper
      exact (hexDigit_bounds digit small).2 upper
  rw [parseLowercaseHex32, if_neg lowercase, hexPairs_hex32]
  simp only [Option.bind_eq_bind, Option.bind_some, id.size, dite_true]

namespace KnotCorePredicateV1

theorem fromSlug_slug (predicate : KnotCorePredicateV1) : fromSlug predicate.slug = some predicate := by
  cases predicate <;> decide

end KnotCorePredicateV1

namespace KnotPredicateRefV1

theorem visitStr_slug (predicate : KnotCorePredicateV1) : visitStr predicate.slug = core predicate := by
  rw [visitStr, KnotCorePredicateV1.fromSlug_slug, Option.some_or]

theorem visitStr_cases (value : String) :
    (∃ predicate, visitStr value = core predicate) ∨ visitStr value = unrecognized value := by
  rw [visitStr]
  cases (KnotCorePredicateV1.fromSlug value).or (KnotCorePredicateV1.fromIri value) with
  | none => exact .inr rfl
  | some predicate => exact .inl ⟨predicate, rfl⟩

theorem visitMap_eq_ok {entries : List (String × PredicateForm)} {value : KnotPredicateRefV1}
    (accepted : visitMap entries = .ok value) : ∃ id, value = defined id := by
  cases entries with
  | nil => cases accepted
  | cons entry rest =>
    obtain ⟨key, form⟩ := entry
    simp only [visitMap, Fallible.refuse_eq_ok_iff] at accepted
    obtain ⟨_, accepted⟩ := accepted
    split at accepted
    · split at accepted
      next id _ =>
        rw [Fallible.refuse_eq_ok_iff] at accepted
        exact ⟨id, (Except.ok.inj accepted.2).symm⟩
      · cases accepted
    · cases accepted

theorem deserialize_defined (id : Bytes32) :
    deserialize (defined id).serialize = .ok (defined id) := by
  rw [serialize, deserialize, visitMap, if_neg (not_not.mpr rfl)]
  simp only [parseLowercaseHex32_hex32]
  rfl

/-- What is decoded is decoded again from its own encoding, which encodes to itself. -/
theorem serialize_deserialize {form : PredicateForm} {value : KnotPredicateRefV1}
    (accepted : deserialize form = .ok value) :
    deserialize value.serialize = .ok value ∧
      (deserialize form).map serialize = .ok value.serialize ∧
      (deserialize value.serialize).map serialize = .ok value.serialize := by
  have again : deserialize value.serialize = .ok value := by
    cases form with
    | text text =>
      have read : visitStr text = value := Except.ok.inj accepted
      rcases visitStr_cases text with ⟨predicate, same⟩ | same
      · rw [← read, same]
        exact congrArg Except.ok (visitStr_slug predicate)
      · have kept : value = unrecognized text := read.symm.trans same
        rw [kept]
        exact congrArg Except.ok same
    | map entries =>
      obtain ⟨id, rfl⟩ := visitMap_eq_ok accepted
      exact deserialize_defined id
    | other => cases accepted
  refine ⟨again, ?_, ?_⟩
  · rw [accepted]
    rfl
  · rw [again]
    rfl

theorem serialize_deserialize_iri :
    deserialize (.text KnotCorePredicateV1.exampleOf.iri) = .ok (core .exampleOf) ∧
      deserialize (core .exampleOf).serialize = .ok (core .exampleOf) := by
  have accepted : deserialize (.text KnotCorePredicateV1.exampleOf.iri) = .ok (core .exampleOf) :=
    rfl
  exact ⟨accepted, (serialize_deserialize accepted).1⟩

end KnotPredicateRefV1

end KnotEditor
