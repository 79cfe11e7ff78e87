import Mathlib.Data.List.Basic
import Mathlib.Data.String.Basic

/-! UTF-8 both ways, over lists of bytes. -/

namespace KnotEditor

def utf8Bytes (text : List Char) : List UInt8 := text.flatMap String.utf8EncodeChar

def fromUtf8 (bytes : List UInt8) : Option String := String.fromUTF8? bytes.toByteArray

theorem toUTF8_of_fromUTF8 {body : ByteArray} {text : String}
    (decoded : String.fromUTF8? body = some text) : text.toUTF8 = body := by
  rw [String.fromUTF8?] at decoded
  split at decoded
  next valid =>
    cases decoded
    rfl
  next => cases decoded

theorem fromUTF8_toUTF8 (text : String) : String.fromUTF8? text.toUTF8 = some text := by
  have valid : text.toUTF8.IsValidUTF8 := text.isValidUTF8
  rw [String.fromUTF8?, dif_pos valid]
  rfl

def leadByte (lead : UInt8) : Option (Nat × UInt8 × UInt8) :=
  if lead < 0x80 then some (0, 0, 0)
  else if lead < 0xC2 then none
  else if lead < 0xE0 then some (1, 0x80, 0xBF)
  else if lead = 0xE0 then some (2, 0xA0, 0xBF)
  else if lead = 0xED then some (2, 0x80, 0x9F)
  else if lead < 0xF0 then some (2, 0x80, 0xBF)
  else if lead = 0xF0 then some (3, 0x90, 0xBF)
  else if lead < 0xF4 then some (3, 0x80, 0xBF)
  else if lead = 0xF4 then some (3, 0x80, 0x8F)
  else none

def continuing : Nat → UInt8 → UInt8 → List UInt8 → Nat
  | 0, _, _, _ => 0
  | _, _, _, [] => 0
  | count + 1, low, high, byte :: rest =>
    if low ≤ byte ∧ byte ≤ high then 1 + continuing count 0x80 0xBF rest else 0

/-- `String::from_utf8_lossy`: each maximal part of a broken character becomes one U+FFFD. -/
def lossyChars : Nat → List UInt8 → List Char
  | 0, _ => []
  | _, [] => []
  | fuel + 1, lead :: rest =>
    match leadByte lead with
    | none => Char.ofNat 0xFFFD :: lossyChars fuel rest
    | some (wanted, low, high) =>
      let found := continuing wanted low high rest
      let decoded := (fromUtf8 (lead :: rest.take found)).map String.toList
      decoded.getD [Char.ofNat 0xFFFD] ++ lossyChars fuel (rest.drop found)

def fromUtf8Lossy (bytes : List UInt8) : String := String.ofList (lossyChars bytes.length bytes)

example : fromUtf8Lossy [0x61, 0xE2, 0x82, 0x62, 0xC3, 0xA9] = "a\uFFFDbé" := by decide

@[simp]
theorem utf8Bytes_nil : utf8Bytes [] = [] := rfl

@[simp]
theorem utf8Bytes_append (first rest : List Char) :
    utf8Bytes (first ++ rest) = utf8Bytes first ++ utf8Bytes rest := List.flatMap_append

theorem utf8Bytes_cons (first : Char) (rest : List Char) :
    utf8Bytes (first :: rest) = String.utf8EncodeChar first ++ utf8Bytes rest := List.flatMap_cons

@[simp]
theorem toByteArray_utf8Bytes (text : String) :
    (utf8Bytes text.toList).toByteArray = text.toByteArray :=
  String.utf8Encode_toList

theorem length_utf8Bytes (text : String) : (utf8Bytes text.toList).length = text.utf8ByteSize := by
  have size := congrArg ByteArray.size (toByteArray_utf8Bytes text)
  rw [List.size_toByteArray] at size
  exact size

theorem length_le_utf8Bytes (text : List Char) : text.length ≤ (utf8Bytes text).length := by
  induction text with
  | nil => simp
  | cons character rest ih =>
    have positive := character.utf8Size_pos
    rw [utf8Bytes_cons, List.length_append, String.length_utf8EncodeChar, List.length_cons]
    omega

theorem fromUtf8_eq_some_iff {bytes : List UInt8} {text : String} :
    fromUtf8 bytes = some text ↔ bytes = utf8Bytes text.toList := by
  unfold fromUtf8 String.fromUTF8?
  constructor
  · intro decoded
    split at decoded
    next valid =>
      cases decoded
      have same : (utf8Bytes (String.fromUTF8 bytes.toByteArray valid).toList).toByteArray =
        bytes.toByteArray := toByteArray_utf8Bytes _
      exact (List.toByteArray_inj.mp same).symm
    · cases decoded
  · rintro rfl
    rw [dif_pos (toByteArray_utf8Bytes text ▸ text.isValidUTF8)]
    refine congrArg some (String.toByteArray_inj.mp ?_)
    exact toByteArray_utf8Bytes text

theorem fromUtf8_toList (name : ByteArray) :
    fromUtf8 name.data.toList = String.fromUTF8? name := by
  have same : name.data.toList.toByteArray = name := ByteArray.ext (by simp)
  rw [fromUtf8, same]

@[simp]
theorem fromUtf8_utf8Bytes (text : List Char) : fromUtf8 (utf8Bytes text) = some (String.ofList text) := by
  rw [fromUtf8_eq_some_iff, String.toList_ofList]

theorem utf8EncodeChar_ascii {character : Char} (ascii : character.toNat < 128) :
    String.utf8EncodeChar character = [UInt8.ofNat character.toNat] := by
  exact if_pos (Nat.le_of_lt_succ ascii)

theorem mem_utf8EncodeChar_ascii {character : Char} {byte : UInt8}
    (member : byte ∈ String.utf8EncodeChar character) (ascii : byte.toNat < 128) :
    character.toNat = byte.toNat := by
  unfold String.utf8EncodeChar at member
  simp only at member
  split at member
  next small =>
    cases List.mem_singleton.mp member
    rw [UInt8.toNat_ofNat', Nat.mod_eq_of_lt (by omega)]
    rfl
  · split at member
    · simp only [List.mem_cons, List.not_mem_nil, or_false] at member
      rcases member with rfl | rfl <;> rw [UInt8.toNat_ofNat'] at ascii <;> omega
    · split at member <;> simp only [List.mem_cons, List.not_mem_nil, or_false] at member
      · rcases member with rfl | rfl | rfl <;> rw [UInt8.toNat_ofNat'] at ascii <;> omega
      · rcases member with rfl | rfl | rfl | rfl <;> rw [UInt8.toNat_ofNat'] at ascii <;> omega

theorem mem_utf8Bytes_ascii {text : List Char} {byte : UInt8} (member : byte ∈ utf8Bytes text)
    (ascii : byte.toNat < 128) : ∃ character ∈ text, character.toNat = byte.toNat := by
  rcases List.mem_flatMap.mp member with ⟨character, present, inside⟩
  exact ⟨character, present, mem_utf8EncodeChar_ascii inside ascii⟩

theorem utf8Bytes_inj {first second : List Char} :
    utf8Bytes first = utf8Bytes second ↔ first = second := by
  constructor
  · intro same
    have decoded := fromUtf8_utf8Bytes first
    rw [same, fromUtf8_utf8Bytes, Option.some_inj, String.ofList_inj] at decoded
    exact decoded.symm
  · exact congrArg utf8Bytes

@[simp]
theorem utf8Bytes_eq_nil_iff {text : List Char} : utf8Bytes text = [] ↔ text = [] := by
  rw [← utf8Bytes_nil, utf8Bytes_inj]

end KnotEditor

/-! ASCII marks in UTF-8 text: each is one byte of its own, and no other character has that byte. -/

namespace KnotEditor

theorem toUInt8_inj_of_ascii {character mark : Char} (ascii : character.toNat < 128)
    (markAscii : mark.toNat < 128) : character.toUInt8 = mark.toUInt8 ↔ character = mark := by
  constructor
  · intro same
    have values : character.toNat % 256 = mark.toNat % 256 := congrArg UInt8.toNat same
    exact Char.toNat_inj.mp (by omega)
  · exact congrArg Char.toUInt8

theorem utf8EncodeChar_cases (character : Char) :
    (character.toNat < 128 ∧ String.utf8EncodeChar character = [character.toUInt8]) ∨
      (128 ≤ character.toNat ∧ ∀ byte ∈ String.utf8EncodeChar character, 128 ≤ byte.toNat) := by
  by_cases ascii : character.toNat < 128
  · exact Or.inl ⟨ascii, utf8EncodeChar_ascii ascii⟩
  · refine Or.inr ⟨Nat.le_of_not_lt ascii, ?_⟩
    intro byte member
    by_contra small
    have same := mem_utf8EncodeChar_ascii member (Nat.lt_of_not_le small)
    omega

theorem ne_of_high {byte : UInt8} {mark : Char} (high : 128 ≤ byte.toNat)
    (markAscii : mark.toNat < 128) : byte ≠ mark.toUInt8 := by
  rintro rfl
  have value : mark.toUInt8.toNat = mark.toNat % 256 := rfl
  omega

theorem utf8Bytes_mark {mark : Char} (ascii : mark.toNat < 128) (rest : List Char) :
    utf8Bytes (mark :: rest) = mark.toUInt8 :: utf8Bytes rest := by
  rw [utf8Bytes_cons, utf8EncodeChar_ascii ascii]
  rfl

theorem length_utf8Bytes_mark {mark : Char} (ascii : mark.toNat < 128) (rest : List Char) :
    (utf8Bytes (mark :: rest)).length = (utf8Bytes rest).length + 1 := by
  rw [utf8Bytes_mark ascii, List.length_cons]

theorem length_marks {marks : List Char} (ascii : ∀ mark ∈ marks, mark.toNat < 128) :
    (utf8Bytes marks).length = marks.length := by
  induction marks with
  | nil => rfl
  | cons mark marks ih =>
    rw [List.forall_mem_cons] at ascii
    rw [length_utf8Bytes_mark ascii.1, ih ascii.2, List.length_cons]

theorem head?_utf8Bytes {mark : Char} (ascii : mark.toNat < 128) (text : List Char) :
    (utf8Bytes text).head? = some mark.toUInt8 ↔ text.head? = some mark := by
  cases text with
  | nil => simp
  | cons character rest =>
    rw [utf8Bytes_cons, List.head?_cons, Option.some_inj]
    rcases utf8EncodeChar_cases character with ⟨small, encoded⟩ | ⟨large, high⟩
    · rw [encoded, List.singleton_append, List.head?_cons, Option.some_inj,
        toUInt8_inj_of_ascii small ascii]
    · cases bytes : String.utf8EncodeChar character with
      | nil => exact absurd bytes String.utf8EncodeChar_ne_nil
      | cons byte others =>
        have above : 128 ≤ byte.toNat := high byte (bytes ▸ List.mem_cons_self)
        rw [List.cons_append, List.head?_cons, Option.some_inj]
        refine iff_of_false (ne_of_high above ascii) ?_
        rintro rfl
        omega

theorem getLast?_utf8Bytes {mark : Char} (ascii : mark.toNat < 128) (text : List Char) :
    (utf8Bytes text).getLast? = some mark.toUInt8 ↔ text.getLast? = some mark := by
  rcases List.eq_nil_or_concat text with rfl | ⟨front, character, rfl⟩
  · simp
  · rw [List.concat_eq_append, List.getLast?_concat, Option.some_inj, utf8Bytes_append,
      utf8Bytes_cons, utf8Bytes_nil, List.append_nil]
    rcases utf8EncodeChar_cases character with ⟨small, encoded⟩ | ⟨large, high⟩
    · rw [encoded, List.getLast?_concat, Option.some_inj, toUInt8_inj_of_ascii small ascii]
    · rw [List.getLast?_append_of_ne_nil _ String.utf8EncodeChar_ne_nil]
      refine iff_of_false ?_ ?_
      · intro last
        exact ne_of_high (high _ (List.mem_of_getLast? last)) ascii rfl
      · rintro rfl
        omega

theorem drop_utf8Bytes (front back : List Char) {count : Nat}
    (size : count = (utf8Bytes front).length) :
    (utf8Bytes (front ++ back)).drop count = utf8Bytes back := by
  rw [utf8Bytes_append, size, List.drop_left]

theorem utf8Bytes_behind (mark : Char) (ascii : mark.toNat < 128) (front back : List Char) :
    (utf8Bytes (front ++ mark :: back)).drop ((utf8Bytes front).length + 1) = utf8Bytes back := by
  rw [utf8Bytes_append, utf8Bytes_mark ascii, List.drop_append, Nat.add_sub_cancel_left,
    List.drop_eq_nil_of_le (Nat.le_succ _), List.nil_append, List.drop_succ_cons, List.drop_zero]

end KnotEditor
