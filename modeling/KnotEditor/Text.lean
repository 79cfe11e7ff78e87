import Mathlib.Data.List.Basic
import Mathlib.Data.String.Basic

/-! The `str` methods the sync log relies on. A `usize` has 64 bits. -/

namespace KnotEditor

def isWhitespace (character : Char) : Bool :=
  let code := character.toNat
  (9 ≤ code && code ≤ 13) || code == 0x20 || code == 0x85 || code == 0xA0 || code == 0x1680 ||
    (0x2000 ≤ code && code ≤ 0x200A) || code == 0x2028 || code == 0x2029 || code == 0x202F ||
    code == 0x205F || code == 0x3000

def trim (value : String) : String :=
  String.ofList ((value.toList.dropWhile isWhitespace).reverse.dropWhile isWhitespace).reverse

def isControl (character : Char) : Bool :=
  let code := character.toNat
  code < 0x20 || (0x7F ≤ code && code < 0xA0)

def containsNul (value : String) : Bool := value.toList.contains (Char.ofNat 0)

/-- Split after exactly `count` UTF-8 bytes, or refuse a split inside a character or past the end. -/
def splitAtByte : List Char → Nat → Option (List Char × List Char)
  | rest, 0 => some ([], rest)
  | [], _ + 1 => none
  | character :: rest, count + 1 =>
    if character.utf8Size ≤ count + 1 then
      (splitAtByte rest (count + 1 - character.utf8Size)).map fun parts =>
        (character :: parts.1, parts.2)
    else none

structure SourceRange where
  before : List Char
  inside : List Char
  after : List Char

/-- `source.get(start..end)` together with the two slices around it. -/
def sourceRange (source : String) (start finish : Nat) : Option SourceRange := do
  if finish < start then none
  let (before, rest) ← splitAtByte source.toList start
  let (inside, after) ← splitAtByte rest (finish - start)
  return { before, inside, after }

def usizeMax : Nat := 2 ^ 64 - 1

def saturatingAdd (left right : Nat) : Nat := min (left + right) usizeMax

def usizeTryFrom (value : UInt64) : Option Nat :=
  if value.toNat ≤ usizeMax then some value.toNat else none

theorem usizeTryFrom_eq (value : UInt64) : usizeTryFrom value = some value.toNat := by
  have bound := value.toNat_lt
  rw [usizeTryFrom, if_pos (by rw [usizeMax]; omega)]

example : trim " note\n" = "note" := by decide

example : (sourceRange "aéb" 1 3).map SourceRange.inside = some ['é'] := by decide

end KnotEditor

/-! ASCII case: `Char.toLower` moves the letters from A to Z and nothing else. -/

namespace KnotEditor

theorem toLower_cases (character : Char) :
    (65 ≤ character.toNat ∧ character.toNat ≤ 90 ∧
        character.toLower.toNat = character.toNat + 32) ∨
      (¬(65 ≤ character.toNat ∧ character.toNat ≤ 90) ∧ character.toLower = character) := by
  by_cases upper : 65 ≤ character.toNat ∧ character.toNat ≤ 90
  · refine .inl ⟨upper.1, upper.2, ?_⟩
    have range : character.val ≥ 'A'.val ∧ character.val ≤ 'Z'.val := upper
    have small : character.val.toNat ≤ 90 := upper.2
    rw [show character.toLower = _ from dif_pos range]
    change (character.val + 32).toNat = character.val.toNat + 32
    rw [UInt32.toNat_add, show (32 : UInt32).toNat = 32 from rfl]
    omega
  · have range : ¬(character.val ≥ 'A'.val ∧ character.val ≤ 'Z'.val) := upper
    exact .inr ⟨upper, dif_neg range⟩

@[simp]
theorem toLower_toLower (character : Char) : character.toLower.toLower = character.toLower := by
  rcases toLower_cases character with ⟨low, high, moved⟩ | ⟨_, same⟩
  · rcases toLower_cases character.toLower with ⟨_, above, _⟩ | ⟨_, same⟩
    · omega
    · exact same
  · rw [same, same]

@[simp]
theorem isWhitespace_toLower (character : Char) :
    isWhitespace character.toLower = isWhitespace character := by
  rcases toLower_cases character with ⟨low, high, moved⟩ | ⟨_, same⟩
  · have before : isWhitespace character = false := by
      simp only [isWhitespace]
      grind
    have after : isWhitespace character.toLower = false := by
      simp only [isWhitespace, moved]
      grind
    rw [before, after]
  · rw [same]

theorem trim_map_toLower (text : List Char) :
    trim (String.ofList (text.map Char.toLower)) =
      String.ofList ((trim (String.ofList text)).toList.map Char.toLower) := by
  have spaces : isWhitespace ∘ Char.toLower = isWhitespace := funext isWhitespace_toLower
  simp only [trim, String.toList_ofList, List.dropWhile_map, spaces,
    ← List.map_reverse]

end KnotEditor
