import KnotEditor.Library.Fallible
import KnotEditor.Text
import KnotEditor.Utf8

/-! The byte offsets at which a source can be cut, and what lies around a cut. -/

namespace KnotEditor

section splitting

variable {text front back : List Char} {count more : Nat}

theorem splitAtByte_spec (split : splitAtByte text count = some (front, back)) :
    front ++ back = text ∧ (utf8Bytes front).length = count := by
  induction text, count using splitAtByte.induct generalizing front with
  | case1 rest =>
    simp only [splitAtByte, Option.some.injEq, Prod.mk.injEq] at split
    obtain ⟨rfl, rfl⟩ := split
    exact ⟨rfl, rfl⟩
  | case2 count => cases split
  | case3 character rest count fits ih =>
    rw [splitAtByte, if_pos fits] at split
    obtain ⟨⟨ahead, behind⟩, later, same⟩ := Option.map_eq_some_iff.mp split
    cases same
    obtain ⟨whole, size⟩ := ih later
    refine ⟨congrArg (character :: ·) whole, ?_⟩
    rw [utf8Bytes_cons, List.length_append, String.length_utf8EncodeChar, size]
    omega
  | case4 character rest count exceeds =>
    rw [splitAtByte, if_neg exceeds] at split
    cases split

theorem splitAtByte_append (front back : List Char) :
    splitAtByte (front ++ back) (utf8Bytes front).length = some (front, back) := by
  induction front with
  | nil => cases back <;> rfl
  | cons character rest ih =>
    have positive := character.utf8Size_pos
    obtain ⟨count, size⟩ : ∃ count, character.utf8Size + (utf8Bytes rest).length = count + 1 :=
      ⟨character.utf8Size + (utf8Bytes rest).length - 1, by omega⟩
    rw [utf8Bytes_cons, List.length_append, String.length_utf8EncodeChar, List.cons_append, size,
      splitAtByte, if_pos (by omega), ← size, Nat.add_sub_cancel_left, ih]
    rfl

theorem splitAtByte_later (first : splitAtByte text count = some (front, back))
    (second : (splitAtByte text more).isSome) (below : count ≤ more) :
    (splitAtByte back (more - count)).isSome := by
  obtain ⟨⟨longer, rest⟩, split⟩ := Option.isSome_iff_exists.mp second
  obtain ⟨rfl, size⟩ := splitAtByte_spec first
  obtain ⟨whole, sizes⟩ := splitAtByte_spec split
  rcases List.append_eq_append_iff.mp whole with ⟨added, same, tail⟩ | ⟨added, same, tail⟩
  · rw [same, utf8Bytes_append, List.length_append] at size
    have none_ : (utf8Bytes added).length = 0 := by omega
    have equal : more - count = 0 := by omega
    rw [equal, splitAtByte]
    rfl
  · rw [tail, ← sizes, same, utf8Bytes_append, List.length_append, size, Nat.add_sub_cancel_left,
      splitAtByte_append]
    rfl

end splitting

theorem eq_nil_of_utf8Bytes {text : List Char} (none_ : (utf8Bytes text).length = 0) : text = [] := by
  cases text with
  | nil => rfl
  | cons character rest =>
    have positive := character.utf8Size_pos
    rw [utf8Bytes_cons, List.length_append, String.length_utf8EncodeChar] at none_
    omega

/-- The byte offset lies between two characters of the source, or at one of its ends. -/
def CharBoundary (source : String) (offset : Nat) : Prop :=
  (splitAtByte source.toList offset).isSome = true

deriving instance DecidableEq for SourceRange

theorem sourceRange_eq_some_iff {source : String} {start finish : Nat} {range : SourceRange} :
    sourceRange source start finish = some range ↔ start ≤ finish ∧
      ∃ rest, splitAtByte source.toList start = some (range.before, rest) ∧
        splitAtByte rest (finish - start) = some (range.inside, range.after) := by
  obtain ⟨before, inside, after⟩ := range
  refine Fallible.refuse_eq_some_iff.trans (and_congr Nat.not_lt ?_)
  constructor
  · intro sliced
    obtain ⟨⟨front, rest⟩, first, sliced⟩ := Option.bind_eq_some_iff.mp sliced
    obtain ⟨⟨inside, after⟩, second, same⟩ := Option.bind_eq_some_iff.mp sliced
    cases same
    exact ⟨rest, first, second⟩
  · rintro ⟨rest, first, second⟩
    exact Option.bind_eq_some_iff.mpr ⟨_, first, Option.bind_eq_some_iff.mpr ⟨_, second, rfl⟩⟩

theorem sourceRange_append {source : String} {before inside after : List Char} {start finish : Nat}
    (whole : source.toList = before ++ inside ++ after) (first : start = (utf8Bytes before).length)
    (last : finish = start + (utf8Bytes inside).length) :
    sourceRange source start finish = some ⟨before, inside, after⟩ := by
  refine sourceRange_eq_some_iff.mpr ⟨by omega, inside ++ after, ?_, ?_⟩
  · rw [whole, List.append_assoc, first, splitAtByte_append]
  · rw [last, Nat.add_sub_cancel_left, splitAtByte_append]

theorem sourceRange_of_boundaries {source : String} {start finish : Nat} (ordered : start ≤ finish)
    (first : CharBoundary source start) (second : CharBoundary source finish) :
    ∃ range, sourceRange source start finish = some range := by
  obtain ⟨⟨before, rest⟩, split⟩ := Option.isSome_iff_exists.mp first
  obtain ⟨⟨inside, after⟩, later⟩ :=
    Option.isSome_iff_exists.mp (splitAtByte_later split second ordered)
  exact ⟨⟨before, inside, after⟩, sourceRange_eq_some_iff.mpr ⟨ordered, rest, split, later⟩⟩

theorem sourceRange_spec {source : String} {start finish : Nat} {range : SourceRange}
    (sliced : sourceRange source start finish = some range) :
    source.toList = range.before ++ range.inside ++ range.after ∧
      start = (utf8Bytes range.before).length ∧
      finish = start + (utf8Bytes range.inside).length := by
  obtain ⟨ordered, rest, first, second⟩ := sourceRange_eq_some_iff.mp sliced
  obtain ⟨whole, starts⟩ := splitAtByte_spec first
  obtain ⟨tail, size⟩ := splitAtByte_spec second
  refine ⟨by rw [← whole, ← tail, List.append_assoc], starts.symm, by omega⟩

theorem charBoundary_end (source : String) : CharBoundary source source.utf8ByteSize := by
  have whole := splitAtByte_append source.toList []
  rw [List.append_nil, length_utf8Bytes] at whole
  rw [CharBoundary, whole]
  rfl

end KnotEditor
