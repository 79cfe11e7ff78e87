import KnotEditor.Mora.MaximalOnset

/-! Perfect rhyme, as the code tests it and as it is documented. The test looks at the one phone
before the nucleus where the documented meaning compares whole onsets. -/

namespace KnotEditor.Mora

abbrev Pronunciation := List Phone × List Syllable

def rhymeAnchor (word : Pronunciation) : Option Syllable :=
  (word.2.reverse.find? fun syllable =>
    word.1[syllable.nucleus]?.any fun phone => phone.stress == .primary) <|> word.2.getLast?

def rhymeStart (word : Pronunciation) : Option Nat := (rhymeAnchor word).map Syllable.nucleus

def rhymeTail (word : Pronunciation) : List Phone :=
  match rhymeStart word with
  | some i => word.1.drop i
  | none => []

def idsEqual (a b : List Phone) : Bool :=
  a.length == b.length && (a.zip b).all fun pair => pair.1.id == pair.2.id

/-- What `is_perfect_rhyme` calls the onset: the phone right before the rhyme, if there is one. -/
def phoneBefore (word : Pronunciation) : Option UInt16 :=
  match rhymeStart word with
  | some (i + 1) => word.1[i]?.map Phone.id
  | _ => none

def isPerfectRhyme (a b : Pronunciation) : Bool :=
  if (rhymeTail a).isEmpty || !idsEqual (rhymeTail a) (rhymeTail b) then false
  else phoneBefore a != phoneBefore b

def firstVowel (tail : List Phone) : Option UInt16 := (tail.find? Phone.isVowel).map Phone.id

def consonants (tail : List Phone) : List Phone := tail.filter fun phone => !phone.isVowel

def isSlantRhyme (a b : Pronunciation) : Bool :=
  let ta := rhymeTail a
  let tb := rhymeTail b
  if ta.isEmpty || tb.isEmpty || idsEqual ta tb then false
  else
    let consonantsAgree := !(consonants ta).isEmpty && idsEqual (consonants ta) (consonants tb)
    let vowelsAgree := (firstVowel ta).isSome && firstVowel ta == firstVowel tb
    consonantsAgree != vowelsAgree

def isAssonant (a b : Pronunciation) : Bool :=
  match rhymeStart a, rhymeStart b with
  | some i, some j => a.1[i]?.map Phone.id == b.1[j]?.map Phone.id
  | _, _ => false

def firstOnset (word : Pronunciation) : Option UInt16 :=
  word.2.head?.bind fun syllable =>
    if syllable.nucleus - syllable.start = 0 then none else word.1[syllable.start]?.map Phone.id

def isAlliterative (a b : Pronunciation) : Bool :=
  match firstOnset a, firstOnset b with
  | some x, some y => x == y
  | _, _ => false

def syllabified (phones : List Phone) (rule : SyllableRule) : Pronunciation :=
  (phones, syllabify phones rule)

def ids (phones : List Phone) : List UInt16 := phones.map Phone.id

def anchorOnset (word : Pronunciation) : List UInt16 :=
  match rhymeAnchor word with
  | some anchor => ids (anchor.onset word.1)
  | none => []

def SameTail (a b : Pronunciation) : Prop :=
  rhymeTail a ≠ [] ∧ ids (rhymeTail a) = ids (rhymeTail b)

/-- Perfect rhyme as documented: the same from the stressed nucleus on, behind another onset. -/
def RhymesPerfectly (a b : Pronunciation) : Prop :=
  SameTail a b ∧ anchorOnset a ≠ anchorOnset b

structure MeansPerfectRhyme (a b : Pronunciation) : Prop where
  documented : isPerfectRhyme a b = true ↔ RhymesPerfectly a b
  symmetric : isPerfectRhyme a b = isPerfectRhyme b a
  irreflexive : isPerfectRhyme a a = false
  assonant : isPerfectRhyme a b = true → isAssonant a b = true
  unslanted : isPerfectRhyme a b = true → isSlantRhyme a b = false

/-- The single phone before the nucleus tells the two onsets apart. Two onsets that differ must end
differently; behind two empty onsets the earlier syllables must end alike; and where one onset is
empty its word must not have the other's last consonant there. -/
def LastPhoneDecides (a b : Pronunciation) : Prop :=
  match anchorOnset a, anchorOnset b with
  | [], [] => phoneBefore a = phoneBefore b
  | _ :: _, _ :: _ =>
    anchorOnset a = anchorOnset b ∨ (anchorOnset a).getLast? ≠ (anchorOnset b).getLast?
  | _, _ => phoneBefore a ≠ phoneBefore b

section Relations

variable {a b : Pronunciation}

theorem idsEqual_iff (left : List Phone) :
    ∀ right, idsEqual left right = true ↔ ids left = ids right := by
  induction left with
  | nil =>
    intro right
    cases right <;> simp [idsEqual, ids]
  | cons phone rest ih =>
    intro right
    cases right with
    | nil => simp [idsEqual, ids]
    | cons other others =>
      have tail := ih others
      simp only [idsEqual, ids, Bool.and_eq_true, beq_iff_eq] at tail
      simp [idsEqual, ids, ← tail]
      tauto

theorem isPerfectRhyme_iff :
    isPerfectRhyme a b = true ↔ SameTail a b ∧ phoneBefore a ≠ phoneBefore b := by
  rw [isPerfectRhyme, SameTail, ← idsEqual_iff]
  split
  · case isTrue unmatched =>
      simp only [Bool.or_eq_true, List.isEmpty_iff, Bool.not_eq_true'] at unmatched
      rcases unmatched with empty | different
      · simp [empty]
      · simp [different]
  · case isFalse matched =>
      simp only [Bool.or_eq_true, List.isEmpty_iff, Bool.not_eq_true', not_or,
        Bool.not_eq_false] at matched
      simp [matched.1, matched.2]

theorem sameTail_symm (same : SameTail a b) : SameTail b a := by
  refine ⟨?_, same.2.symm⟩
  intro empty
  have none_ := same.2
  rw [empty] at none_
  exact same.1 (List.map_eq_nil_iff.mp none_)

theorem isPerfectRhyme_comm (a b : Pronunciation) : isPerfectRhyme a b = isPerfectRhyme b a := by
  rw [Bool.eq_iff_iff, isPerfectRhyme_iff, isPerfectRhyme_iff]
  exact ⟨fun rhyme => ⟨sameTail_symm rhyme.1, rhyme.2.symm⟩,
    fun rhyme => ⟨sameTail_symm rhyme.1, rhyme.2.symm⟩⟩

theorem isPerfectRhyme_self (a : Pronunciation) : isPerfectRhyme a a = false := by
  rw [Bool.eq_false_iff, ne_eq, isPerfectRhyme_iff]
  exact fun rhyme => rhyme.2 rfl

theorem isAssonant_of_sameTail (same : SameTail a b) : isAssonant a b = true := by
  obtain ⟨present, matched⟩ := same
  have heads := congrArg List.head? matched
  cases first : rhymeStart a with
  | none => simp [rhymeTail, first] at present
  | some i =>
    cases second : rhymeStart b with
    | none =>
      simp [rhymeTail, first, second, ids] at matched present
      omega
    | some j =>
      simpa [rhymeTail, first, second, ids, isAssonant, List.head?_drop] using heads

theorem isSlantRhyme_of_sameTail (same : SameTail a b) : isSlantRhyme a b = false := by
  have equal := (idsEqual_iff _ _).mpr same.2
  simp [isSlantRhyme, equal]

end Relations

theorem rhymeAnchor_mem (word : Pronunciation) (anchor : Syllable)
    (found : rhymeAnchor word = some anchor) : anchor ∈ word.2 := by
  rw [rhymeAnchor] at found
  cases stressed : word.2.reverse.find? fun syllable =>
      word.1[syllable.nucleus]?.any fun phone => phone.stress == .primary with
  | some syllable =>
    simp only [stressed] at found
    cases found
    exact List.mem_reverse.mp (List.mem_of_find?_eq_some stressed)
  | none =>
    simp only [stressed] at found
    exact List.mem_of_getLast? found

theorem syllabified_framed (phones : List Phone) (rule : SyllableRule) (syllable : Syllable)
    (member : syllable ∈ syllabify phones rule) :
    syllable.start ≤ syllable.nucleus ∧ syllable.nucleus < phones.length := by
  rcases vowels : vowelsFrom 0 phones with _ | ⟨nucleus, rest⟩
  · rw [syllabify_silent phones rule vowels] at member
    cases member
  · have tiling := syllabify_tiling phones rule nucleus rest vowels
    have framed := tiling.framed syllable member
    refine ⟨framed.1, vowelAt_lt phones syllable.nucleus ?_⟩
    exact (tiling.vowels syllable.nucleus (Nat.zero_le _)).mpr ⟨syllable, member, rfl⟩

theorem phoneBefore_eq_getLast? (phones : List Phone) (rule : SyllableRule)
    (present : anchorOnset (syllabified phones rule) ≠ []) :
    phoneBefore (syllabified phones rule) =
      (anchorOnset (syllabified phones rule)).getLast? := by
  rw [anchorOnset] at present ⊢
  rw [phoneBefore, rhymeStart]
  cases found : rhymeAnchor (syllabified phones rule) with
  | none => simp [found] at present
  | some anchor =>
    have member := rhymeAnchor_mem _ anchor found
    obtain ⟨framed, inside⟩ := syllabified_framed phones rule anchor member
    simp only [found, Option.map_some] at present ⊢
    have open_ : anchor.start < anchor.nucleus := by
      by_contra closed
      apply present
      have none_ : anchor.nucleus - anchor.start = 0 := by omega
      simp [ids, Syllable.onset, none_]
    obtain ⟨before, next⟩ : ∃ before, anchor.nucleus = before + 1 :=
      ⟨anchor.nucleus - 1, by omega⟩
    have count : (anchor.onset phones).length = anchor.nucleus - anchor.start := by
      rw [Syllable.onset, List.length_take, List.length_drop]
      omega
    have last : (anchor.onset phones).getLast? = phones[before]? := by
      rw [List.getLast?_eq_getElem?, count, Syllable.onset, List.getElem?_take, if_pos (by omega),
        List.getElem?_drop]
      congr 1
      omega
    rw [next]
    simp only [syllabified, ids, List.getLast?_map, last]

theorem decides_iff (a b : Pronunciation)
    (first : anchorOnset a ≠ [] → phoneBefore a = (anchorOnset a).getLast?)
    (second : anchorOnset b ≠ [] → phoneBefore b = (anchorOnset b).getLast?) :
    (phoneBefore a ≠ phoneBefore b ↔ anchorOnset a ≠ anchorOnset b) ↔ LastPhoneDecides a b := by
  rw [LastPhoneDecides]
  cases left : anchorOnset a with
  | nil =>
    cases right : anchorOnset b with
    | nil => simp
    | cons phone rest => simp
  | cons phone rest =>
    cases right : anchorOnset b with
    | nil => simp
    | cons other others =>
      rw [left] at first
      rw [right] at second
      rw [first (by simp), second (by simp)]
      by_cases same : phone :: rest = other :: others
      · simp [same]
      · simp [same]

/-- The code means perfect rhyme as it documents it wherever one phone is enough to compare the
onsets of words with the same tail. -/
theorem is_perfect_rhyme_means_iff (left right : List Phone) (leftRule rightRule : SyllableRule) :
    MeansPerfectRhyme (syllabified left leftRule) (syllabified right rightRule) ↔
      (SameTail (syllabified left leftRule) (syllabified right rightRule) →
        LastPhoneDecides (syllabified left leftRule) (syllabified right rightRule)) := by
  have decides := decides_iff (syllabified left leftRule) (syllabified right rightRule)
    (phoneBefore_eq_getLast? left leftRule) (phoneBefore_eq_getLast? right rightRule)
  constructor
  · intro means same
    rw [← decides]
    have documented := means.documented
    rw [isPerfectRhyme_iff, RhymesPerfectly, and_congr_right_iff] at documented
    exact documented same
  · intro told
    refine ⟨?_, isPerfectRhyme_comm _ _, isPerfectRhyme_self _, ?_, ?_⟩
    · rw [isPerfectRhyme_iff, RhymesPerfectly, and_congr_right_iff]
      exact fun same => decides.mpr (told same)
    · exact fun rhyme => isAssonant_of_sameTail (isPerfectRhyme_iff.mp rhyme).1
    · exact fun rhyme => isSlantRhyme_of_sameTail (isPerfectRhyme_iff.mp rhyme).1

def play : List Phone := [⟨1, .stop, false, .none⟩, ⟨2, .liquid, false, .none⟩,
  ⟨3, .vowel, true, .primary⟩]

def lay : List Phone := play.drop 1

/-- The words end alike and their onsets differ, but not in the last consonant. -/
theorem play_and_lay_do_not_rhyme :
    RhymesPerfectly (syllabified play .english) (syllabified lay .english) ∧
      isPerfectRhyme (syllabified play .english) (syllabified lay .english) = false ∧
      ¬ MeansPerfectRhyme (syllabified play .english) (syllabified lay .english) := by
  have documented : RhymesPerfectly (syllabified play .english) (syllabified lay .english) :=
    ⟨⟨by decide, by decide⟩, by decide⟩
  have refused : isPerfectRhyme (syllabified play .english) (syllabified lay .english) = false := by
    decide
  refine ⟨documented, refused, ?_⟩
  intro means
  rw [means.documented.mpr documented] at refused
  cases refused

end KnotEditor.Mora
