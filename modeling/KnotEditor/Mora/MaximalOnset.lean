import KnotEditor.Mora.Syllable

/-! The three passes over the buffer write a maximal-onset tiling of the phones. The tiling is
stated on its own; the code's buffer is then shown to hold one. -/

namespace KnotEditor.Mora

def VowelAt (phones : List Phone) (i : Nat) : Prop :=
  ∃ phone, phones[i]? = some phone ∧ phone.isVowel = true

def Syllable.onset (syllable : Syllable) (phones : List Phone) : List Phone :=
  (phones.drop syllable.start).take (syllable.nucleus - syllable.start)

structure LongestOnset (phones : List Phone) (rule : SyllableRule) (before after : Syllable) :
    Prop where
  consonants : ∀ phone ∈ clusterBetween phones before.nucleus after.nucleus,
    phone.isVowel = false
  suffix : after.onset phones <:+ clusterBetween phones before.nucleus after.nucleus
  bounded : (after.onset phones).length ≤ rule.maxOnset
  legal : isLegalOnset (after.onset phones) rule = true
  longest : ∀ onset, onset <:+ clusterBetween phones before.nucleus after.nucleus →
    onset.length ≤ rule.maxOnset → isLegalOnset onset rule = true →
      onset.length ≤ (after.onset phones).length

/-- The syllables tile the phones from `start` to the end, one to each vowel there. -/
structure MaximalOnsetTiling (phones : List Phone) (rule : SyllableRule) (start : Nat)
    (syllables : List Syllable) : Prop where
  vowels : ∀ i, start ≤ i → (VowelAt phones i ↔ ∃ syllable ∈ syllables, syllable.nucleus = i)
  ordered : syllables.Pairwise fun before after => before.nucleus < after.nucleus
  framed : ∀ syllable ∈ syllables,
    syllable.start ≤ syllable.nucleus ∧ syllable.nucleus < syllable.finish
  onlyVowel : ∀ syllable ∈ syllables, ∀ i, syllable.start ≤ i → i < syllable.finish →
    (VowelAt phones i ↔ i = syllable.nucleus)
  opens : syllables.head?.map Syllable.start = some start
  closes : syllables.getLast?.map Syllable.finish = some phones.length
  abuts : syllables.IsChain fun before after => before.finish = after.start
  onsets : syllables.IsChain (LongestOnset phones rule)

theorem findDown_spec (accepts : Nat → Bool) (count : Nat) :
    ((List.range' 1 count).reverse.find? accepts).getD 0 ≤ count ∧
      (((List.range' 1 count).reverse.find? accepts).getD 0 = 0 ∨
        accepts (((List.range' 1 count).reverse.find? accepts).getD 0) = true) ∧
      ∀ take, take ≤ count → accepts take = true →
        take ≤ ((List.range' 1 count).reverse.find? accepts).getD 0 := by
  induction count with
  | zero =>
    refine ⟨Nat.le_refl 0, Or.inl rfl, ?_⟩
    intro take bound _
    exact bound
  | succ count ih =>
    rw [List.range'_concat, List.reverse_append, List.reverse_singleton, List.singleton_append,
      List.find?_cons, Nat.one_mul, Nat.add_comm 1 count]
    cases accepted : accepts (count + 1) with
    | true =>
      refine ⟨Nat.le_refl _, Or.inr accepted, ?_⟩
      intro take bound _
      exact bound
    | false =>
      rcases ih with ⟨bounded, found, longest⟩
      refine ⟨Nat.le_succ_of_le bounded, found, ?_⟩
      intro take bound legal
      have other : take ≠ count + 1 := by
        intro same
        rw [same, accepted] at legal
        cases legal
      exact longest take (by omega) legal

variable (phones : List Phone) (rule : SyllableRule) (start nucleus : Nat) (rest : List Nat)

theorem isLegalOnset_nil : isLegalOnset [] rule = true := by
  simp [isLegalOnset]

theorem isLegalOnset_bounded (cluster : List Phone) (rule : SyllableRule)
    (legal : isLegalOnset cluster rule = true) : cluster.length ≤ rule.maxOnset := by
  by_cases long : cluster.length > rule.maxOnset
  · simp [isLegalOnset, long] at legal
  · omega

theorem onsetTake_bounded (cluster : List Phone) (rule : SyllableRule) :
    onsetTake cluster rule ≤ cluster.length ∧ onsetTake cluster rule ≤ rule.maxOnset := by
  have bound := (findDown_spec (fun take =>
    isLegalOnset (cluster.drop (cluster.length - take)) rule)
    (min cluster.length rule.maxOnset)).1
  simp only [onsetTake]
  omega

theorem onsetTake_legal (cluster : List Phone) (rule : SyllableRule) :
    isLegalOnset (cluster.drop (cluster.length - onsetTake cluster rule)) rule = true := by
  have found := (findDown_spec (fun take =>
    isLegalOnset (cluster.drop (cluster.length - take)) rule)
    (min cluster.length rule.maxOnset)).2.1
  rcases found with empty | legal
  · have none : onsetTake cluster rule = 0 := empty
    rw [none, Nat.sub_zero, List.drop_length]
    exact isLegalOnset_nil rule
  · exact legal

theorem onsetTake_longest (cluster onset : List Phone) (rule : SyllableRule)
    (suffix : onset <:+ cluster) (legal : isLegalOnset onset rule = true) :
    onset.length ≤ onsetTake cluster rule := by
  have bounded := isLegalOnset_bounded onset rule legal
  have fits := suffix.length_le
  have longest := (findDown_spec (fun take =>
    isLegalOnset (cluster.drop (cluster.length - take)) rule)
    (min cluster.length rule.maxOnset)).2.2
  refine longest onset.length (by omega) ?_
  rw [List.suffix_iff_eq_drop.mp suffix] at legal
  exact legal

theorem clusterBetween_length (left right : Nat) (inside : right ≤ phones.length) :
    (clusterBetween phones left right).length = right - (left + 1) := by
  simp only [clusterBetween, List.length_take, List.length_drop]
  omega

theorem clusterBetween_drop (left right take : Nat) (inside : right ≤ phones.length)
    (order : left < right) (bound : take ≤ right - (left + 1)) :
    (clusterBetween phones left right).drop ((clusterBetween phones left right).length - take) =
      (phones.drop (right - take)).take (right - (right - take)) := by
  rw [clusterBetween_length phones left right inside, clusterBetween, List.drop_take,
    List.drop_drop]
  congr 1
  · omega
  · congr 1
    omega

theorem mem_clusterBetween (left right : Nat) (phone : Phone)
    (member : phone ∈ clusterBetween phones left right) :
    ∃ i, left < i ∧ i < right ∧ phones[i]? = some phone := by
  rcases List.mem_iff_getElem?.mp member with ⟨k, found⟩
  simp only [clusterBetween, List.getElem?_take, List.getElem?_drop] at found
  by_cases inside : k < right - (left + 1)
  · rw [if_pos inside] at found
    exact ⟨left + 1 + k, by omega, by omega, found⟩
  · rw [if_neg inside] at found
    cases found

def tile (phones : List Phone) (rule : SyllableRule) (start nucleus : Nat) :
    List Nat → List Syllable
  | [] => [⟨start, nucleus, phones.length⟩]
  | next :: rest =>
    let split := next - onsetTake (clusterBetween phones nucleus next) rule
    ⟨start, nucleus, split⟩ :: tile phones rule split next rest

theorem tile_head :
    ∃ finish others, tile phones rule start nucleus rest = ⟨start, nucleus, finish⟩ :: others := by
  cases rest with
  | nil => exact ⟨_, _, rfl⟩
  | cons next rest => exact ⟨_, _, rfl⟩

theorem split_between (nucleus next : Nat) (order : nucleus < next)
    (inside : next < phones.length) :
    nucleus < next - onsetTake (clusterBetween phones nucleus next) rule := by
  have bound := (onsetTake_bounded (clusterBetween phones nucleus next) rule).1
  rw [clusterBetween_length phones nucleus next (Nat.le_of_lt inside)] at bound
  omega

theorem longestOnset_of_split (before after : Syllable) (order : before.nucleus < after.nucleus)
    (inside : after.nucleus < phones.length)
    (split : after.start = after.nucleus -
      onsetTake (clusterBetween phones before.nucleus after.nucleus) rule)
    (silent : ∀ i, before.nucleus < i → i < after.nucleus → ¬ VowelAt phones i) :
    LongestOnset phones rule before after := by
  have bounds := onsetTake_bounded (clusterBetween phones before.nucleus after.nucleus) rule
  have lengthEq := clusterBetween_length phones before.nucleus after.nucleus
    (Nat.le_of_lt inside)
  have dropped := clusterBetween_drop phones before.nucleus after.nucleus
    (onsetTake (clusterBetween phones before.nucleus after.nucleus) rule)
    (Nat.le_of_lt inside) order (by omega)
  have onsetEq : after.onset phones =
      (clusterBetween phones before.nucleus after.nucleus).drop
        ((clusterBetween phones before.nucleus after.nucleus).length -
          onsetTake (clusterBetween phones before.nucleus after.nucleus) rule) := by
    rw [dropped, Syllable.onset, split]
  have onsetLength : (after.onset phones).length =
      onsetTake (clusterBetween phones before.nucleus after.nucleus) rule := by
    rw [onsetEq, List.length_drop]
    omega
  refine ⟨?_, ?_, ?_, ?_, ?_⟩
  · intro phone member
    rcases mem_clusterBetween phones _ _ phone member with ⟨i, above, below, found⟩
    cases vowel : phone.isVowel with
    | false => rfl
    | true => exact absurd ⟨phone, found, vowel⟩ (silent i above below)
  · rw [onsetEq]
    exact List.drop_suffix _ _
  · rw [onsetLength]
    exact bounds.2
  · rw [onsetEq]
    exact onsetTake_legal _ rule
  · intro onset suffix _ legal
    rw [onsetLength]
    exact onsetTake_longest _ onset rule suffix legal

theorem vowelAt_lt (i : Nat) (vowel : VowelAt phones i) :
    i < phones.length := by
  rcases vowel with ⟨phone, found, _⟩
  exact (List.getElem?_eq_some_iff.mp found).1

theorem tiling_single (low : start ≤ nucleus)
    (vowels : ∀ i, start ≤ i → (VowelAt phones i ↔ i = nucleus)) :
    MaximalOnsetTiling phones rule start [⟨start, nucleus, phones.length⟩] where
  vowels := by
    intro i above
    rw [vowels i above]
    constructor
    · intro same
      exact ⟨_, List.mem_singleton_self _, same.symm⟩
    · rintro ⟨syllable, member, same⟩
      rw [List.mem_singleton.mp member] at same
      exact same.symm
  ordered := List.pairwise_singleton _ _
  framed := by
    intro syllable member
    rw [List.mem_singleton.mp member]
    exact ⟨low, vowelAt_lt phones nucleus ((vowels nucleus low).mpr rfl)⟩
  onlyVowel := by
    intro syllable member i above _
    rw [List.mem_singleton.mp member] at above ⊢
    exact vowels i above
  opens := rfl
  closes := rfl
  abuts := List.IsChain.singleton _
  onsets := List.IsChain.singleton _

theorem tiling_start_le {phones : List Phone} {rule : SyllableRule} {next : Syllable}
    {others : List Syllable}
    (tail : MaximalOnsetTiling phones rule next.start (next :: others)) :
    ∀ syllable ∈ next :: others, next.start ≤ syllable.nucleus := by
  intro syllable member
  have frame := tail.framed next List.mem_cons_self
  rcases List.mem_cons.mp member with here | later
  · rw [here]
    exact frame.1
  · have order := (List.pairwise_cons.mp tail.ordered).1 syllable later
    omega

theorem tiling_cons (start : Nat) (first next : Syllable) (others : List Syllable)
    (tail : MaximalOnsetTiling phones rule next.start (next :: others))
    (opens : first.start = start) (abut : first.finish = next.start)
    (framed : first.start ≤ first.nucleus ∧ first.nucleus < first.finish)
    (onlyVowel : ∀ i, first.start ≤ i → i < first.finish → (VowelAt phones i ↔ i = first.nucleus))
    (onset : LongestOnset phones rule first next) :
    MaximalOnsetTiling phones rule start (first :: next :: others) where
  vowels := by
    intro i above
    by_cases inside : i < first.finish
    · rw [onlyVowel i (by omega) inside]
      constructor
      · intro same
        exact ⟨first, List.mem_cons_self, same.symm⟩
      · rintro ⟨syllable, member, same⟩
        rcases List.mem_cons.mp member with here | later
        · rw [← same, here]
        · have beyond := tiling_start_le tail syllable later
          omega
    · rw [tail.vowels i (by omega)]
      constructor
      · rintro ⟨syllable, member, same⟩
        exact ⟨syllable, List.mem_cons_of_mem _ member, same⟩
      · rintro ⟨syllable, member, same⟩
        rcases List.mem_cons.mp member with here | later
        · rw [here] at same
          omega
        · exact ⟨syllable, later, same⟩
  ordered := by
    rw [List.pairwise_cons]
    refine ⟨?_, tail.ordered⟩
    intro syllable member
    have beyond := tiling_start_le tail syllable member
    omega
  framed := List.forall_mem_cons.mpr ⟨framed, tail.framed⟩
  onlyVowel := List.forall_mem_cons.mpr ⟨onlyVowel, tail.onlyVowel⟩
  opens := congrArg some opens
  closes := tail.closes
  abuts := List.IsChain.cons_cons abut tail.abuts
  onsets := List.IsChain.cons_cons onset tail.onsets

theorem tile_tiling (low : start ≤ nucleus)
    (vowels : ∀ i, start ≤ i → (VowelAt phones i ↔ i = nucleus ∨ i ∈ rest))
    (ordered : (nucleus :: rest).Pairwise (· < ·)) :
    MaximalOnsetTiling phones rule start (tile phones rule start nucleus rest) := by
  induction rest generalizing start nucleus with
  | nil =>
    refine tiling_single phones rule start nucleus low ?_
    intro i above
    rw [vowels i above, or_iff_left List.not_mem_nil]
  | cons next rest ih =>
    rw [List.pairwise_cons] at ordered
    have order : nucleus < next := ordered.1 next List.mem_cons_self
    have nextVowel : VowelAt phones next :=
      (vowels next (by omega)).mpr (Or.inr List.mem_cons_self)
    have inside := vowelAt_lt phones next nextVowel
    have between := split_between phones rule nucleus next order inside
    have splitLow : next - onsetTake (clusterBetween phones nucleus next) rule ≤ next :=
      Nat.sub_le _ _
    have lateVowels : ∀ i, next - onsetTake (clusterBetween phones nucleus next) rule ≤ i →
        (VowelAt phones i ↔ i = next ∨ i ∈ rest) := by
      intro i above
      rw [vowels i (by omega), List.mem_cons]
      exact or_iff_right (by omega)
    have tail := ih (next - onsetTake (clusterBetween phones nucleus next) rule) next splitLow
      lateVowels ordered.2
    have beyond : ∀ i ∈ next :: rest, next ≤ i := by
      intro i member
      rcases List.mem_cons.mp member with here | later
      · exact Nat.le_of_eq here.symm
      · exact Nat.le_of_lt ((List.pairwise_cons.mp ordered.2).1 i later)
    have silent : ∀ i, start ≤ i → i < next → (VowelAt phones i ↔ i = nucleus) := by
      intro i above below
      rw [vowels i above]
      refine or_iff_left ?_
      intro member
      have := beyond i member
      omega
    rcases tile_head phones rule
      (next - onsetTake (clusterBetween phones nucleus next) rule) next rest with
      ⟨finish, others, shape⟩
    simp only [tile]
    rw [shape] at tail ⊢
    refine tiling_cons phones rule start _ _ others tail rfl rfl ⟨low, between⟩ ?_ ?_
    · intro i above below
      simp only at above below
      exact silent i above (by omega)
    · refine longestOnset_of_split phones rule _ _ order inside rfl ?_
      intro i above below vowel
      simp only at above below
      have := (silent i (by omega) below).mp vowel
      omega

def vowelsFrom (index : Nat) : List Phone → List Nat
  | [] => []
  | phone :: rest =>
    if phone.isVowel then index :: vowelsFrom (index + 1) rest else vowelsFrom (index + 1) rest

def unitSyllable (i : Nat) : Syllable :=
  ⟨i, i, i + 1⟩

theorem mem_vowelsFrom (index i : Nat) :
    i ∈ vowelsFrom index phones ↔ index ≤ i ∧ VowelAt phones (i - index) := by
  induction phones generalizing index with
  | nil => simp [vowelsFrom, VowelAt]
  | cons phone rest ih =>
    by_cases here : i = index
    · subst here
      have later : ¬ i ∈ vowelsFrom (i + 1) rest := by
        rw [ih]
        omega
      cases vowel : phone.isVowel <;> simp [vowelsFrom, VowelAt, vowel, later]
    · have shift : index ≤ i → i - index = i - (index + 1) + 1 := by omega
      have tail : i ∈ vowelsFrom index (phone :: rest) ↔ i ∈ vowelsFrom (index + 1) rest := by
        cases vowel : phone.isVowel <;> simp [vowelsFrom, vowel, here]
      rw [tail, ih]
      constructor
      · rintro ⟨above, found⟩
        refine ⟨by omega, ?_⟩
        rw [shift (by omega)]
        exact found
      · rintro ⟨above, found⟩
        rw [shift above] at found
        exact ⟨by omega, found⟩

theorem vowelsFrom_ordered (index : Nat) :
    (vowelsFrom index phones).Pairwise (· < ·) := by
  induction phones generalizing index with
  | nil => exact List.Pairwise.nil
  | cons phone rest ih =>
    cases vowel : phone.isVowel with
    | false =>
      simp only [vowelsFrom, vowel, Bool.false_eq_true, if_false]
      exact ih (index + 1)
    | true =>
      simp only [vowelsFrom, vowel, if_true, List.pairwise_cons]
      refine ⟨?_, ih (index + 1)⟩
      intro i member
      have above := ((mem_vowelsFrom rest (index + 1) i).mp member).1
      omega

theorem vowelsFrom_length_le (index : Nat) :
    (vowelsFrom index phones).length ≤ phones.length := by
  induction phones generalizing index with
  | nil => exact Nat.le_refl 0
  | cons phone rest ih =>
    have bound := ih (index + 1)
    cases vowel : phone.isVowel <;> simp [vowelsFrom, vowel] <;> omega

theorem markNuclei_fits (index count : Nat) (out : List Syllable)
    (room : count + (vowelsFrom index phones).length ≤ out.length) :
    markNuclei index count out phones =
      (some (count + (vowelsFrom index phones).length),
        out.take count ++ (vowelsFrom index phones).map unitSyllable ++
          out.drop (count + (vowelsFrom index phones).length)) := by
  induction phones generalizing index count out with
  | nil => simp [markNuclei, vowelsFrom]
  | cons phone rest ih =>
    cases vowel : phone.isVowel with
    | false =>
      simp only [vowelsFrom, vowel, Bool.false_eq_true, if_false] at room ⊢
      simp only [markNuclei, vowel, Bool.false_eq_true, if_false]
      exact ih (index + 1) count out room
    | true =>
      simp only [vowelsFrom, vowel, if_true, List.length_cons] at room ⊢
      have inside : count < out.length := by omega
      have following := ih (index + 1) (count + 1) (out.set count (unitSyllable index))
        (by rw [List.length_set]; omega)
      have kept : (out.set count (unitSyllable index)).take (count + 1) =
          out.take count ++ [unitSyllable index] := by
        rw [List.take_add_one, List.take_set_of_le (Nat.le_refl count),
          List.getElem?_set_self inside]
        rfl
      have spare : (out.set count (unitSyllable index)).drop
          (count + 1 + (vowelsFrom (index + 1) rest).length) =
            out.drop (count + ((vowelsFrom (index + 1) rest).length + 1)) := by
        rw [List.drop_set_of_lt (by omega)]
        congr 1
        omega
      rw [kept, spare] at following
      simp only [markNuclei, vowel, if_true, ge_iff_le, Nat.not_le.mpr inside, if_false]
      rw [← unitSyllable, following]
      simp [Nat.add_assoc, Nat.add_comm]

theorem markNuclei_short (index count : Nat) (out : List Syllable)
    (short : out.length < count + (vowelsFrom index phones).length) (within : count ≤ out.length)
    : (markNuclei index count out phones).1 = none := by
  induction phones generalizing index count out with
  | nil =>
    simp only [vowelsFrom, List.length_nil] at short
    omega
  | cons phone rest ih =>
    cases vowel : phone.isVowel with
    | false =>
      simp only [vowelsFrom, vowel, Bool.false_eq_true, if_false] at short
      simp only [markNuclei, vowel, Bool.false_eq_true, if_false]
      exact ih (index + 1) count out short within
    | true =>
      simp only [vowelsFrom, vowel, if_true, List.length_cons] at short
      by_cases full : count ≥ out.length
      · simp only [markNuclei, vowel, full, if_true]
      · simp only [markNuclei, vowel, full, if_true, if_false]
        refine ih (index + 1) (count + 1) _ ?_ ?_
        · rw [List.length_set]
          omega
        · rw [List.length_set]
          omega

theorem divideCluster_at (written others : List Syllable) (before after : Syllable) (split : Nat)
    (splitEq : split = after.nucleus -
      onsetTake (clusterBetween phones before.nucleus after.nucleus) rule) :
    divideCluster phones rule (written ++ before :: after :: others) written.length =
      written ++ { before with finish := split } :: { after with start := split } :: others := by
  simp [divideCluster, splitEq]

theorem divideClusters_tile (written nexts spare : List Syllable) (current : Syllable)
    (closed : ((current :: nexts).getLast?.map Syllable.finish) = some phones.length) :
    (List.range' written.length nexts.length).foldl (divideCluster phones rule)
        (written ++ current :: (nexts ++ spare)) =
      written ++
        (tile phones rule current.start current.nucleus (nexts.map Syllable.nucleus) ++ spare) := by
  induction nexts generalizing written current with
  | nil =>
    have finishEq : current.finish = phones.length := Option.some.inj closed
    simp [tile, ← finishEq]
  | cons next rest ih =>
    generalize splitEq : next.nucleus -
      onsetTake (clusterBetween phones current.nucleus next.nucleus) rule = split
    have lastClosed : ({ next with start := split } :: rest).getLast?.map Syllable.finish =
        some phones.length := by
      rw [← closed]
      cases rest with
      | nil => rfl
      | cons later rest => simp only [List.getLast?_cons_cons]
    have following := ih (written ++ [{ current with finish := split }])
      { next with start := split } lastClosed
    simp only [List.length_append, List.length_singleton, List.append_assoc,
      List.singleton_append] at following
    simp only [List.length_cons, List.range'_succ, List.foldl_cons, List.cons_append,
      List.map_cons, tile]
    rw [divideCluster_at phones rule written (rest ++ spare) current next split splitEq.symm,
      following, splitEq]

theorem modify_length_append (change : Syllable → Syllable) (front : List Syllable)
    (syllable : Syllable) (spare : List Syllable) :
    (front ++ syllable :: spare).modify front.length change =
      front ++ change syllable :: spare := by
  induction front with
  | nil => rfl
  | cons first front ih =>
    rw [List.length_cons, List.cons_append, List.modify_succ_cons, ih]
    rfl

theorem modify_last_units (nucleus finish : Nat) (rest : List Nat) (spare : List Syllable) :
    ∃ current nexts,
      (⟨0, nucleus, nucleus + 1⟩ :: (rest.map unitSyllable ++ spare)).modify rest.length
          (fun syllable => { syllable with finish }) = current :: (nexts ++ spare) ∧
        current.start = 0 ∧ current.nucleus = nucleus ∧ nexts.map Syllable.nucleus = rest ∧
          (current :: nexts).getLast?.map Syllable.finish = some finish := by
  rcases List.eq_nil_or_concat rest with empty | ⟨front, last, shape⟩
  · subst empty
    exact ⟨⟨0, nucleus, finish⟩, [], rfl, rfl, rfl, rfl, rfl⟩
  · subst shape
    refine ⟨⟨0, nucleus, nucleus + 1⟩, front.map unitSyllable ++ [⟨last, last, finish⟩], ?_, rfl,
      rfl, ?_, ?_⟩
    · have modified := modify_length_append (fun syllable => { syllable with finish })
        (front.map unitSyllable) ⟨last, last, last + 1⟩ spare
      rw [List.length_map] at modified
      simp [unitSyllable, modified]
    · simp [unitSyllable, Function.comp_def]
    · rw [List.getLast?_cons, List.getLast?_append]
      rfl

theorem syllabifyInto_fits (out : List Syllable) (nucleus : Nat) (rest : List Nat)
    (vowels : vowelsFrom 0 phones = nucleus :: rest) (room : rest.length + 1 ≤ out.length) :
    syllabifyInto phones rule out =
      (some (rest.length + 1),
        tile phones rule 0 nucleus rest ++ out.drop (rest.length + 1)) := by
  have marked := markNuclei_fits phones 0 0 out (by rw [vowels, List.length_cons]; omega)
  rw [vowels, List.length_cons, Nat.zero_add, List.take_zero, List.nil_append, List.map_cons,
    List.cons_append] at marked
  rcases modify_last_units nucleus phones.length rest (out.drop (rest.length + 1)) with
    ⟨current, nexts, shape, start, same, nuclei, closed⟩
  have count : nexts.length = rest.length := by
    rw [← nuclei, List.length_map]
  have divided := divideClusters_tile phones rule [] nexts (out.drop (rest.length + 1)) current
    closed
  rw [List.nil_append, List.nil_append, start, same, nuclei, count, List.length_nil,
    ← List.range_eq_range'] at divided
  simp only [syllabifyInto, marked, List.modify_zero_cons, unitSyllable] at shape ⊢
  rw [shape, divided]

theorem tile_length : (tile phones rule start nucleus rest).length = rest.length + 1 := by
  induction rest generalizing start nucleus with
  | nil => rfl
  | cons next rest ih =>
    simp only [tile, List.length_cons]
    rw [ih]

theorem syllabify_eq_tile (nucleus : Nat) (rest : List Nat)
    (vowels : vowelsFrom 0 phones = nucleus :: rest) :
    syllabify phones rule = tile phones rule 0 nucleus rest := by
  have bound := vowelsFrom_length_le phones 0
  rw [vowels, List.length_cons] at bound
  rw [syllabify, syllabifyInto_fits phones rule _ nucleus rest vowels
    (by rw [List.length_replicate]; exact bound)]
  simp only [Option.getD_some]
  rw [← tile_length phones rule 0 nucleus rest, List.take_left]

theorem syllabify_tiling (nucleus : Nat) (rest : List Nat)
    (vowels : vowelsFrom 0 phones = nucleus :: rest) :
    MaximalOnsetTiling phones rule 0 (syllabify phones rule) := by
  have ordered := vowelsFrom_ordered phones 0
  rw [vowels] at ordered
  rw [syllabify_eq_tile phones rule nucleus rest vowels]
  refine tile_tiling phones rule 0 nucleus rest (Nat.zero_le _) ?_ ordered
  intro i _
  have member := mem_vowelsFrom phones 0 i
  rw [vowels, List.mem_cons] at member
  rw [member]
  exact ⟨fun vowel => ⟨Nat.zero_le i, vowel⟩, And.right⟩

theorem syllabify_silent (silent : vowelsFrom 0 phones = []) : syllabify phones rule = [] := by
  have marked := markNuclei_fits phones 0 0 (List.replicate phones.length ⟨0, 0, 0⟩)
    (by simp [silent])
  rw [silent, List.length_nil] at marked
  rw [syllabify, syllabifyInto, marked]
  rfl

/-- Syllabification is a maximal-onset tiling, and a caller's buffer receives the same syllables
exactly when it has a slot for each. -/
theorem syllabify_maximalOnset (phones : List Phone) (rule : SyllableRule)
    (voiced : ∃ phone ∈ phones, phone.isVowel = true) :
    MaximalOnsetTiling phones rule 0 (syllabify phones rule) ∧
      ∀ out : List Syllable,
        ((syllabify phones rule).length ≤ out.length →
          syllabifyInto phones rule out =
            (some (syllabify phones rule).length,
              syllabify phones rule ++ out.drop (syllabify phones rule).length)) ∧
        (out.length < (syllabify phones rule).length →
          (syllabifyInto phones rule out).1 = none) := by
  rcases vowels : vowelsFrom 0 phones with _ | ⟨nucleus, rest⟩
  · rcases voiced with ⟨phone, member, vowel⟩
    rcases List.mem_iff_getElem?.mp member with ⟨i, found⟩
    have listed := (mem_vowelsFrom phones 0 i).mpr ⟨Nat.zero_le i, phone, found, vowel⟩
    rw [vowels] at listed
    cases listed
  · have tiling := syllabify_tiling phones rule nucleus rest vowels
    rw [syllabify_eq_tile phones rule nucleus rest vowels] at tiling ⊢
    rw [tile_length]
    refine ⟨tiling, ?_⟩
    · intro out
      refine ⟨syllabifyInto_fits phones rule out nucleus rest vowels, ?_⟩
      intro short
      have unmarked := markNuclei_short phones 0 0 out
        (by rw [vowels, List.length_cons]; omega) (Nat.zero_le _)
      rcases marking : markNuclei 0 0 out phones with ⟨count, marked⟩
      rw [marking] at unmarked
      subst unmarked
      simp only [syllabifyInto, marking]

theorem syllabify_maximalOnset_onset :
    MaximalOnsetTiling [⟨1, .vowel, false, .none⟩, ⟨2, .nasal, false, .none⟩,
        ⟨3, .stop, false, .none⟩, ⟨4, .vowel, false, .none⟩] .english 0 [⟨0, 0, 2⟩, ⟨2, 3, 4⟩] :=
  (syllabify_maximalOnset [⟨1, .vowel, false, .none⟩, ⟨2, .nasal, false, .none⟩,
    ⟨3, .stop, false, .none⟩, ⟨4, .vowel, false, .none⟩] .english
    ⟨⟨1, .vowel, false, .none⟩, List.mem_cons_self, rfl⟩).1

end KnotEditor.Mora
