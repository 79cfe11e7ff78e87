import KnotEditor.Readings.MetreScene

/-! The metre export loses no syllable. What it notices of a change in the text is a change of the
words in the selection, and of their places. -/

namespace KnotEditor.Readings

variable {alphabet : Alphabet} {dictionary : Cmudict} {host : SceneHost}

def tokenRange (token : SoundToken) : Nat × Nat := (token.start, token.finish)

structure ExportedLine (dictionary : Cmudict) (text : List Char) (source : SceneSource)
    (tokens : List SoundToken) (line : VerseLine) (range : Nat × Nat) : Prop where
  key : line.key = s!"bytes-{range.1}-{range.2}"
  source : line.source = ⟨"knot.document-range", s!"{source.id}#bytes={range.1}..{range.2}"⟩
  text : slice text range.1 range.2 = some line.text.toList
  syllables : line.syllables = (tokens.filter (within range)).flatMap (syllablesOf dictionary)

/-- Lines over ranges from an offset on, and the tokens that are still to be exported. -/
structure ExportsFrom (dictionary : Cmudict) (text : List Char) (source : SceneSource)
    (tokens present : List SoundToken) (offset : Nat) (lines : List VerseLine)
    (ranges : List (Nat × Nat)) : Prop where
  matched : List.Forall₂ (ExportedLine dictionary text source tokens) lines ranges
  increasing : ranges.Pairwise fun earlier later => earlier.2 ≤ later.1
  bounded : ∀ range ∈ ranges, offset ≤ range.1 ∧ range.1 < range.2
  once : ∀ token ∈ present, ranges.countP (within · token) = 1
  spoken : Spoken dictionary present (lines.flatMap VerseLine.syllables)

theorem isWordCharacter_lineEnd {character : Char} (ends : isLineEnd character = true) :
    alphabet.isWordCharacter character = false := by
  refine isWordCharacter_space ?_
  simp only [isLineEnd, Bool.or_eq_true, beq_iff_eq] at ends
  rcases ends with rfl | rfl <;> rfl

theorem trimLineEnd_of_unstopped {body : List Char}
    (unstopped : ∀ character ∈ body, isLineEnd character = false) : trimLineEnd body = body := by
  rw [trimLineEnd]
  cases reversed : body.reverse with
  | nil => rw [List.reverse_eq_nil_iff.mp reversed]; rfl
  | cons last others =>
    have open_ := unstopped last (by rw [← List.mem_reverse, reversed]; exact List.mem_cons_self)
    rw [List.dropWhile_cons_of_neg (by simp [open_]), ← reversed, List.reverse_reverse]

theorem trimLineEnd_closed {body : List Char}
    (unstopped : ∀ character ∈ body, isLineEnd character = false) {last : Char}
    (stops : isLineEnd last = true) : trimLineEnd (body ++ [last]) = body := by
  rw [trimLineEnd, List.reverse_append, List.reverse_singleton, List.singleton_append,
    List.dropWhile_cons_of_pos stops, ← trimLineEnd, trimLineEnd_of_unstopped unstopped]

def TokensOf (alphabet : Alphabet) (tokens : List SoundToken) (text : List Char) (offset : Nat) :
    Prop :=
  tokens.map tokenRange = (words alphabet text).map (wordRange offset)

theorem TokensOf.bounds {tokens : List SoundToken} {text : List Char} {offset : Nat}
    (of : TokensOf alphabet tokens text offset) {token : SoundToken} (member : token ∈ tokens) :
    offset ≤ token.start ∧ token.start < token.finish ∧
      token.finish ≤ offset + (utf8Bytes text).length := by
  have place : tokenRange token ∈ (words alphabet text).map (wordRange offset) :=
    of ▸ List.mem_map_of_mem member
  obtain ⟨run, found, same⟩ := List.mem_map.mp place
  have bounds := wordRange_within found offset
  rw [same] at bounds
  exact bounds

theorem TokensOf.closed {tokens : List SoundToken} {body rest : List Char} {last : Char}
    {offset : Nat} (of : TokensOf alphabet tokens (body ++ last :: rest) offset)
    (stops : isLineEnd last = true) :
    ∃ here later, tokens = here ++ later ∧ TokensOf alphabet here body offset ∧
      TokensOf alphabet later rest (offset + (utf8Bytes (body ++ [last])).length) := by
  rw [TokensOf, words_append_outside (isWordCharacter_lineEnd stops), List.map_append,
    List.map_eq_append_iff] at of
  obtain ⟨here, later, rfl, first, second⟩ := of
  refine ⟨here, later, rfl, first, ?_⟩
  rw [TokensOf, second, List.map_map]
  exact List.map_congr_left fun run _ => wordRange_behind ..

theorem filter_within {past here later : List SoundToken} {offset finish : Nat}
    (before : ∀ token ∈ past, token.start < offset)
    (inside : ∀ token ∈ here, offset ≤ token.start ∧ token.finish ≤ finish)
    (after : ∀ token ∈ later, finish < token.finish) :
    (past ++ here ++ later).filter (within (offset, finish)) = here := by
  have none_ : past.filter (within (offset, finish)) = [] := by
    refine List.filter_eq_nil_iff.mpr ?_
    intro token member
    have small := before token member
    simp only [within, Bool.and_eq_true, decide_eq_true_eq]
    omega
  have all : here.filter (within (offset, finish)) = here := by
    refine List.filter_eq_self.mpr ?_
    intro token member
    simpa [within] using inside token member
  have rest : later.filter (within (offset, finish)) = [] := by
    refine List.filter_eq_nil_iff.mpr ?_
    intro token member
    have large := after token member
    simp only [within, Bool.and_eq_true, decide_eq_true_eq]
    omega
  rw [List.filter_append, List.filter_append, none_, all, rest, List.append_nil, List.nil_append]

section lines

variable {text : List Char} {source : SceneSource} {tokens here later : List SoundToken}
  {first second : List VerseLine} {front back : List (Nat × Nat)} {offset middle : Nat}

theorem Spoken.append {one two : List SceneSyllable} (before : Spoken dictionary here one)
    (after : Spoken dictionary later two) : Spoken dictionary (here ++ later) (one ++ two) where
  known := by
    rw [List.forall_mem_append]
    exact ⟨before.known, after.known⟩
  spoken := by rw [List.flatMap_append, before.spoken, after.spoken]

theorem ExportsFrom.append
    (before : ExportsFrom dictionary text source tokens here offset first front)
    (after : ExportsFrom dictionary text source tokens later middle second back)
    (ordered : offset ≤ middle) (ends : ∀ range ∈ front, range.2 ≤ middle)
    (early : ∀ token ∈ here, token.start < middle)
    (late : ∀ token ∈ later, middle < token.finish) :
    ExportsFrom dictionary text source tokens (here ++ later) offset (first ++ second)
      (front ++ back) where
  matched := List.rel_append before.matched after.matched
  increasing := by
    refine List.pairwise_append.mpr ⟨before.increasing, after.increasing, ?_⟩
    intro range member other behind
    exact Nat.le_trans (ends range member) (after.bounded other behind).1
  bounded := by
    intro range member
    rcases List.mem_append.mp member with ahead | behind
    · exact before.bounded range ahead
    · exact ⟨Nat.le_trans ordered (after.bounded range behind).1, (after.bounded range behind).2⟩
  once := by
    intro token member
    rw [List.countP_append]
    rcases List.mem_append.mp member with ahead | behind
    · have none_ : back.countP (within · token) = 0 := by
        refine List.countP_eq_zero.mpr ?_
        intro range inside
        have low := (after.bounded range inside).1
        have small := early token ahead
        simp only [within, Bool.and_eq_true, decide_eq_true_eq]
        omega
      rw [before.once token ahead, none_]
    · have none_ : front.countP (within · token) = 0 := by
        refine List.countP_eq_zero.mpr ?_
        intro range inside
        have high := ends range inside
        have large := late token behind
        simp only [within, Bool.and_eq_true, decide_eq_true_eq]
        omega
      rw [after.once token behind, none_]
  spoken := by
    rw [List.flatMap_append]
    exact before.spoken.append after.spoken

theorem exports_of_line {finish : Nat} {body : List Char} {lines : List VerseLine}
    (held : tokens.filter (within (offset, finish)) = here)
    (bounds : ∀ token ∈ here, offset ≤ token.start ∧ token.start < token.finish ∧
      token.finish ≤ finish)
    (sliced : slice text offset finish = some body)
    (made : lineOver dictionary text source tokens (offset, finish) = .ok lines) :
    ∃ ranges, ExportsFrom dictionary text source tokens here offset lines ranges ∧
      ∀ range ∈ ranges, range.2 = finish := by
  simp only [lineOver, held] at made
  cases here with
  | nil =>
    cases made
    exact ⟨[], ⟨.nil, .nil, by simp, by simp, ⟨by simp, rfl⟩⟩, by simp⟩
  | cons token others =>
    obtain ⟨line, read, rfl⟩ := Fallible.map_eq_ok_iff.mp made
    have spoken := spoken_of_readLine read
    have some_ := bounds token List.mem_cons_self
    refine ⟨[(offset, finish)], ⟨?_, List.pairwise_singleton _ _, ?_, ?_, ?_⟩, by simp⟩
    · refine .cons ⟨rfl, rfl, ?_, ?_⟩ .nil
      · simp only [verseLine, sliced, Option.getD_some, String.toList_ofList]
      · rw [held]
        exact spoken.spoken
    · intro range member
      rw [List.mem_singleton.mp member]
      exact ⟨Nat.le_refl _, by omega⟩
    · intro other member
      have inside := bounds other member
      rw [List.countP_singleton, if_pos]
      simp [within, inside]
    · rw [List.flatMap_singleton]
      exact spoken

theorem exports_of_verseLines (rest : List Char) {before after : List Char}
    {past present : List SoundToken} {lines : List VerseLine}
    (whole : text = before ++ rest ++ after) (all : tokens = past ++ present)
    (early : ∀ token ∈ past, token.start < (utf8Bytes before).length)
    (of : TokensOf alphabet present rest (utf8Bytes before).length)
    (made : verseLines dictionary text source tokens (utf8Bytes before).length
      (Pieces.pieces isLineEnd [] rest) = .ok lines) :
    ∃ ranges, ExportsFrom dictionary text source tokens present (utf8Bytes before).length lines
      ranges := by
  induction rest using @Pieces.induct _ isLineEnd generalizing before past present lines with
  | empty =>
    have none_ : present = [] := List.map_eq_nil_iff.mp of
    subst none_
    cases made
    exact ⟨[], .nil, .nil, by simp, by simp, ⟨by simp, rfl⟩⟩
  | unclosed body some_ unstopped =>
    rw [Pieces.pieces_of_unstopped unstopped some_, verseLines] at made
    obtain ⟨here, first, later⟩ := Fallible.bind_eq_ok_iff.mp made
    cases later
    rw [trimLineEnd_of_unstopped unstopped] at first
    have inside := fun token (member : token ∈ present) => of.bounds member
    have sliced : slice text (utf8Bytes before).length
        ((utf8Bytes before).length + (utf8Bytes body).length) = some body := by
      rw [whole]
      exact slice_append before body after
    have held := @filter_within _ _ [] _ _ early
      (fun token member => ⟨(inside token member).1, (inside token member).2.2⟩)
      (List.forall_mem_nil _)
    rw [List.append_nil, ← all] at held
    obtain ⟨ranges, exports, _⟩ := exports_of_line held inside sliced first
    rw [List.append_nil]
    exact ⟨ranges, exports⟩
  | closed body last rest unstopped stops ih =>
    rw [Pieces.pieces_append_stop unstopped stops, verseLines] at made
    obtain ⟨lead, first, remaining⟩ := Fallible.bind_eq_ok_iff.mp made
    obtain ⟨tail, second, done⟩ := Fallible.bind_eq_ok_iff.mp remaining
    cases done
    obtain ⟨here, later, rfl, ofHere, ofLater⟩ := of.closed stops
    rw [trimLineEnd_closed unstopped stops] at first
    have size : (utf8Bytes (body ++ [last])).length =
        (utf8Bytes body).length + (String.utf8EncodeChar last).length := by
      rw [utf8Bytes_append, utf8Bytes_cons, utf8Bytes_nil, List.append_nil, List.length_append]
    have sliced : slice text (utf8Bytes before).length
        ((utf8Bytes before).length + (utf8Bytes body).length) = some body := by
      rw [whole, ← List.append_assoc, List.append_assoc _ (last :: rest)]
      exact slice_append before body (last :: rest ++ after)
    have inside := fun token (member : token ∈ here) => ofHere.bounds member
    have outside := fun token (member : token ∈ later) => ofLater.bounds member
    have beyond : ∀ token ∈ later,
        (utf8Bytes before).length + (utf8Bytes body).length < token.finish := by
      intro token member
      have low := outside token member
      omega
    have held := filter_within early
      (fun token member => ⟨(inside token member).1, (inside token member).2.2⟩) beyond
    rw [List.append_assoc, ← all] at held
    obtain ⟨front, exports, ends⟩ := exports_of_line held inside sliced first
    have start : (utf8Bytes before).length + (utf8Bytes (body ++ [last])).length =
        (utf8Bytes (before ++ (body ++ [last]))).length := by
      rw [utf8Bytes_append before, List.length_append]
    rw [start] at second ofLater
    have gone : ∀ token ∈ past ++ here,
        token.start < (utf8Bytes (before ++ (body ++ [last]))).length := by
      intro token member
      rw [← start]
      rcases List.mem_append.mp member with long | now
      · have small := early token long
        omega
      · have small := inside token now
        omega
    have parts : text = before ++ (body ++ [last]) ++ rest ++ after := by
      simp only [whole, List.append_assoc, List.singleton_append]
    have held_ : tokens = past ++ here ++ later := by rw [all, List.append_assoc]
    obtain ⟨back, others⟩ := ih parts held_ gone ofLater second
    rw [← start] at others
    refine ⟨front ++ back, exports.append others (by omega) ?_ ?_ ?_⟩
    · intro range member
      rw [ends range member]
      omega
    · intro token member
      have small := inside token member
      omega
    · intro token member
      have large := outside token member
      omega

end lines

section exporting

variable {text : List Char} {reading : SoundReading} {source : SceneSource}
  {template : MetreTemplate} {input : SceneInput}

theorem assignGroups_exports {tokens : List SoundToken} (groups : List (Option String))
    {lines : List VerseLine} {ranges : List (Nat × Nat)}
    (matched : List.Forall₂ (ExportedLine dictionary text source tokens) lines ranges) :
    List.Forall₂ (ExportedLine dictionary text source tokens) (assignGroups lines groups) ranges := by
  induction matched generalizing groups with
  | nil => exact .nil
  | cons first rest ih =>
    cases groups with
    | nil => exact .cons first rest
    | cons group groups => exact .cons ⟨first.key, first.source, first.text, first.syllables⟩ (ih _)

theorem assignGroups_syllables (lines : List VerseLine) (groups : List (Option String)) :
    (assignGroups lines groups).flatMap VerseLine.syllables =
      lines.flatMap VerseLine.syllables := by
  induction lines generalizing groups with
  | nil => rfl
  | cons line rest ih =>
    cases groups with
    | nil => rfl
    | cons group groups => rw [assignGroups, List.flatMap_cons, ih, List.flatMap_cons]

theorem tokensOf_forall₂ {choices : List (Nat × Nat)} {ranges : List ((Nat × Nat) × Nat)}
    {tokens : List SoundToken}
    (read : List.Forall₂ (fun range token => ReadFrom dictionary text choices range.1 range.2 token)
      ranges tokens) : tokens.map tokenRange = ranges.map Prod.fst := by
  induction read with
  | nil => rfl
  | cons first _ ih => rw [List.map_cons, List.map_cons, ih, tokenRange, first.start, first.finish]

theorem word_of_forall₂ {choices : List (Nat × Nat)} {ranges : List ((Nat × Nat) × Nat)}
    {tokens : List SoundToken}
    (read : List.Forall₂ (fun range token => ReadFrom dictionary text choices range.1 range.2 token)
      ranges tokens) :
    ∀ token ∈ tokens, token.word = String.ofList ((slice text token.start token.finish).getD []) := by
  induction read with
  | nil => exact List.forall_mem_nil _
  | cons first _ ih =>
    rw [List.forall_mem_cons, first.start, first.finish]
    exact ⟨first.word, ih⟩

/-- A reading says of the text what reading it again would say, the same variants chosen. -/
def Current (alphabet : Alphabet) (dictionary : Cmudict) (text : List Char)
    (reading : SoundReading) : Prop :=
  ∃ again, analyze alphabet dictionary text reading.selection (choicesOf reading.tokens) {} =
    .ok again ∧ again.tokens = reading.tokens

def Resolved (reading : SoundReading) : Prop :=
  reading.unresolved = [] ∧ ∀ token ∈ reading.tokens, token.selected ≠ none

theorem Current.tokens (current : Current alphabet dictionary text reading) :
    ∃ selected, slice text reading.selection.1 reading.selection.2 = some selected ∧
      TokensOf alphabet reading.tokens selected reading.selection.1 ∧
      ∀ token ∈ reading.tokens,
        token.word = String.ofList ((slice text token.start token.finish).getD []) := by
  obtain ⟨again, analyzed, same⟩ := current
  obtain ⟨selected, sliced, read⟩ := (analyzed_of_ok analyzed).sliced
  rw [same] at read
  refine ⟨selected, sliced, ?_, word_of_forall₂ read⟩
  rw [TokensOf, tokensOf_forall₂ read, List.zipIdx_map_fst, tokenize_eq]

structure LosesNothing (alphabet : Alphabet) (dictionary : Cmudict) (text : List Char)
    (source : SceneSource) (reading : SoundReading) (input : SceneInput) : Prop where
  current : Current alphabet dictionary text reading
  resolved : Resolved reading
  words : ∃ selected, slice text reading.selection.1 reading.selection.2 = some selected ∧
    TokensOf alphabet reading.tokens selected reading.selection.1 ∧
    ∀ token ∈ reading.tokens,
      token.word = String.ofList ((slice text token.start token.finish).getD [])
  exported : ∃ ranges, ExportsFrom dictionary text source reading.tokens reading.tokens
    reading.selection.1 input.facts.lines ranges

theorem losesNothing_of_ok
    (made : metreScene alphabet dictionary host text reading source template = .ok input) :
    LosesNothing alphabet dictionary text source reading input := by
  simp only [metreScene, Fallible.refuse_eq_ok_iff, Fallible.bind_eq_ok_iff] at made
  obtain ⟨again, analyzed, accepted, lines, listed, _, _, revision, _, _, _, done⟩ := made
  cases done
  simp only [not_or, not_not, Bool.not_eq_true, List.any_eq_false, Option.isNone_iff_eq_none]
    at accepted
  have current : Current alphabet dictionary text reading := ⟨again, analyzed, accepted.1⟩
  refine ⟨current, accepted.2, current.tokens, ?_⟩
  obtain ⟨selected, sliced, of, _⟩ := current.tokens
  obtain ⟨front, after, whole, start⟩ := slice_eq_some sliced
  rw [sliced, Option.getD_some, start] at listed
  rw [start] at of
  obtain ⟨ranges, exports⟩ :=
    exports_of_verseLines selected whole (List.nil_append _).symm (List.forall_mem_nil _) of listed
  rw [← start] at exports
  refine ⟨ranges, assignGroups_exports _ exports.matched, exports.increasing, exports.bounded,
    exports.once, ?_⟩
  rw [assignGroups_syllables]
  exact exports.spoken

end exporting

/-- Every syllable of a reading is exported once and in its line, and a reading that is not current
or not resolved is refused. -/
theorem metre_scene_loses_nothing (alphabet : Alphabet) (dictionary : Cmudict) (host : SceneHost)
    (text : List Char) (reading : SoundReading) (source : SceneSource) (template : MetreTemplate) :
    (∀ input, metreScene alphabet dictionary host text reading source template = .ok input →
      LosesNothing alphabet dictionary text source reading input) ∧
    (¬ Current alphabet dictionary text reading ∨ ¬ Resolved reading →
      ∃ error, metreScene alphabet dictionary host text reading source template = .error error) := by
  refine ⟨fun input made => losesNothing_of_ok made, ?_⟩
  intro stale
  cases made : metreScene alphabet dictionary host text reading source template with
  | error error => exact ⟨error, rfl⟩
  | ok input =>
    have kept := losesNothing_of_ok made
    rcases stale with changed | unresolved
    · exact absurd kept.current changed
    · exact absurd kept.resolved unresolved

section nights

def nightly : Cmudict where
  entries word :=
    if word = "the" then some [[⟨9, .fricative, false, .none⟩, ⟨2, .vowel, false, .unstressed⟩]]
    else if word = "night" then
      some [[⟨22, .nasal, false, .none⟩, ⟨5, .vowel, true, .primary⟩, ⟨30, .stop, false, .none⟩]]
    else if word = "light" then
      some [[⟨20, .liquid, false, .none⟩, ⟨5, .vowel, true, .primary⟩, ⟨30, .stop, false, .none⟩]]
    else none

def anyScene : SceneHost where
  version := 1
  revision _ _ _ := .ok ""
  compile _ := .ok ()

def night (mark : Char) : List Char := "the night".toList ++ mark :: "\nthe light".toList

def poem : SceneSource := ⟨"knot.document", "file:///poem.djot"⟩

def couplet : MetreTemplate := ⟨1, 2, [some "A", some "A"]⟩

def nightReading : SoundReading where
  selection := (0, 20)
  tokens := [⟨"the", 0, 3, ["DH AH0"], some 0, true⟩, ⟨"night", 4, 9, ["N AY1 T"], some 0, true⟩,
    ⟨"the", 11, 14, ["DH AH0"], some 0, true⟩, ⟨"light", 15, 20, ["L AY1 T"], some 0, true⟩]
  relations := []
  meter := none
  unresolved := []

theorem analyze_night :
    analyze asciiAlphabet nightly (night ',') (0, 20) [] {} = .ok nightReading := by
  decide

theorem metreScene_night (mark : Char) (ends : mark = ',' ∨ mark = '.') :
    ∃ input, metreScene asciiAlphabet nightly anyScene (night mark) nightReading poem couplet =
      .ok input := by
  rw [← Fallible.isOk_iff]
  rcases ends with rfl | rfl <;> decide

theorem metre_scene_loses_nothing_night :
    ∃ input, metreScene asciiAlphabet nightly anyScene (night ',') nightReading poem couplet =
        .ok input ∧
      LosesNothing asciiAlphabet nightly (night ',') poem nightReading input := by
  obtain ⟨input, made⟩ := metreScene_night ',' (.inl rfl)
  exact ⟨input, made, (metre_scene_loses_nothing asciiAlphabet nightly anyScene (night ',')
    nightReading poem couplet).1 input made⟩

/-- A reading of another text is exported when only marks have changed. -/
theorem metre_scene_takes_a_changed_text :
    ¬ ∀ (alphabet : Alphabet) (dictionary : Cmudict) (host : SceneHost)
      (original text : List Char) (selection : Nat × Nat) (choices : List (Nat × Nat))
      (layers : SoundLayers) (reading : SoundReading) (source : SceneSource)
      (template : MetreTemplate),
      analyze alphabet dictionary original selection choices layers = .ok reading →
        original ≠ text →
          ∃ error, metreScene alphabet dictionary host text reading source template =
            .error error := by
  intro refused
  obtain ⟨error, failed⟩ := refused asciiAlphabet nightly anyScene (night ',') (night '.') (0, 20) []
    {} nightReading poem couplet analyze_night (by decide)
  obtain ⟨input, made⟩ := metreScene_night '.' (.inr rfl)
  rw [made] at failed
  cases failed

end nights

end KnotEditor.Readings
