import KnotEditor.Rosette

/-! The rosette's tokenizer and the one of sound readings: two scans, one over trimmed lines and one
over the whole text, that find the same words and look them up alike. -/

namespace KnotEditor.Rosette

open Readings (Alphabet Cmudict SoundLayers SoundReading SoundToken ReadFrom analyze analyzed_of_ok
  lookup normalize slice slice_append spells straighten toAsciiLowercase tokenize tokenize_eq
  wordRange words words_white)

variable {alphabet : Alphabet} {dictionary : Cmudict}

def Token.range (token : Token) : Nat × Nat := (token.start, token.finish)

def documentTokens (alphabet : Alphabet) (text : List Char) : List Token :=
  (parseDocument alphabet text).1.flatMap Line.tokens

section tokens

theorem flatMap_tokens (segments : List (List Char)) (offset : Nat)
    (clean : TerminatedLines.AllButLast (TerminatedLines.Terminated '\n') segments) :
    (linesFrom alphabet offset segments).flatMap Line.tokens =
      (words alphabet segments.flatten).map (tokenOf offset) := by
  induction segments generalizing offset with
  | nil => rfl
  | cons segment rest ih =>
    have alone : (linesFrom alphabet offset [segment]).flatMap Line.tokens =
        (words alphabet segment).map (tokenOf offset) := by
      cases empty : blank segment with
      | false => simp [linesFrom, placed, filled, empty, lineAt]
      | true =>
        have none_ := @words_white alphabet _ (List.all_eq_true.mp empty) []
        rw [List.append_nil] at none_
        rw [none_]
        simp [linesFrom, placed, filled, empty, words]
    have parts := @linesFrom_append alphabet offset [segment] rest
    rw [List.singleton_append, List.flatten_cons, List.flatten_nil, List.append_nil] at parts
    rw [parts, List.flatMap_append, alone, List.flatten_cons]
    by_cases last : rest = []
    · rw [last]
      simp [linesFrom, placed]
    · rw [TerminatedLines.allButLast_cons last] at clean
      rw [words_terminated clean.1, List.map_append, List.map_map, ih _ clean.2]
      exact congrArg _ (List.map_congr_left fun run _ => (tokenOf_behind ..).symm)

theorem documentTokens_eq (text : List Char) :
    documentTokens alphabet text = (words alphabet text).map (tokenOf 0) := by
  have found := @flatMap_tokens alphabet (segments text) 0
    (TerminatedLines.split_allButLast text [])
  rw [segments_flatten] at found
  rw [documentTokens, parseDocument_eq]
  exact found

theorem range_tokenOf (offset : Nat) (run : List Char × List Char) :
    (tokenOf offset run).range = wordRange offset run := rfl

end tokens

section lookups

theorem normalize_toAsciiLowercase (word : List Char) :
    normalize (String.ofList (toAsciiLowercase word)) = normalize (String.ofList word) := by
  simp only [Readings.normalize, toAsciiLowercase, trim_map_toLower, String.toList_ofList,
    List.map_map]
  exact congrArg _ (List.map_congr_left fun character _ => toLower_toLower character)

theorem resolves_tokenOf (offset : Nat) (run : List Char × List Char) :
    resolves dictionary (tokenOf offset run) = !(lookup dictionary run.2).isEmpty := by
  simp only [resolves, tokenOf, Cmudict.pronunciations, normalize_toAsciiLowercase, lookup]
  cases dictionary.entries (normalize (String.ofList (straighten run.2))) <;> rfl

theorem slice_of_mem_words {text : List Char} {run : List Char × List Char}
    (member : run ∈ words alphabet text) :
    slice text (wordRange 0 run).1 (wordRange 0 run).2 = some run.2 := by
  simp only [wordRange, Nat.zero_add]
  exact Readings.slice_of_mem_runs (List.mem_of_mem_filter member)

def rangeResolves (dictionary : Cmudict) (text : List Char) (range : Nat × Nat) : Bool :=
  !(lookup dictionary ((slice text range.1 range.2).getD [])).isEmpty

theorem resolved_ranges (text : List Char) :
    ((documentTokens alphabet text).filter (resolves dictionary)).map Token.range =
      (tokenize alphabet text 0).filter (rangeResolves dictionary text) := by
  rw [documentTokens_eq, tokenize_eq, List.filter_map, List.filter_map, List.map_map]
  refine congrArg _ (List.filter_congr ?_)
  intro run member
  simp only [Function.comp_apply, resolves_tokenOf, rangeResolves, slice_of_mem_words member,
    Option.getD_some]

theorem slice_whole (text : List Char) : slice text 0 (utf8Bytes text).length = some text := by
  have whole := slice_append [] text []
  simpa using whole

def soundRange (token : SoundToken) : Nat × Nat := (token.start, token.finish)

theorem filter_of_readFrom {text : List Char} {choices : List (Nat × Nat)}
    {ranges : List ((Nat × Nat) × Nat)} {tokens : List SoundToken}
    (read : List.Forall₂ (fun range token => ReadFrom dictionary text choices range.1 range.2 token)
      ranges tokens) :
    (tokens.filter fun token => token.selected.isSome).map soundRange =
      (ranges.map Prod.fst).filter (rangeResolves dictionary text) := by
  induction read with
  | nil => rfl
  | @cons range token ranges tokens first _ ih =>
    have place : soundRange token = range.1 := Prod.ext first.start first.finish
    have same : token.selected.isSome = rangeResolves dictionary text range.1 := by
      rw [first.selected, rangeResolves]
      split
      next none_ => rw [none_]; rfl
      next some_ => rw [eq_false_of_ne_true some_]; rfl
    rw [List.map_cons, List.filter_cons, List.filter_cons, same]
    split
    · rw [List.map_cons, ih, place]
    · exact ih

theorem resolved_of_analyze {text : List Char} {choices : List (Nat × Nat)} {layers : SoundLayers}
    {reading : SoundReading}
    (done : analyze alphabet dictionary text (0, (utf8Bytes text).length) choices layers =
      .ok reading) :
    (reading.tokens.filter fun token => token.selected.isSome).map soundRange =
      ((documentTokens alphabet text).filter (resolves dictionary)).map Token.range := by
  obtain ⟨selected, sliced, read⟩ := (analyzed_of_ok done).sliced
  rw [slice_whole, Option.some_inj] at sliced
  subst sliced
  rw [filter_of_readFrom read, List.zipIdx_map_fst, resolved_ranges]

end lookups

section stanzas

theorem flatMap_ordinals (before held rest : List (List Char))
    (within : ∀ segment ∈ held, filled segment = true) :
    (Runs.runs filled before held rest).flatMap ordinals =
      List.range' (before.countP filled) (held.length + rest.countP filled) := by
  induction rest generalizing before held with
  | nil =>
    rw [Runs.runs]
    split
    next none_ => simp [List.isEmpty_iff.mp none_]
    next => simp [ordinals]
  | cons segment rest ih =>
    rw [Runs.runs]
    split
    next some_ =>
      rw [ih _ _ (by simpa [or_imp, forall_and] using ⟨within, some_⟩),
        List.countP_cons_of_pos some_, List.length_append, List.length_singleton]
      congr 1
      omega
    next empty_ =>
      have first : (if held.isEmpty then [] else [(before, held)]).flatMap ordinals =
          List.range' (before.countP filled) held.length := by
        split
        next none_ => simp [List.isEmpty_iff.mp none_]
        next => simp [ordinals]
      rw [List.flatMap_append, first, ih _ _ (List.forall_mem_nil _),
        List.countP_cons_of_neg empty_, List.countP_append, List.countP_append,
        List.countP_eq_length.mpr within, List.countP_cons_of_neg empty_, List.countP_nil,
        Nat.add_zero, List.length_nil, Nat.zero_add, List.range'_append_1]

end stanzas

/-- Both tokenizers find the maximal runs of word characters that have a letter, and nothing else;
the lines are the segments that are not blank, trimmed, and the stanzas their maximal runs. -/
structure TokenizersAgree (alphabet : Alphabet) (dictionary : Cmudict) (text : List Char) :
    Prop where
  ranges : (documentTokens alphabet text).map Token.range = tokenize alphabet text 0
  maximal : ∀ start finish, (start, finish) ∈ tokenize alphabet text 0 ↔
    ∃ before word after, text = before ++ word ++ after ∧ start = (utf8Bytes before).length ∧
      finish = start + (utf8Bytes word).length ∧
      Runs.IsRun alphabet.isWordCharacter before word after ∧
      ∃ character ∈ word, alphabet.isAlphabetic character = true
  lookups : ((documentTokens alphabet text).filter (resolves dictionary)).map Token.range =
    (tokenize alphabet text 0).filter (rangeResolves dictionary text)
  resolved : ∀ choices layers reading,
    analyze alphabet dictionary text (0, (utf8Bytes text).length) choices layers = .ok reading →
      (reading.tokens.filter fun token => token.selected.isSome).map soundRange =
        ((documentTokens alphabet text).filter (resolves dictionary)).map Token.range
  lines : (parseDocument alphabet text).1.map (fun line => (line.start, line.finish)) =
    ((placed 0 (segments text)).filter fun entry => filled entry.2).map fun entry =>
      trimmedRange entry.1 entry.2
  stanzas : ∀ indices, indices ∈ (parseDocument alphabet text).2.map Stanza.lines ↔
    ∃ before run after, segments text = before ++ run ++ after ∧ Runs.IsRun filled before run after ∧
      indices = List.range' (before.countP filled) run.length
  grouped : (parseDocument alphabet text).2.flatMap Stanza.lines =
    List.range (parseDocument alphabet text).1.length
  spans : ∀ stanza ∈ (parseDocument alphabet text).2,
    stanza = stanzaOf (parseDocument alphabet text).1 stanza.lines

theorem tokenizers_agree (alphabet : Alphabet) (dictionary : Cmudict) (text : List Char) :
    TokenizersAgree alphabet dictionary text where
  ranges := by
    rw [documentTokens_eq, tokenize_eq, List.map_map]
    exact List.map_congr_left fun run _ => range_tokenOf 0 run
  maximal := by
    intro start finish
    rw [tokenize_eq, List.mem_map]
    constructor
    · rintro ⟨⟨before, word⟩, member, same⟩
      obtain ⟨found, spelled⟩ := List.mem_filter.mp member
      obtain ⟨after, whole, run⟩ := Runs.mem_runs_iff.mp found
      cases same
      exact ⟨before, word, after, whole, Nat.zero_add _, rfl, run, List.any_eq_true.mp spelled⟩
    · rintro ⟨before, word, after, whole, rfl, rfl, run, spelled⟩
      refine ⟨(before, word), List.mem_filter.mpr ⟨?_, List.any_eq_true.mpr spelled⟩, ?_⟩
      · exact Runs.mem_runs_iff.mpr ⟨after, whole, run⟩
      · simp only [wordRange, Nat.zero_add]
  lookups := resolved_ranges text
  resolved _ _ _ done := resolved_of_analyze done
  lines := by
    rw [parseDocument_eq, linesFrom, List.map_map]
    rfl
  stanzas := by
    intro indices
    rw [parseDocument_eq, List.map_map, List.mem_map]
    constructor
    · rintro ⟨⟨before, run⟩, member, rfl⟩
      obtain ⟨after, whole, found⟩ := Runs.mem_runs_iff.mp member
      exact ⟨before, run, after, whole, found, rfl⟩
    · rintro ⟨before, run, after, whole, found, rfl⟩
      exact ⟨(before, run), Runs.mem_runs_iff.mpr ⟨after, whole, found⟩, rfl⟩
  grouped := by
    rw [parseDocument_eq, length_linesFrom, List.range_eq_range', List.flatMap_map]
    have all := flatMap_ordinals [] [] (segments text) (List.forall_mem_nil _)
    rw [List.length_nil, Nat.zero_add, List.countP_nil] at all
    exact all
  spans := by
    rw [parseDocument_eq]
    intro stanza member
    obtain ⟨run, _, rfl⟩ := List.mem_map.mp member
    rfl

end KnotEditor.Rosette
