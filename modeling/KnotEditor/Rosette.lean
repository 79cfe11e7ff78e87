import KnotEditor.Library.TerminatedLines
import KnotEditor.Readings.Sound

/-! The lines, stanzas and word tokens of a document as the rosette places them. -/

namespace KnotEditor.Rosette

open Mora (Phone)
open Readings (Alphabet Cmudict slice spells scanWords straighten toAsciiLowercase tokenize words)

structure Token where
  start : Nat
  finish : Nat
  text : List Char
  normalized : List Char
  deriving DecidableEq

structure Line where
  start : Nat
  finish : Nat
  tokens : List Token
  deriving DecidableEq

structure Stanza where
  start : Nat
  finish : Nat
  lines : List Nat
  deriving DecidableEq

variable (alphabet : Alphabet)

def pushToken (line : List Char) (absoluteStart start finish : Nat) : Option Token :=
  (slice line start finish).bind fun text =>
    if spells alphabet text then
      some ⟨absoluteStart + start, absoluteStart + finish, text,
        toAsciiLowercase (straighten text)⟩
    else none

def tokens (line : List Char) (absoluteStart : Nat) : List Token :=
  scanWords alphabet (pushToken alphabet line absoluteStart) line

structure Parsing where
  lines : List Line := []
  stanzaLines : List Nat := []
  stanzas : List Stanza := []
  cursor : Nat := 0

def Parsing.finishStanza (state : Parsing) : Parsing :=
  match state.stanzaLines.head?, state.stanzaLines.getLast? with
  | some first, some last => { state with
      stanzaLines := []
      stanzas := state.stanzas ++ [⟨(state.lines[first]?.map Line.start).getD 0,
        (state.lines[last]?.map Line.finish).getD 0, state.stanzaLines⟩] }
  | _, _ => state

def stripSuffix (mark : Char) (line : List Char) : List Char :=
  if line.getLast? = some mark then line.dropLast else line

def rawLine (segment : List Char) : List Char := stripSuffix '\r' (stripSuffix '\n' segment)

def trimmed (line : List Char) : List Char := (trim (String.ofList line)).toList

def Parsing.segment (state : Parsing) (segment : List Char) : Parsing :=
  let raw := rawLine segment
  let leading := (utf8Bytes raw).length - (utf8Bytes (raw.dropWhile isWhitespace)).length
  if (trimmed raw).isEmpty then
    { state.finishStanza with cursor := state.cursor + (utf8Bytes segment).length }
  else
    let start := state.cursor + leading
    { state with
      lines := state.lines ++
        [⟨start, start + (utf8Bytes (trimmed raw)).length, tokens alphabet (trimmed raw) start⟩]
      stanzaLines := state.stanzaLines ++ [state.lines.length]
      cursor := state.cursor + (utf8Bytes segment).length }

/-- `text.split_inclusive('\n')` -/
def segments (text : List Char) : List (List Char) := TerminatedLines.split '\n' text []

def parseDocument (text : List Char) : List Line × List Stanza :=
  let state := ((segments text).foldl (Parsing.segment alphabet) {}).finishStanza
  (state.lines, state.stanzas)

def resolves (dictionary : Cmudict) (token : Token) : Bool :=
  (dictionary.pronunciations (String.ofList token.normalized)).any fun variants => !variants.isEmpty

structure UnresolvedToken where
  line : Nat
  byteStart : Nat
  byteEnd : Nat
  token : List Char
  deriving DecidableEq

structure LexiconCoverage where
  totalTokens : Nat
  resolvedTokens : Nat
  unresolved : List UnresolvedToken
  deriving DecidableEq

/-- What `project_rosette` counts while it places the lines. -/
def coverage (dictionary : Cmudict) (lines : List Line) : LexiconCoverage where
  totalTokens := (lines.flatMap Line.tokens).length
  resolvedTokens := ((lines.flatMap Line.tokens).filter (resolves dictionary)).length
  unresolved := lines.zipIdx.flatMap fun line =>
    (line.1.tokens.filter fun token => !resolves dictionary token).map fun token =>
      ⟨line.2, token.start, token.finish, token.text⟩

def blank (line : List Char) : Bool := line.all isWhitespace

section trimming

theorem trimmed_eq (line : List Char) :
    trimmed line =
      ((line.dropWhile isWhitespace).reverse.dropWhile isWhitespace).reverse := by
  rw [trimmed, trim, String.toList_ofList, String.toList_ofList]

theorem trimmed_parts (line : List Char) :
    ∃ tail, line = line.takeWhile isWhitespace ++ trimmed line ++ tail ∧
      ∀ character ∈ tail, isWhitespace character = true := by
  refine ⟨((line.dropWhile isWhitespace).reverse.takeWhile isWhitespace).reverse, ?_, ?_⟩
  · have back := congrArg List.reverse (List.takeWhile_append_dropWhile (p := isWhitespace)
      (l := (line.dropWhile isWhitespace).reverse))
    rw [List.reverse_append, List.reverse_reverse] at back
    rw [trimmed_eq, List.append_assoc, back, List.takeWhile_append_dropWhile]
  · intro character member
    exact List.mem_takeWhile_imp (List.mem_reverse.mp member)

theorem trimmed_eq_nil_iff {line : List Char} : trimmed line = [] ↔ blank line = true := by
  rw [blank, List.all_eq_true]
  constructor
  · intro none_
    obtain ⟨tail, parts, spaces⟩ := trimmed_parts line
    rw [none_, List.append_nil] at parts
    intro character member
    rw [parts, List.mem_append] at member
    rcases member with front | back
    · exact List.mem_takeWhile_imp front
    · exact spaces character back
  · intro all
    rw [trimmed_eq, List.dropWhile_eq_nil_iff.mpr all]
    rfl

theorem trimmed_append {spaces : List Char} (white : ∀ character ∈ spaces, isWhitespace character = true)
    (line : List Char) : trimmed (line ++ spaces) = trimmed line := by
  have back : ∀ character ∈ spaces.reverse, isWhitespace character = true :=
    fun character member => white character (List.mem_reverse.mp member)
  rw [trimmed_eq, trimmed_eq, List.dropWhile_append]
  split
  next none_ =>
    rw [List.isEmpty_iff.mp none_, List.dropWhile_eq_nil_iff.mpr white]
  next => rw [List.reverse_append, List.dropWhile_append_of_pos back]

theorem takeWhile_append {line : List Char} (filled : blank line = false) (spaces : List Char) :
    (line ++ spaces).takeWhile isWhitespace = line.takeWhile isWhitespace := by
  rw [List.takeWhile_append, if_neg]
  intro whole
  have all := List.takeWhile_eq_self_iff.mp
    ((List.takeWhile_prefix isWhitespace).eq_of_length whole)
  rw [blank, List.all_eq_true.mpr all] at filled
  cases filled

theorem stripSuffix_parts (mark : Char) (line : List Char) :
    line = stripSuffix mark line ∨ line = stripSuffix mark line ++ [mark] := by
  rw [stripSuffix]
  split
  next ends =>
    obtain ⟨front, rfl⟩ := List.getLast?_eq_some_iff.mp ends
    rw [List.dropLast_concat]
    exact .inr rfl
  next => exact .inl rfl

theorem rawLine_parts (segment : List Char) :
    ∃ ending, segment = rawLine segment ++ ending ∧
      ∀ character ∈ ending, isWhitespace character = true := by
  rcases stripSuffix_parts '\n' segment with outer | outer <;>
    rcases stripSuffix_parts '\r' (stripSuffix '\n' segment) with inner | inner
  · exact ⟨[], by rw [List.append_nil, rawLine, ← inner, ← outer], by simp⟩
  · exact ⟨['\r'], by rw [rawLine, ← inner, ← outer], List.forall_mem_singleton.mpr rfl⟩
  · exact ⟨['\n'], by rw [rawLine, ← inner, ← outer], List.forall_mem_singleton.mpr rfl⟩
  · refine ⟨['\r', '\n'], ?_, List.forall_mem_cons.mpr ⟨rfl, List.forall_mem_singleton.mpr rfl⟩⟩
    rw [rawLine, List.append_cons, ← inner, ← outer]

theorem trimmed_rawLine (segment : List Char) : trimmed (rawLine segment) = trimmed segment := by
  obtain ⟨ending, parts, white⟩ := rawLine_parts segment
  have same := trimmed_append white (rawLine segment)
  rw [← parts] at same
  exact same.symm

theorem blank_rawLine (segment : List Char) : blank (rawLine segment) = blank segment := by
  rw [Bool.eq_iff_iff, ← trimmed_eq_nil_iff, ← trimmed_eq_nil_iff, trimmed_rawLine]

theorem leading_rawLine {segment : List Char} (filled : blank segment = false) :
    (utf8Bytes (rawLine segment)).length -
        (utf8Bytes ((rawLine segment).dropWhile isWhitespace)).length =
      (utf8Bytes (segment.takeWhile isWhitespace)).length := by
  obtain ⟨ending, parts, white⟩ := rawLine_parts segment
  have lead := takeWhile_append ((blank_rawLine segment).trans filled) ending
  rw [← parts] at lead
  have whole := congrArg (List.length ∘ utf8Bytes)
    (List.takeWhile_append_dropWhile (p := isWhitespace) (l := rawLine segment))
  simp only [Function.comp_apply, utf8Bytes_append, List.length_append] at whole
  rw [lead]
  omega

end trimming

variable {alphabet}

section words

open Readings (behind isWordCharacter_space scanWords_spelling words_append_outside
  words_append_white words_white)

def tokenOf (offset : Nat) (run : List Char × List Char) : Token :=
  ⟨offset + (utf8Bytes run.1).length,
    offset + (utf8Bytes run.1).length + (utf8Bytes run.2).length, run.2,
    toAsciiLowercase (straighten run.2)⟩

theorem tokens_eq (line : List Char) (offset : Nat) :
    tokens alphabet line offset = (words alphabet line).map (tokenOf offset) := by
  rw [tokens]
  unfold pushToken
  rw [scanWords_spelling fun text start finish =>
    (⟨offset + start, offset + finish, text, toAsciiLowercase (straighten text)⟩ : Token)]
  refine List.map_congr_left ?_
  intro run _
  rw [tokenOf, Nat.add_assoc]

theorem tokenOf_behind (offset : Nat) (front : List Char) (run : List Char × List Char) :
    tokenOf offset (behind front run) = tokenOf (offset + (utf8Bytes front).length) run := by
  simp only [tokenOf, behind, utf8Bytes_append, List.length_append, Nat.add_assoc]

theorem words_terminated {line : List Char} (ended : TerminatedLines.Terminated '\n' line)
    (rest : List Char) :
    words alphabet (line ++ rest) =
      words alphabet line ++ (words alphabet rest).map (behind line) := by
  obtain ⟨front, rfl⟩ := List.getLast?_eq_some_iff.mp ended
  have closed : words alphabet (front ++ ['\n']) = words alphabet front :=
    @words_append_white _ ['\n'] (List.forall_mem_singleton.mpr rfl) front
  rw [closed, List.append_assoc, List.singleton_append,
    words_append_outside (isWordCharacter_space (by decide))]

theorem tokens_trimmed (offset : Nat) (line : List Char) :
    tokens alphabet (trimmed line) (offset + (utf8Bytes (line.takeWhile isWhitespace)).length) =
      (words alphabet line).map (tokenOf offset) := by
  obtain ⟨tail, parts, white⟩ := trimmed_parts line
  have found := @words_append_white alphabet _ white
    (line.takeWhile isWhitespace ++ trimmed line)
  rw [← parts, words_white fun _ => List.mem_takeWhile_imp] at found
  rw [tokens_eq, found, List.map_map]
  exact List.map_congr_left fun run _ => (tokenOf_behind ..).symm

end words

section lines

def filled (segment : List Char) : Bool := !blank segment

def placed : Nat → List (List Char) → List (Nat × List Char)
  | _, [] => []
  | offset, segment :: rest =>
    (offset, segment) :: placed (offset + (utf8Bytes segment).length) rest

def trimmedRange (offset : Nat) (segment : List Char) : Nat × Nat :=
  (offset + (utf8Bytes (segment.takeWhile isWhitespace)).length,
    offset + (utf8Bytes (segment.takeWhile isWhitespace)).length +
      (utf8Bytes (trimmed segment)).length)

variable (alphabet)

def lineAt (entry : Nat × List Char) : Line :=
  ⟨(trimmedRange entry.1 entry.2).1, (trimmedRange entry.1 entry.2).2,
    (words alphabet entry.2).map (tokenOf entry.1)⟩

def linesFrom (offset : Nat) (segments : List (List Char)) : List Line :=
  ((placed offset segments).filter fun entry => filled entry.2).map (lineAt alphabet)

def stanzaOf (lines : List Line) (indices : List Nat) : Stanza :=
  ⟨(indices.head?.bind fun first => lines[first]?.map Line.start).getD 0,
    (indices.getLast?.bind fun last => lines[last]?.map Line.finish).getD 0, indices⟩

def ordinals (run : List (List Char) × List (List Char)) : List Nat :=
  List.range' (run.1.countP filled) run.2.length

variable {alphabet}

theorem placed_append (offset : Nat) (front back : List (List Char)) :
    placed offset (front ++ back) =
      placed offset front ++ placed (offset + (utf8Bytes front.flatten).length) back := by
  induction front generalizing offset with
  | nil => rfl
  | cons segment front ih =>
    rw [List.cons_append, placed, ih, placed, List.cons_append, List.flatten_cons,
      utf8Bytes_append, List.length_append, Nat.add_assoc]

theorem map_snd_placed (offset : Nat) (segments : List (List Char)) :
    (placed offset segments).map Prod.snd = segments := by
  induction segments generalizing offset with
  | nil => rfl
  | cons segment rest ih => rw [placed, List.map_cons, ih]

theorem linesFrom_append (offset : Nat) (front back : List (List Char)) :
    linesFrom alphabet offset (front ++ back) = linesFrom alphabet offset front ++
      linesFrom alphabet (offset + (utf8Bytes front.flatten).length) back := by
  rw [linesFrom, placed_append, List.filter_append, List.map_append]
  rfl

theorem length_linesFrom (offset : Nat) (segments : List (List Char)) :
    (linesFrom alphabet offset segments).length = segments.countP filled := by
  have same := map_snd_placed offset segments
  rw [linesFrom, List.length_map, ← List.countP_eq_length_filter]
  conv_rhs => rw [← same, List.countP_map]
  rfl

theorem stanzaOf_append {lines more : List Line} {indices : List Nat}
    (within : ∀ index ∈ indices, index < lines.length) :
    stanzaOf (lines ++ more) indices = stanzaOf lines indices := by
  have first : (indices.head?.bind fun first => (lines ++ more)[first]?.map Line.start) =
      indices.head?.bind fun first => lines[first]?.map Line.start := by
    refine Option.bind_congr ?_
    intro index head
    rw [List.getElem?_append_left (within index (List.mem_of_head? head))]
  have last : (indices.getLast?.bind fun last => (lines ++ more)[last]?.map Line.finish) =
      indices.getLast?.bind fun last => lines[last]?.map Line.finish := by
    refine Option.bind_congr ?_
    intro index end_
    rw [List.getElem?_append_left (within index (List.mem_of_getLast? end_))]
  rw [stanzaOf, stanzaOf, first, last]

end lines

section parsing

theorem finishStanza_eq (state : Parsing) :
    state.finishStanza = if state.stanzaLines.isEmpty then state else
      { state with
        stanzaLines := []
        stanzas := state.stanzas ++ [stanzaOf state.lines state.stanzaLines] } := by
  obtain ⟨lines, pending, stanzas, cursor⟩ := state
  cases pending with
  | nil => rfl
  | cons first others =>
    have last := List.getLast?_eq_some_getLast (List.cons_ne_nil first others)
    simp [Parsing.finishStanza, stanzaOf, last]

theorem segment_blank {segment : List Char} (empty : blank segment = true) (state : Parsing) :
    state.segment alphabet segment =
      { state.finishStanza with cursor := state.cursor + (utf8Bytes segment).length } := by
  have none_ : trimmed (rawLine segment) = [] := by
    rw [trimmed_rawLine]
    exact trimmed_eq_nil_iff.mpr empty
  simp only [Parsing.segment, none_, List.isEmpty_nil, if_true]

theorem segment_filled {segment : List Char} (some_ : blank segment = false) (state : Parsing) :
    state.segment alphabet segment = { state with
      lines := state.lines ++ [lineAt alphabet (state.cursor, segment)]
      stanzaLines := state.stanzaLines ++ [state.lines.length]
      cursor := state.cursor + (utf8Bytes segment).length } := by
  have left : ¬ (trimmed segment).isEmpty = true := by
    rw [List.isEmpty_iff, trimmed_eq_nil_iff, some_]
    exact Bool.false_ne_true
  simp only [Parsing.segment, leading_rawLine some_, trimmed_rawLine, if_neg left, tokens_trimmed,
    lineAt, trimmedRange]

/-- What `parse_document` knows once it has read `before`, and `held` of a stanza. -/
structure Parsed (alphabet : Alphabet) (before held : List (List Char)) (state : Parsing) :
    Prop where
  cursor : state.cursor = (utf8Bytes (before ++ held).flatten).length
  lines : state.lines = linesFrom alphabet 0 (before ++ held)
  pending : state.stanzaLines = ordinals (before, held)
  within : ∀ segment ∈ held, filled segment = true

variable {before held : List (List Char)} {state : Parsing}

theorem Parsed.length_lines (parsed : Parsed alphabet before held state) :
    state.lines.length = before.countP filled + held.length := by
  rw [parsed.lines, length_linesFrom, List.countP_append,
    List.countP_eq_length.mpr parsed.within]

theorem Parsed.pending_lt (parsed : Parsed alphabet before held state) :
    ∀ index ∈ state.stanzaLines, index < state.lines.length := by
  intro index member
  rw [parsed.pending, ordinals, List.mem_range'_1] at member
  rw [parsed.length_lines]
  exact member.2

theorem isEmpty_ordinals (before held : List (List Char)) :
    (ordinals (before, held)).isEmpty = held.isEmpty := by
  cases held <;> rfl

theorem Parsed.segment_filled (parsed : Parsed alphabet before held state) {segment : List Char}
    (some_ : filled segment = true) :
    Parsed alphabet before (held ++ [segment]) (state.segment alphabet segment) := by
  rw [Rosette.segment_filled (by simpa [filled] using some_)]
  constructor
  · simp only [parsed.cursor, ← List.append_assoc, List.flatten_append, List.flatten_cons,
      List.flatten_nil, List.append_nil, utf8Bytes_append, List.length_append]
  · have alone : linesFrom alphabet state.cursor [segment] =
        [lineAt alphabet (state.cursor, segment)] := by
      simp [linesFrom, placed, some_]
    simp only
    rw [← List.append_assoc, linesFrom_append, Nat.zero_add, ← parsed.cursor, alone, parsed.lines]
  · have length := parsed.length_lines
    simp only [parsed.pending, ordinals, List.length_append, List.length_singleton]
    rw [List.range'_concat, Nat.one_mul, length]
  · simpa [or_imp, forall_and] using ⟨parsed.within, some_⟩

theorem Parsed.segment_blank (parsed : Parsed alphabet before held state) {segment : List Char}
    (empty : filled segment = false) :
    Parsed alphabet (before ++ held ++ [segment]) [] (state.segment alphabet segment) := by
  rw [Rosette.segment_blank (by simpa [filled] using empty), finishStanza_eq]
  have same : linesFrom alphabet 0 (before ++ held ++ [segment]) = state.lines := by
    rw [linesFrom_append, parsed.lines]
    simp [linesFrom, placed, empty]
  have further : state.cursor + (utf8Bytes segment).length =
      (utf8Bytes (before ++ held ++ [segment]).flatten).length := by
    simp only [parsed.cursor, List.flatten_append, List.flatten_cons, List.flatten_nil,
      List.append_nil, utf8Bytes_append, List.length_append]
  have pending := parsed.pending
  split
  next none_ =>
    refine ⟨?_, ?_, ?_, List.forall_mem_nil _⟩
    · rw [List.append_nil]
      exact further
    · rw [List.append_nil]
      exact same.symm
    · exact List.isEmpty_iff.mp none_
  next =>
    refine ⟨?_, ?_, rfl, List.forall_mem_nil _⟩
    · rw [List.append_nil]
      exact further
    · rw [List.append_nil]
      exact same.symm

theorem stanzas_segment_blank {segment : List Char} (empty : filled segment = false)
    (state : Parsing) :
    (state.segment alphabet segment).stanzas = state.finishStanza.stanzas := by
  rw [Rosette.segment_blank (by simpa [filled] using empty)]

theorem stanzas_finishStanza (parsed : Parsed alphabet before held state)
    (rest : List (List Char)) :
    state.finishStanza.stanzas = state.stanzas ++
      (if held.isEmpty then [] else [(before, held)]).map fun run =>
        stanzaOf (linesFrom alphabet 0 (before ++ held ++ rest)) (ordinals run) := by
  rw [finishStanza_eq, parsed.pending, isEmpty_ordinals]
  split
  · simp
  · rw [linesFrom_append, ← parsed.lines, List.map_singleton, stanzaOf_append]
    rw [← parsed.pending]
    exact parsed.pending_lt

theorem foldl_segment (parsed : Parsed alphabet before held state) (rest : List (List Char)) :
    ((rest.foldl (Parsing.segment alphabet) state).finishStanza).lines =
        linesFrom alphabet 0 (before ++ held ++ rest) ∧
      ((rest.foldl (Parsing.segment alphabet) state).finishStanza).stanzas = state.stanzas ++
        (Runs.runs filled before held rest).map fun run =>
          stanzaOf (linesFrom alphabet 0 (before ++ held ++ rest)) (ordinals run) := by
  induction rest generalizing before held state with
  | nil =>
    have stanzas := stanzas_finishStanza parsed []
    refine ⟨?_, stanzas⟩
    rw [List.foldl_nil, finishStanza_eq, List.append_nil, ← parsed.lines]
    split <;> rfl
  | cons segment rest ih =>
    rw [List.foldl_cons, Runs.runs]
    split
    next some_ =>
      have later := ih (parsed.segment_filled some_)
      rw [Rosette.segment_filled (by simpa [filled] using some_)] at later ⊢
      simpa only [List.append_assoc, List.singleton_append] using later
    next empty_ =>
      have empty := eq_false_of_ne_true empty_
      have later := ih (parsed.segment_blank empty)
      rw [stanzas_segment_blank empty, stanzas_finishStanza parsed (segment :: rest)] at later
      simp only [List.append_nil, List.append_assoc, List.singleton_append] at later
      simpa only [List.map_append, List.append_assoc] using later

theorem segments_flatten (text : List Char) : (segments text).flatten = text :=
  TerminatedLines.split_flatten text []

theorem parseDocument_eq (text : List Char) :
    parseDocument alphabet text = (linesFrom alphabet 0 (segments text),
      (Runs.runs filled [] [] (segments text)).map fun run =>
        stanzaOf (linesFrom alphabet 0 (segments text)) (ordinals run)) := by
  have start : Parsed alphabet [] [] {} := ⟨rfl, rfl, rfl, List.forall_mem_nil _⟩
  have whole := foldl_segment start (segments text)
  exact Prod.ext whole.1 whole.2

end parsing

end KnotEditor.Rosette
