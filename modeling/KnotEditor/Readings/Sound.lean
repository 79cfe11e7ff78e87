import KnotEditor.Mora.Meter
import KnotEditor.Mora.Sonance
import KnotEditor.Readings.Words

/-! Bounded sound readings over a selected source range. Pronunciations are suggestions of the
lexicon; the alternatives and the default choice stay visible. -/

namespace KnotEditor.Readings

open Mora (Phone Foot syllabify)

def maxSelectionBytes : Nat := 16 * 1024
def maxTokens : Nat := 128
def maxPairs : Nat := 4096

def toAsciiLowercase (word : List Char) : List Char := word.map Char.toLower

def straighten (word : List Char) : List Char :=
  word.map fun character => if character = '’' then '\'' else character

structure Cmudict where
  entries : String → Option (List (List Phone))

def normalize (word : String) : String := String.ofList (toAsciiLowercase (trim word).toList)

def Cmudict.pronunciations (dictionary : Cmudict) (word : String) : Option (List (List Phone)) :=
  dictionary.entries (normalize word)

structure SoundLayers where
  perfectRhyme : Bool := false
  slantRhyme : Bool := false
  assonance : Bool := false
  alliteration : Bool := false
  meter : Bool := false

def SoundLayers.anyPairwise (layers : SoundLayers) : Bool :=
  layers.perfectRhyme || layers.slantRhyme || layers.assonance || layers.alliteration

/-- `finish` is the source's `end`. -/
structure SoundToken where
  word : String
  start : Nat
  finish : Nat
  variants : List String
  selected : Option Nat
  defaulted : Bool
  deriving DecidableEq

inductive SoundKind
  | perfectRhyme
  | slantRhyme
  | assonance
  | alliteration
  deriving DecidableEq

structure SoundRelation where
  left : Nat
  right : Nat
  kind : SoundKind
  deriving DecidableEq

/-- `fit` is exact where the source rounds it to an `f32`. -/
structure SoundMeter where
  label : String
  fit : Rat
  regular : Bool
  deriving DecidableEq

structure SoundReading where
  selection : Nat × Nat
  tokens : List SoundToken
  relations : List SoundRelation
  meter : Option SoundMeter
  unresolved : List Nat
  deriving DecidableEq

variable (alphabet : Alphabet) (dictionary : Cmudict)

def tokenize (text : List Char) (offset : Nat) : List (Nat × Nat) :=
  scanWords alphabet (fun start finish =>
    if (slice text start finish).any (spells alphabet) then some (offset + start, offset + finish)
    else none) text

def phoneLabel (phones : List Phone) : String :=
  " ".intercalate (phones.map fun phone =>
    (Mora.symbol phone.id).getD "?" ++
      match phone.stress with
      | .unstressed => if phone.isVowel then "0" else ""
      | .primary => "1"
      | .secondary => "2"
      | .none => "")

def footLabel : Foot → String
  | .iamb => "Iamb"
  | .trochee => "Trochee"
  | .dactyl => "Dactyl"
  | .anapest => "Anapest"
  | _ => "Other foot"

def lookup (word : List Char) : List (List Phone) :=
  (dictionary.pronunciations (String.ofList (straighten word))).getD []

def readToken (text : List Char) (choices : List (Nat × Nat)) (entry : (Nat × Nat) × Nat) :
    Except String (SoundToken × Option (List Phone)) := do
  let ((start, finish), index) := entry
  let word := (slice text start finish).getD []
  let pronunciations := lookup dictionary word
  let chosen := choices.lookup index
  if chosen.any fun choice => decide (pronunciations.length ≤ choice) then
    .error s!"pronunciation choice {chosen.getD 0} is invalid for token {index}"
  let selected := if pronunciations.isEmpty then none else some (chosen.getD 0)
  .ok ({
    word := String.ofList word
    start
    finish
    variants := pronunciations.map phoneLabel
    selected
    defaulted := selected.isSome && chosen.isNone }, selected.bind (pronunciations[·]?))

def relate (layers : SoundLayers) (left right : Nat) (a b : List Phone) : List SoundRelation :=
  let a := Mora.syllabified a .english
  let b := Mora.syllabified b .english
  [(layers.perfectRhyme && Mora.isPerfectRhyme a b, SoundKind.perfectRhyme),
    (layers.slantRhyme && Mora.isSlantRhyme a b, .slantRhyme),
    (layers.assonance && Mora.isAssonant a b, .assonance),
    (layers.alliteration && Mora.isAlliterative a b, .alliteration)].filterMap fun test =>
      if test.1 then some ⟨left, right, test.2⟩ else none

def relations (layers : SoundLayers) (phones : List (Option (List Phone))) : List SoundRelation :=
  if layers.anyPairwise then
    phones.zipIdx.flatMap fun left =>
      left.1.elim [] fun a =>
        (phones.zipIdx.drop (left.2 + 1)).flatMap fun right =>
          right.1.elim [] fun b => relate layers left.2 right.2 a b
  else []

def readMeter (layers : SoundLayers) (selected : List Char) (unresolved : List Nat)
    (phones : List (Option (List Phone))) : Option SoundMeter :=
  if layers.meter && unresolved.isEmpty && !selected.contains '\n' && !selected.contains '\r' then
    let lineBeats := (phones.filterMap id).flatMap fun phones =>
      Mora.beats phones (syllabify phones .english)
    (Mora.scanBest lineBeats Foot.common).map fun scan =>
      ⟨s!"{footLabel scan.meter.foot} × {scan.meter.feet}", scan.fit, scan.isRegular⟩
  else none

/-- The sound reading of a selection. `choices` gives tokens a variant by their index. -/
def analyze (text : List Char) (selection : Nat × Nat) (choices : List (Nat × Nat))
    (layers : SoundLayers) : Except String SoundReading := do
  let (start, finish) := selection
  match slice text start finish with
  | none => .error "selection is not a valid UTF-8 source range"
  | some selected => do
      if finish - start > maxSelectionBytes then
        .error s!"selection exceeds {maxSelectionBytes} bytes"
      let ranges := tokenize alphabet selected start
      if ranges.length > maxTokens then
        .error s!"selection exceeds {maxTokens} word tokens"
      if choices.any fun choice => decide (ranges.length ≤ choice.1) then
        .error "pronunciation choice names a token outside the selection"
      if layers.anyPairwise && decide (ranges.length * (ranges.length - 1) / 2 > maxPairs) then
        .error s!"sound comparison exceeds {maxPairs} token pairs"
      let entries ← ranges.zipIdx.mapM (readToken dictionary text choices)
      let tokens := entries.map Prod.fst
      let phones := entries.map Prod.snd
      let unresolved := tokens.zipIdx.filterMap fun token =>
        if token.1.selected.isNone then some token.2 else none
      .ok {
        selection
        tokens
        relations := relations layers phones
        meter := readMeter layers selected unresolved phones
        unresolved }

variable {alphabet}

theorem slice_of_mem_runs {inside : Char → Bool} {text place run : List Char}
    (member : (place, run) ∈ Runs.runs inside [] [] text) :
    slice text (utf8Bytes place).length ((utf8Bytes place).length + (utf8Bytes run).length) =
      some run := by
  obtain ⟨after, rfl, _⟩ := Runs.mem_runs_iff.mp member
  exact slice_append place run after

theorem scanWords_spelling {β : Type} (make : List Char → Nat → Nat → β) (text : List Char) :
    scanWords alphabet (fun start finish =>
        (slice text start finish).bind fun word =>
          if spells alphabet word then some (make word start finish) else none) text =
      (words alphabet text).map fun run => make run.2 (utf8Bytes run.1).length
        ((utf8Bytes run.1).length + (utf8Bytes run.2).length) := by
  rw [scanWords_eq, words, ← List.filterMap_eq_map, List.filterMap_filter]
  refine List.filterMap_congr ?_
  intro run member
  rw [emitRun, slice_of_mem_runs member]
  rfl

theorem tokenize_eq (text : List Char) (offset : Nat) :
    tokenize alphabet text offset = (words alphabet text).map (wordRange offset) := by
  have same : ∀ start finish,
      (if (slice text start finish).any (spells alphabet) then
          some (offset + start, offset + finish) else none) =
        (slice text start finish).bind fun word =>
          if spells alphabet word then some (offset + start, offset + finish) else none := by
    intro start finish
    cases slice text start finish <;> rfl
  simp only [tokenize, same]
  rw [scanWords_spelling fun _ start finish => (offset + start, offset + finish)]
  refine List.map_congr_left ?_
  intro run _
  rw [wordRange, Nat.add_assoc]

example : tokenize asciiAlphabet "  ’tis '\r\n it’s".toList 0 = [(2, 8), (13, 19)] := by decide

variable {dictionary}

structure ReadFrom (dictionary : Cmudict) (text : List Char) (choices : List (Nat × Nat))
    (range : Nat × Nat) (index : Nat) (token : SoundToken) : Prop where
  start : token.start = range.1
  finish : token.finish = range.2
  word : token.word = String.ofList ((slice text range.1 range.2).getD [])
  variants : token.variants =
    (lookup dictionary ((slice text range.1 range.2).getD [])).map phoneLabel
  selected : token.selected =
    if (lookup dictionary ((slice text range.1 range.2).getD [])).isEmpty then none
    else some ((choices.lookup index).getD 0)
  chosen : ∀ choice, choices.lookup index = some choice →
    choice < (lookup dictionary ((slice text range.1 range.2).getD [])).length

theorem readFrom_of_readToken {text : List Char} {choices : List (Nat × Nat)}
    {range : Nat × Nat} {index : Nat} {result : SoundToken × Option (List Phone)}
    (read : readToken dictionary text choices (range, index) = .ok result) :
    ReadFrom dictionary text choices range index result.1 := by
  obtain ⟨start, finish⟩ := range
  simp only [readToken, Fallible.refuse_eq_ok_iff] at read
  obtain ⟨valid, done⟩ := read
  cases done
  refine ⟨rfl, rfl, rfl, rfl, rfl, ?_⟩
  intro choice found
  rw [found] at valid
  simpa using valid

structure Analyzed (alphabet : Alphabet) (dictionary : Cmudict) (text : List Char)
    (start finish : Nat) (choices : List (Nat × Nat)) (reading : SoundReading) : Prop where
  selection : reading.selection = (start, finish)
  sliced : ∃ selected, slice text start finish = some selected ∧
    List.Forall₂ (fun range token => ReadFrom dictionary text choices range.1 range.2 token)
      (tokenize alphabet selected start).zipIdx reading.tokens
  unresolved : reading.unresolved = reading.tokens.zipIdx.filterMap fun token =>
    if token.1.selected.isNone then some token.2 else none

theorem analyzed_of_ok {text : List Char} {start finish : Nat} {choices : List (Nat × Nat)}
    {layers : SoundLayers} {reading : SoundReading}
    (done : analyze alphabet dictionary text (start, finish) choices layers = .ok reading) :
    Analyzed alphabet dictionary text start finish choices reading := by
  simp only [analyze] at done
  split at done
  · cases done
  next selected sliced =>
    simp only [Fallible.refuse_eq_ok_iff, Fallible.bind_eq_ok_iff] at done
    obtain ⟨_, _, _, _, entries, read, done⟩ := done
    cases done
    refine ⟨rfl, ⟨selected, sliced, ?_⟩, rfl⟩
    rw [List.forall₂_map_right_iff]
    exact (Fallible.mapM_eq_ok_iff.mp read).imp fun _ _ => readFrom_of_readToken

end KnotEditor.Readings
