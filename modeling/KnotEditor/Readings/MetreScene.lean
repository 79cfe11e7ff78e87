import KnotEditor.Library.TerminatedLines
import KnotEditor.Readings.Sound

/-! The export of a complete sound reading as a grid of verse lines. The lines are found again from
the text, and every token goes to the line it stands in. -/

namespace KnotEditor.Readings

open Mora (Beat Phone syllabify)

structure MetreTemplate where
  feet : UInt16
  positionsPerFoot : UInt16
  rhymeGroups : List (Option String)

structure SceneSource where
  adapter : String
  id : String
  deriving DecidableEq

structure SceneSyllable where
  text : String
  stressed : Bool
  stressKnown : Bool
  deriving DecidableEq

structure VerseLine where
  key : String
  source : SceneSource
  text : String
  syllables : List SceneSyllable
  rhymeGroup : Option String
  rhymeTail : Option String
  deriving DecidableEq

structure MetreGrid where
  feet : UInt16
  positionsPerFoot : UInt16
  lines : List VerseLine
  deriving DecidableEq

structure SceneInput where
  version : Nat
  source : SceneSource
  revision : String
  title : String
  facts : MetreGrid
  deriving DecidableEq

abbrev Pronounced := Nat × Nat × Option Nat × Bool × Option String

structure SceneHost where
  version : Nat
  revision : List Char → MetreGrid → List Pronounced → Except String String
  compile : SceneInput → Except String Unit

variable (alphabet : Alphabet) (dictionary : Cmudict) (host : SceneHost)

def choicesOf (tokens : List SoundToken) : List (Nat × Nat) :=
  tokens.zipIdx.filterMap fun token =>
    if token.1.defaulted then none else token.1.selected.map fun variant => (token.2, variant)

def tokenPhones (token : SoundToken) : Except String (List Phone) :=
  match (dictionary.pronunciations (String.ofList (straighten token.word.toList))).bind fun variants =>
      token.selected.bind (variants[·]?) with
  | some phones => .ok phones
  | none => .error "Pronunciation changed; rerun the sound reading"

def tokenSyllables (token : SoundToken) (phones : List Phone) : List SceneSyllable :=
  (Mora.beats phones (syllabify phones .english)).zipIdx.map fun beat =>
    ⟨if beat.2 = 0 then token.word else s!"·{beat.2 + 1}", beat.1 == Beat.strong, true⟩

def tokenTail (phones : List Phone) : Option String :=
  let tail := Mora.rhymeTail (Mora.syllabified phones .english)
  if tail.isEmpty then none else some ("-".intercalate (tail.map fun phone => toString phone.id))

def readLine (tokens : List SoundToken) : Except String (List SceneSyllable × Option String) :=
  tokens.foldlM (fun line token => do
    let phones ← tokenPhones dictionary token
    .ok (line.1 ++ tokenSyllables token phones, tokenTail phones)) ([], none)

def isLineEnd (character : Char) : Bool := character == '\n' || character == '\r'

/-- `trim_end_matches(['\n', '\r'])` -/
def trimLineEnd (raw : List Char) : List Char := (raw.reverse.dropWhile isLineEnd).reverse

def within (range : Nat × Nat) (token : SoundToken) : Bool :=
  decide (range.1 ≤ token.start) && decide (token.finish ≤ range.2)

def verseLine (text : List Char) (source : SceneSource) (range : Nat × Nat)
    (line : List SceneSyllable × Option String) : VerseLine where
  key := s!"bytes-{range.1}-{range.2}"
  source := ⟨"knot.document-range", s!"{source.id}#bytes={range.1}..{range.2}"⟩
  text := String.ofList ((slice text range.1 range.2).getD [])
  syllables := line.1
  rhymeGroup := none
  rhymeTail := line.2

def lineOver (text : List Char) (source : SceneSource) (tokens : List SoundToken)
    (range : Nat × Nat) : Except String (List VerseLine) :=
  let held := tokens.filter (within range)
  if held.isEmpty then .ok []
  else (readLine dictionary held).map fun line => [verseLine text source range line]

/-- The lines that hold a token, from the piece at `offset` on. -/
def verseLines (text : List Char) (source : SceneSource) (tokens : List SoundToken) (offset : Nat) :
    List (List Char) → Except String (List VerseLine)
  | [] => .ok []
  | raw :: rest => do
      let here ← lineOver dictionary text source tokens
        (offset, offset + (utf8Bytes (trimLineEnd raw)).length)
      let later ← verseLines text source tokens (offset + (utf8Bytes raw).length) rest
      .ok (here ++ later)

def assignGroups : List VerseLine → List (Option String) → List VerseLine
  | line :: lines, group :: groups => { line with rhymeGroup := group } :: assignGroups lines groups
  | lines, _ => lines

def staleReading : String :=
  "Metre export needs a current reading with every pronunciation resolved; unknown stress is not " ++
    "weak stress"

def metreScene (text : List Char) (reading : SoundReading) (source : SceneSource)
    (template : MetreTemplate) : Except String SceneInput := do
  let current ← analyze alphabet dictionary text reading.selection (choicesOf reading.tokens) {}
  if current.tokens ≠ reading.tokens ∨ reading.unresolved ≠ [] ∨
      reading.tokens.any (fun token => token.selected.isNone) = true then
    .error staleReading
  let selected := (slice text reading.selection.1 reading.selection.2).getD []
  let lines ← verseLines dictionary text source reading.tokens reading.selection.1
    (Pieces.pieces isLineEnd [] selected)
  if lines = [] then
    .error "No resolved source lines to export"
  if template.rhymeGroups ≠ [] ∧ template.rhymeGroups.length ≠ lines.length then
    .error "Expected rhyme groups must name each nonempty source line"
  let facts : MetreGrid :=
    ⟨template.feet, template.positionsPerFoot, assignGroups lines template.rhymeGroups⟩
  let revision ← host.revision text facts (reading.tokens.map fun token =>
    (token.start, token.finish, token.selected, token.defaulted,
      token.selected.bind (token.variants[·]?)))
  let input : SceneInput := {
    version := host.version
    source
    revision
    title := "CMUdict candidate stress · later syllables numbered · not intended performance"
    facts }
  host.compile input
  .ok input

section syllables

variable {dictionary}

def syllablesOf (dictionary : Cmudict) (token : SoundToken) : List SceneSyllable :=
  ((tokenPhones dictionary token).toOption.map (tokenSyllables token)).getD []

structure Spoken (dictionary : Cmudict) (tokens : List SoundToken)
    (syllables : List SceneSyllable) : Prop where
  known : ∀ token ∈ tokens, ∃ phones, tokenPhones dictionary token = .ok phones
  spoken : syllables = tokens.flatMap (syllablesOf dictionary)

theorem spoken_of_readLine {tokens : List SoundToken}
    {line : List SceneSyllable × Option String} (read : readLine dictionary tokens = .ok line) :
    Spoken dictionary tokens line.1 := by
  refine @Fallible.foldlM_builds _ _ _ _ (fun gone state => Spoken dictionary gone state.1) ?_
    tokens _ _ ⟨List.forall_mem_nil _, rfl⟩ read
  intro gone state token next before step
  obtain ⟨phones, found, done⟩ := Fallible.bind_eq_ok_iff.mp step
  cases done
  constructor
  · intro other member
    rcases List.mem_append.mp member with early | last
    · exact before.known other early
    · rw [List.mem_singleton.mp last]
      exact ⟨phones, found⟩
  · have syllables : syllablesOf dictionary token = tokenSyllables token phones := by
      rw [syllablesOf, found]
      rfl
    rw [List.flatMap_append, ← before.spoken, List.flatMap_singleton, syllables]

end syllables

end KnotEditor.Readings
