import KnotEditor.Library.Runs
import KnotEditor.SourceRanges

/-! Words: the runs of word characters that spell something. -/

namespace KnotEditor.Readings

/-- `char::is_alphabetic`: the Unicode property `Alphabetic`, which no white space has. -/
structure Alphabet where
  isAlphabetic : Char → Bool
  notSpace : ∀ character, isWhitespace character = true → isAlphabetic character = false

theorem not_ascii_of_space {character : Char} (space : isWhitespace character = true) :
    ((65 ≤ character.toNat && character.toNat ≤ 90) ||
      (97 ≤ character.toNat && character.toNat ≤ 122)) = false := by
  simp only [isWhitespace] at space
  grind

def asciiAlphabet : Alphabet where
  isAlphabetic character :=
    let code := character.toNat
    (65 ≤ code && code ≤ 90) || (97 ≤ code && code ≤ 122)
  notSpace _ := not_ascii_of_space

variable (alphabet : Alphabet)

def Alphabet.isWordCharacter (character : Char) : Bool :=
  alphabet.isAlphabetic character || character == '\'' || character == '’'

def charIndices : Nat → List Char → List (Nat × Char)
  | _, [] => []
  | offset, character :: rest =>
    (offset, character) :: charIndices (offset + character.utf8Size) rest

def slice (text : List Char) (start finish : Nat) : Option (List Char) :=
  (sourceRange (String.ofList text) start finish).map SourceRange.inside

def spells (word : List Char) : Bool := word.any alphabet.isAlphabetic

section scanning

variable {β : Type} (emit : Nat → Nat → Option β)

def scanStep (state : List β × Option Nat) (entry : Nat × Char) : List β × Option Nat :=
  match state.2, alphabet.isWordCharacter entry.2 with
  | none, true => (state.1, some entry.1)
  | some start, false => (state.1 ++ (emit start entry.1).toList, none)
  | _, _ => state

def scanWords (text : List Char) : List β :=
  let (found, start) := (charIndices 0 text).foldl (scanStep alphabet emit) ([], none)
  match start with
  | some start => found ++ (emit start (utf8Bytes text).length).toList
  | none => found

end scanning

def words (text : List Char) : List (List Char × List Char) :=
  (Runs.runs alphabet.isWordCharacter [] [] text).filter fun run => spells alphabet run.2

def wordRange (offset : Nat) (run : List Char × List Char) : Nat × Nat :=
  (offset + (utf8Bytes run.1).length,
    offset + (utf8Bytes run.1).length + (utf8Bytes run.2).length)

variable {alphabet}

theorem isWordCharacter_space {character : Char} (space : isWhitespace character = true) :
    alphabet.isWordCharacter character = false := by
  have apostrophe : character ≠ '\'' := by
    rintro rfl
    revert space
    decide
  have quote : character ≠ '’' := by
    rintro rfl
    revert space
    decide
  simp [Alphabet.isWordCharacter, alphabet.notSpace character space, apostrophe, quote]

theorem slice_append (before inside after : List Char) :
    slice (before ++ inside ++ after) (utf8Bytes before).length
      ((utf8Bytes before).length + (utf8Bytes inside).length) = some inside := by
  have whole : (String.ofList (before ++ inside ++ after)).toList = before ++ inside ++ after :=
    String.toList_ofList
  have sliced := sourceRange_append whole rfl rfl
  rw [slice, sliced]
  rfl

theorem slice_eq_some {text selected : List Char} {start finish : Nat}
    (sliced : slice text start finish = some selected) :
    ∃ before after, text = before ++ selected ++ after ∧ start = (utf8Bytes before).length := by
  obtain ⟨range, cut, rfl⟩ := Option.map_eq_some_iff.mp sliced
  obtain ⟨whole, starts, _⟩ := sourceRange_spec cut
  rw [String.toList_ofList] at whole
  exact ⟨range.before, range.after, whole, starts⟩

section scanning

variable {β : Type} {emit : Nat → Nat → Option β}

def emitRun (emit : Nat → Nat → Option β) (run : List Char × List Char) : Option β :=
  emit (utf8Bytes run.1).length ((utf8Bytes run.1).length + (utf8Bytes run.2).length)

def scanned (found : List β) (before held : List Char) : List β × Option Nat :=
  (found, if held.isEmpty then none else some (utf8Bytes before).length)

def finishScan (emit : Nat → Nat → Option β) (size : Nat) (state : List β × Option Nat) : List β :=
  state.1 ++ (state.2.bind fun start => emit start size).toList

theorem scanStep_inside {character : Char} (in_ : alphabet.isWordCharacter character = true)
    (found : List β) (before held : List Char) :
    scanStep alphabet emit (scanned found before held)
        ((utf8Bytes (before ++ held)).length, character) =
      scanned found before (held ++ [character]) := by
  cases held with
  | nil => simp [scanStep, scanned, in_]
  | cons first others => simp [scanStep, scanned, in_]

theorem scanStep_outside {character : Char} (out : alphabet.isWordCharacter character = false)
    (found : List β) (before held : List Char) :
    scanStep alphabet emit (scanned found before held)
        ((utf8Bytes (before ++ held)).length, character) =
      scanned (found ++ (if held.isEmpty then [] else [(before, held)]).filterMap (emitRun emit))
        (before ++ held ++ [character]) [] := by
  cases held with
  | nil => simp [scanStep, scanned, out]
  | cons first others =>
    simp only [scanStep, scanned, out, List.isEmpty_cons, Bool.false_eq_true, if_false,
      List.isEmpty_nil, if_true, utf8Bytes_append, List.length_append, List.filterMap_cons,
      List.filterMap_nil, emitRun]
    cases emit (utf8Bytes before).length
      ((utf8Bytes before).length + (utf8Bytes (first :: others)).length) <;> rfl

theorem foldl_scanStep (found : List β) (before held rest : List Char) :
    finishScan emit (utf8Bytes (before ++ held ++ rest)).length
        ((charIndices (utf8Bytes (before ++ held)).length rest).foldl (scanStep alphabet emit)
          (scanned found before held)) =
      found ++ (Runs.runs alphabet.isWordCharacter before held rest).filterMap (emitRun emit) := by
  induction rest generalizing found before held with
  | nil =>
    rw [charIndices, List.foldl_nil, scanned, Runs.runs, List.append_nil, finishScan]
    split
    · simp
    · simp only [Option.bind_some, List.filterMap_cons, List.filterMap_nil, emitRun,
        utf8Bytes_append, List.length_append]
      cases emit (utf8Bytes before).length
        ((utf8Bytes before).length + (utf8Bytes held).length) <;> rfl
  | cons character rest ih =>
    have further : (utf8Bytes (before ++ held)).length + character.utf8Size =
        (utf8Bytes (before ++ held ++ [character])).length := by
      simp [utf8Bytes_cons, String.length_utf8EncodeChar, Nat.add_assoc]
    have whole : before ++ held ++ character :: rest = before ++ held ++ [character] ++ rest := by
      simp
    rw [charIndices, List.foldl_cons, Runs.runs, further, whole]
    split
    next in_ =>
      rw [scanStep_inside in_, List.append_assoc before held [character], ih]
    next out =>
      have later := ih (found ++ (if held.isEmpty then [] else [(before, held)]).filterMap
        (emitRun emit)) (before ++ held ++ [character]) []
      rw [List.append_nil] at later
      rw [scanStep_outside (eq_false_of_ne_true out), later, List.filterMap_append,
        List.append_assoc]

theorem scanWords_eq (text : List Char) :
    scanWords alphabet emit text =
      (Runs.runs alphabet.isWordCharacter [] [] text).filterMap (emitRun emit) := by
  have whole := @foldl_scanStep alphabet β emit [] [] [] text
  simp only [List.append_nil, List.nil_append, utf8Bytes_nil, List.length_nil] at whole
  rw [← whole, scanWords, scanned, finishScan]
  split
  next found start ended =>
    simp only [List.isEmpty_nil, if_true, ended]
    cases start <;> simp

end scanning

section words

def behind (front : List Char) (run : List Char × List Char) : List Char × List Char :=
  (front ++ run.1, run.2)

theorem runs_behind (inside : Char → Bool) (front rest : List Char) :
    Runs.runs inside front [] rest = (Runs.runs inside [] [] rest).map (behind front) := by
  have shifted := @Runs.runs_shift _ inside front [] [] rest
  rw [List.append_nil] at shifted
  exact shifted

theorem words_outside {front : List Char}
    (out : ∀ character ∈ front, alphabet.isWordCharacter character = false) (rest : List Char) :
    words alphabet (front ++ rest) = (words alphabet rest).map (behind front) := by
  rw [words, Runs.runs_outside_append out, List.nil_append, runs_behind, List.filter_map, words]
  rfl

theorem words_white {front : List Char} (white : ∀ character ∈ front, isWhitespace character = true)
    (rest : List Char) :
    words alphabet (front ++ rest) = (words alphabet rest).map (behind front) :=
  words_outside (fun character member => isWordCharacter_space (white character member)) rest

theorem words_append_white {tail : List Char}
    (white : ∀ character ∈ tail, isWhitespace character = true) (front : List Char) :
    words alphabet (front ++ tail) = words alphabet front := by
  rw [words, words, Runs.runs_append_gap]
  exact fun character member => isWordCharacter_space (white character member)

theorem words_append_outside {item : Char} (out : alphabet.isWordCharacter item = false)
    (front rest : List Char) :
    words alphabet (front ++ item :: rest) =
      words alphabet front ++ (words alphabet rest).map (behind (front ++ [item])) := by
  rw [words, Runs.runs_append_outside out, List.nil_append, List.nil_append,
    runs_behind _ (front ++ [item]), List.filter_append, List.filter_map]
  rfl

theorem wordRange_behind (offset : Nat) (front : List Char) (run : List Char × List Char) :
    wordRange offset (behind front run) = wordRange (offset + (utf8Bytes front).length) run := by
  simp only [wordRange, behind, utf8Bytes_append, List.length_append, Nat.add_assoc]

theorem wordRange_within {text : List Char} {run : List Char × List Char}
    (member : run ∈ words alphabet text) (offset : Nat) :
    offset ≤ (wordRange offset run).1 ∧ (wordRange offset run).1 < (wordRange offset run).2 ∧
      (wordRange offset run).2 ≤ offset + (utf8Bytes text).length := by
  obtain ⟨after, rfl, found⟩ := Runs.mem_runs_iff.mp (List.mem_of_mem_filter member)
  have size := length_le_utf8Bytes run.2
  have some_ := List.length_pos_of_ne_nil found.nonempty
  simp only [wordRange, utf8Bytes_append, List.length_append]
  omega

end words

end KnotEditor.Readings
