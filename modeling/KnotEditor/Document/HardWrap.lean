import KnotEditor.Mark.Request
import KnotEditor.Utf8
import Mathlib.Data.List.Sort

/-! Conservative detection of paragraph hard wrapping. -/

namespace KnotEditor.Document.HardWrap

open Mark (textLines)

def tabStop : Nat := 8
def minLineColumn : Nat := 32
def maxSourceBytes : Nat := 1024 * 1024

def columnWidth (line : List Char) : Nat :=
  line.foldl (fun column character =>
    if character = '\t' then column + (tabStop - column % tabStop) else column + 1) 0

structure Fence where
  marker : Char
  length : Nat
  deriving DecidableEq

def openingFence (line : List Char) : Option Fence :=
  let trimmed := line.dropWhile isWhitespace
  match trimmed with
  | [] => none
  | marker :: _ =>
    if ¬(marker = '`' ∨ marker = '~' ∨ marker = ':') then none
    else
      let length := (trimmed.takeWhile (· = marker)).length
      if length < 3 then none else some ⟨marker, length⟩

def closesFence (line : List Char) (opening : Fence) : Bool :=
  let trimmed := line.dropWhile isWhitespace
  let runLength := (trimmed.takeWhile (· = opening.marker)).length
  decide (opening.length ≤ runLength) && (trimmed.drop runLength).all isWhitespace

def startsWith (start : String) (line : List Char) : Bool := start.toList.isPrefixOf line

def containsText (text : String) (line : List Char) : Bool :=
  line.tails.any fun tail => text.toList.isPrefixOf tail

def isAsciiDigit (character : Char) : Bool := '0' ≤ character && character ≤ '9'

def isListMarker (line : List Char) : Bool :=
  match line with
  | [] => false
  | first :: rest =>
    if first = '-' ∨ first = '+' ∨ first = '*' then rest.head?.any isWhitespace
    else if isAsciiDigit first then
      let tail := line.dropWhile isAsciiDigit
      startsWith ". " tail || startsWith ") " tail
    else false

def isReferenceDefinition (line : List Char) : Bool :=
  startsWith "[" line && containsText "]:" line

def isFootnoteDefinition (line : List Char) : Bool :=
  startsWith "[^" line && containsText "]:" line

def isStructural (line : List Char) : Bool :=
  let trimmed := line.dropWhile isWhitespace
  let indent := (utf8Bytes line).length - (utf8Bytes trimmed).length
  decide (4 ≤ indent) || startsWith "|" trimmed || startsWith ">" trimmed ||
    startsWith "#" trimmed || startsWith "\x7b:" trimmed || isFootnoteDefinition trimmed ||
    startsWith "<" trimmed || startsWith "---" trimmed || startsWith "***" trimmed ||
    startsWith "___" trimmed || startsWith "===" trimmed || startsWith "+++" trimmed ||
    isListMarker trimmed || isReferenceDefinition trimmed

/-- The paragraphs so far, the lines of the one being read, and the fence that is open. -/
structure Reading where
  paragraphs : List (List (List Char))
  current : List (List Char)
  fence : Option Fence

def Reading.start : Reading := ⟨[], [], none⟩

def Reading.flush (reading : Reading) : Reading :=
  if reading.current = [] then reading
  else { reading with paragraphs := reading.paragraphs ++ [reading.current], current := [] }

def Reading.next (reading : Reading) (line : List Char) : Reading :=
  match reading.fence with
  | some openFence =>
    if closesFence line openFence then { reading with fence := none } else reading
  | none =>
    match openingFence line with
    | some openFence => { reading.flush with fence := some openFence }
    | none =>
      if line.all isWhitespace then reading.flush
      else { reading with current := reading.current ++ [line] }

def saturatingMul (left right : Nat) : Nat := min (left * right) usizeMax

def nearMeasure (paragraph : List (List Char)) : List Nat :=
  if paragraph.length < 3 then []
  else
    let widths := paragraph.dropLast.map columnWidth
    if widths.length < 2 then []
    else
      let sorted := widths.insertionSort (· ≤ ·)
      let median := sorted[sorted.length / 2]?.getD 0
      if median < minLineColumn then []
      else
        let near := widths.filter fun width =>
          decide (saturatingMul median 3 / 4 ≤ width) && decide (width ≤ saturatingMul median 5 / 4)
        if 2 ≤ near.length ∧ paragraph.length < near.length * 2 then near else []

def prose (paragraphs : List (List (List Char))) : List (List (List Char)) :=
  paragraphs.filter fun paragraph => !paragraph.any isStructural

def wrapColumn (paragraphs : List (List (List Char))) : Option Nat :=
  let continuations := (prose paragraphs).flatMap nearMeasure
  if continuations = [] then none
  else if continuations.length * 2 ≤ ((prose paragraphs).map List.length).sum then none
  else continuations.max?

def stripCarriageReturn (line : List Char) : List Char :=
  if line.getLast? = some '\r' then line.dropLast else line

def sourceLines (source : String) : List (List Char) :=
  (textLines source.toList).map stripCarriageReturn

def admissible (source : String) : Bool :=
  !decide (maxSourceBytes < source.utf8ByteSize) && !source.toList.any fun character =>
    decide (0xff < character.toNat) ||
      (isControl character && !decide (character = '\t' ∨ character = '\n' ∨ character = '\r'))

def readLines (lines : List (List Char)) : Reading := (lines.foldl Reading.next Reading.start).flush

def hardWrapColumn (source : String) : Option Nat :=
  if !admissible source then none
  else
    let reading := readLines (sourceLines source)
    -- An unclosed fence leaves the remainder structurally ambiguous.
    if reading.fence.isSome then none else wrapColumn reading.paragraphs

end KnotEditor.Document.HardWrap
