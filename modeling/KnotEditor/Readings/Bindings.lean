import KnotEditor.Desktop.DocumentFolding
import KnotEditor.Readings.LinkSpans

/-! What a script sees of a document: copies of its headings, sections, folds and links, and the
spans in them. -/

namespace KnotEditor.Readings.Bindings

open Desktop.DocumentFolding (KnotFoldItemV1 KnotFoldKindV1)

structure KnotOutlineItemV1 where
  label : String
  level : UInt8
  start : Nat
  finish : Nat
  deriving DecidableEq

structure ReadingInput where
  text : String
  outline : List KnotOutlineItemV1
  folds : List KnotFoldItemV1
  links : List ReadingLink

structure SpanValue where
  start : Nat
  finish : Nat
  deriving DecidableEq

structure HeadingValue where
  label : String
  level : Int
  start : Nat
  finish : Nat

def HeadingValue.span (heading : HeadingValue) : SpanValue := ⟨heading.start, heading.finish⟩

structure SectionValue where
  label : String
  level : Int
  heading : SpanValue
  body : SpanValue
  span : SpanValue

structure FoldValue where
  kind : String
  start : Nat
  finish : Nat

def FoldValue.span (fold : FoldValue) : SpanValue := ⟨fold.start, fold.finish⟩

structure LinkValue where
  target : String
  rel : String
  text : String
  span : SpanValue
  hasSpan : Bool

/-- The index `text[start..end]` panics, which `none` stands for, when the range is reversed. -/
def slice (text : String) (span : SpanValue) : Option (Except String (List Char)) :=
  if span.finish > text.utf8ByteSize then
    some (.error s!"span {span.start}..{span.finish} runs past the {text.utf8ByteSize} byte source")
  else if (splitAtByte text.toList span.start).isNone ∨
      (splitAtByte text.toList span.finish).isNone then
    some (.error s!"span {span.start}..{span.finish} does not land on character boundaries")
  else
    (sourceRange text span.start span.finish).map fun range => .ok range.inside

def foldKind : KnotFoldKindV1 → String
  | .section_ => "section"
  | .list => "list"
  | .blockquote => "blockquote"
  | .codeBlock => "code"
  | .div => "div"

def outline (input : ReadingInput) : List HeadingValue :=
  input.outline.map fun item => ⟨item.label, item.level.toNat, item.start, item.finish⟩

def nextStart (text : String) (items : List KnotOutlineItemV1)
    (entry : KnotOutlineItemV1 × Nat) : Nat :=
  (((items.drop (entry.2 + 1)).find? fun later => decide (later.level ≤ entry.1.level)).map
    KnotOutlineItemV1.start).getD text.utf8ByteSize

def sectionOf (text : String) (items : List KnotOutlineItemV1)
    (entry : KnotOutlineItemV1 × Nat) : SectionValue :=
  let finish := max (nextStart text items entry) entry.1.finish
  { label := entry.1.label
    level := entry.1.level.toNat
    heading := ⟨entry.1.start, entry.1.finish⟩
    body := ⟨entry.1.finish, finish⟩
    span := ⟨entry.1.start, finish⟩ }

def sections (input : ReadingInput) : List SectionValue :=
  input.outline.zipIdx.map (sectionOf input.text input.outline)

def folds (input : ReadingInput) : List FoldValue :=
  input.folds.map fun item => ⟨foldKind item.kind, item.start, item.finish⟩

def links (input : ReadingInput) : List LinkValue :=
  input.links.map fun link =>
    let (start, finish) := link.span.getD (0, 0)
    ⟨link.target, link.rel.getD "", link.text, ⟨start, finish⟩, link.span.isSome⟩

/-- The constructor `span(start, end)`. -/
def makeSpan (text : String) (start finish : Int) : Option (Except String SpanValue) :=
  if start < 0 ∨ finish < start then
    some (.error s!"span({start}, {finish}) is not a range")
  else
    let span : SpanValue := ⟨start.toNat, finish.toNat⟩
    (slice text span).map fun sliced => sliced.map fun _ => span

inductive Obtains (input : ReadingInput) : SpanValue → Prop
  | made (start finish : Int) (span : SpanValue)
      (constructed : makeSpan input.text start finish = some (.ok span)) : Obtains input span
  | ofHeading (heading : HeadingValue) (listed : heading ∈ outline input) :
      Obtains input heading.span
  | ofSectionHeading (part : SectionValue) (listed : part ∈ sections input) :
      Obtains input part.heading
  | ofSectionBody (part : SectionValue) (listed : part ∈ sections input) : Obtains input part.body
  | ofSection (part : SectionValue) (listed : part ∈ sections input) : Obtains input part.span
  | ofFold (fold : FoldValue) (listed : fold ∈ folds input) : Obtains input fold.span
  | ofLink (link : LinkValue) (listed : link ∈ links input) : Obtains input link.span

theorem slice_of_ordered {text : String} {span : SpanValue} (ordered : span.start ≤ span.finish) :
    ∃ answer, slice text span = some answer := by
  rw [slice]
  split
  · exact ⟨_, rfl⟩
  · split
    · exact ⟨_, rfl⟩
    next outside =>
      rw [not_or, Option.isNone_iff_eq_none, Option.isNone_iff_eq_none, ← ne_eq, ← ne_eq,
        Option.ne_none_iff_isSome, Option.ne_none_iff_isSome] at outside
      obtain ⟨range, cut⟩ := sourceRange_of_boundaries ordered outside.1 outside.2
      rw [cut]
      exact ⟨_, rfl⟩

theorem slice_of_boundaries {text : String} {span : SpanValue} (ordered : span.start ≤ span.finish)
    (ends : span.finish ≤ text.utf8ByteSize) (first : CharBoundary text span.start)
    (second : CharBoundary text span.finish) :
    ∃ inside, slice text span = some (.ok inside) := by
  obtain ⟨range, cut⟩ := sourceRange_of_boundaries ordered first second
  rw [CharBoundary, Option.isSome_iff_ne_none] at first second
  rw [slice, if_neg (Nat.not_lt.mpr ends), if_neg (by simp [first, second]), cut]
  exact ⟨_, rfl⟩

theorem ordered_of_makeSpan {text : String} {start finish : Int} {span : SpanValue}
    (made : makeSpan text start finish = some (.ok span)) : span.start ≤ span.finish := by
  rw [makeSpan] at made
  split at made
  · cases made
  next ranged =>
    obtain ⟨sliced, _, same⟩ := Option.map_eq_some_iff.mp made
    obtain ⟨_, _, rfl⟩ := Fallible.map_eq_ok_iff.mp same
    rw [not_or] at ranged
    show start.toNat ≤ finish.toNat
    omega

end KnotEditor.Readings.Bindings
