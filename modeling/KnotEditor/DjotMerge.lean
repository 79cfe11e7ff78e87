import KnotEditor.Sync.DocumentFold
import Mathlib.Data.Prod.Lex

/-! The three-way merge that settles a two-writer document without asking a person.
The line diff and the Djot parser belong to other crates and are taken as functions. -/

namespace KnotEditor

structure Range where
  start : Nat
  finish : Nat
  deriving DecidableEq

inductive DjotContainer
  | document
  | sectionOf (id : String)
  | other (debug : String)
  deriving DecidableEq

inductive DjotEvent
  | start (container : DjotContainer) (explicitId : Option String)
  | finish (container : DjotContainer)
  | other
  deriving DecidableEq

structure DiffOp where
  oldRange : Range
  newRange : Range
  deriving DecidableEq

/-- The line diff of `similar`, the offset event stream of `jotdown`, and the encoding and digest
behind a merged head. -/
structure MergeHost where
  diffSlices : List String → List String → List DiffOp
  parse : String → List (DjotEvent × Range)
  encodeCbor : Bytes32 → List Bytes32 → VaultDocument → Except String ByteArray
  blake3 : ByteArray → Bytes32

structure BlockKey where
  sectionPath : List String
  identity : String
  deriving DecidableEq

structure Block where
  key : BlockKey
  source : String
  deriving DecidableEq

structure PendingBlock where
  key : BlockKey
  depth : Nat
  start : Nat
  finish : Nat
  deriving DecidableEq

structure BlockScan where
  sections : List String := []
  stack : List DjotContainer := []
  ordinals : List ((List String × String) × Nat) := []
  pending : Option PendingBlock := none
  raw : List PendingBlock := []

def isDocumentOrSection : DjotContainer → Bool
  | .document => true
  | .sectionOf _ => true
  | .other _ => false

def containerKind : DjotContainer → String
  | .document => "Document"
  | .sectionOf _ => "Section"
  | .other debug =>
    String.ofList (debug.toList.takeWhile fun character =>
      !([' ', '{', '('].contains character))

namespace BlockScan

variable (scan : BlockScan)

def widen (range : Range) : BlockScan :=
  { scan with pending := scan.pending.map fun block =>
      { block with start := min block.start range.start, finish := max block.finish range.finish } }

def nextOrdinal (kind : String) : Nat :=
  match scan.ordinals.lookup (scan.sections, kind) with
  | some ordinal => ordinal + 1
  | none => 0

def openBlock (container : DjotContainer) (explicitId : Option String) (range : Range) :
    Option BlockScan :=
  if scan.pending.isSome then none
  else
    let kind := containerKind container
    let ordinal := scan.nextOrdinal kind
    let identity := match explicitId with
      | some id => s!"id:{id}"
      | none => s!"{kind}:{ordinal}"
    some { scan with
      ordinals := ((scan.sections, kind), ordinal) :: scan.ordinals
      pending := some {
        key := { sectionPath := scan.sections, identity }
        depth := scan.stack.length + 1
        start := range.start
        finish := range.finish } }

def open? (container : DjotContainer) (explicitId : Option String) (range : Range) :
    Option BlockScan := do
  let opened ← match container with
    | .sectionOf id => some { scan with sections := scan.sections ++ [id] }
    | _ =>
      if scan.stack.getLast?.any isDocumentOrSection && !isDocumentOrSection container then
        scan.openBlock container explicitId range
      else some scan
  return { opened with stack := opened.stack ++ [container] }

def settle : BlockScan :=
  match scan.pending with
  | some block =>
    if block.depth = scan.stack.length then
      { scan with raw := scan.raw ++ [block], pending := none }
    else scan
  | none => scan

def close? (container : DjotContainer) : Option BlockScan := do
  let settled := scan.settle
  let opened ← settled.stack.getLast?
  if opened ≠ container then none
  let closed := { settled with stack := settled.stack.dropLast }
  match container with
  | .sectionOf _ => do
      let _ ← closed.sections.getLast?
      return { closed with sections := closed.sections.dropLast }
  | _ => return closed

def step (event : DjotEvent × Range) : Option BlockScan :=
  let widened := scan.widen event.2
  match event.1 with
  | .start container explicitId => widened.open? container explicitId event.2
  | .finish container => widened.close? container
  | .other => some widened

end BlockScan

def closeGaps (length : Nat) : List PendingBlock → List PendingBlock
  | [] => []
  | [block] => [{ block with finish := length }]
  | block :: next :: rest =>
    { block with finish := next.start } :: closeGaps length (next :: rest)

def spansOrdered : List PendingBlock → Bool
  | [] => true
  | [block] => block.start ≤ block.finish
  | block :: next :: rest =>
    block.start ≤ block.finish && block.finish ≤ next.start && spansOrdered (next :: rest)

def blocks (host : MergeHost) (source : String) : Option (List Block) := do
  let scan ← (host.parse source).foldlM BlockScan.step {}
  if scan.pending.isSome || !scan.stack.isEmpty then none
  match scan.raw with
  | [] => none
  | first :: rest =>
    let spans := closeGaps source.utf8ByteSize ({ first with start := 0 } :: rest)
    if !spansOrdered spans then none
    spans.mapM fun block => do
      let range ← sourceRange source block.start block.finish
      return { key := block.key, source := String.ofList range.inside }

structure LineEdit where
  start : Nat
  finish : Nat
  replacement : List String
  deriving DecidableEq

def sliceLines (lines : List String) (range : Range) : List String :=
  (lines.take range.finish).drop range.start

def lineEdits (host : MergeHost) (base branch : List String) : List LineEdit :=
  (host.diffSlices base branch).filterMap fun operation =>
    let old := operation.oldRange
    let new := operation.newRange
    if old.finish - old.start ≠ new.finish - new.start ∨
        sliceLines base old ≠ sliceLines branch new then
      some { start := old.start, finish := old.finish, replacement := sliceLines branch new }
    else none

def lineEditsConflict (left right : LineEdit) : Bool :=
  if left = right then false
  else
    match left.start == left.finish, right.start == right.finish with
    | true, true => left.start == right.start
    | true, false => right.start < left.start && left.start < right.finish
    | false, true => left.start < right.start && right.start < left.finish
    | false, false => max left.start right.start < min left.finish right.finish

/-- `str::split_inclusive('\n')`, gathering the line so far in reverse. -/
def splitLines : List Char → List Char → List String
  | [], [] => []
  | [], current => [String.ofList current.reverse]
  | character :: rest, current =>
    if character = '\n' then
      String.ofList (character :: current).reverse :: splitLines rest []
    else splitLines rest (character :: current)

def LineEdit.key (edit : LineEdit) : Nat ×ₗ Nat ×ₗ List String :=
  toLex (edit.start, toLex (edit.finish, edit.replacement))

/-- `Vec::dedup`: drop every element equal to the one before it. -/
def dedupAdjacent {α : Type} [DecidableEq α] : List α → List α
  | [] => []
  | [value] => [value]
  | value :: next :: rest =>
    if value = next then dedupAdjacent (next :: rest)
    else value :: dedupAdjacent (next :: rest)

def applyEdits (base : List String) : List LineEdit → Nat → Option (List String)
  | [], cursor => some (base.drop cursor)
  | edit :: edits, cursor =>
    if edit.start < cursor then none
    else
      (applyEdits base edits edit.finish).map fun output =>
        sliceLines base { start := cursor, finish := edit.start } ++ edit.replacement ++ output

def mergeTextLines (host : MergeHost) (base left right : String) : Option String :=
  if left = right then some left
  else if left = base then some right
  else if right = base then some left
  else
    let base := splitLines base.toList []
    let leftEdits := lineEdits host base (splitLines left.toList [])
    let rightEdits := lineEdits host base (splitLines right.toList [])
    if leftEdits.any fun left => rightEdits.any fun right => lineEditsConflict left right then none
    else
      let edits := (leftEdits ++ rightEdits).insertionSort fun left right => left.key ≤ right.key
      (applyEdits base (dedupAdjacent edits) 0).map String.join

def mergeScalar {α : Type} [DecidableEq α] (base left right : α) : Option α :=
  if left = right then some left
  else if left = base then some right
  else if right = base then some left
  else none

def mergeBlock (host : MergeHost) (base left right : Block) : Option String :=
  if left.source = right.source then some left.source
  else if left.source = base.source then some right.source
  else if right.source = base.source then some left.source
  else mergeTextLines host base.source left.source right.source

def mergeBlocks (host : MergeHost) : List Block → List Block → List Block → Option (List String)
  | base :: bases, left :: lefts, right :: rights => do
      let source ← mergeBlock host base left right
      let rest ← mergeBlocks host bases lefts rights
      return source :: rest
  | _, _, _ => some []

def mergeDjotSources (host : MergeHost) (base left right : String) : Option String :=
  if left = right then some left
  else if left = base then some right
  else if right = base then some left
  else do
    let base ← blocks host base
    let left ← blocks host left
    let right ← blocks host right
    if base.length < 2 || base.map Block.key ≠ left.map Block.key ||
        base.map Block.key ≠ right.map Block.key then
      none
    (mergeBlocks host base left right).map String.join

def mergeBody (host : MergeHost) (mediaType base left right : String) : Option String :=
  if mediaType = "text/djot" ∨ mediaType = "text/vnd.knot" then
    (mergeDjotSources host base left right).or (mergeTextLines host base left right)
  else mergeTextLines host base left right

def mergeTextDocument (host : MergeHost) (base left right : VaultDocument) :
    Option VaultDocument := do
  if base.id ≠ left.id ∨ base.id ≠ right.id then none
  let title ← mergeScalar base.title left.title right.title
  let mediaType ← mergeScalar base.mediaType left.mediaType right.mediaType
  if !"text/".toList.isPrefixOf mediaType.toList then none
  let baseBody ← String.fromUTF8? base.body
  let leftBody ← String.fromUTF8? left.body
  let rightBody ← String.fromUTF8? right.body
  let body ← mergeBody host mediaType baseBody leftBody rightBody
  return { id := base.id, title, body := body.toUTF8, mediaType }

structure KnotAutomaticTextMerge where
  id : String
  base : Bytes32
  supersedes : List Bytes32
  document : VaultDocument
  deriving DecidableEq

/-- The latest document of `id` in the history that both versions descend from. -/
def commonAncestor (causal : CausalIndex) (history : List VersionRecord) (id : String)
    (left right : KnotDocumentVersion) : Option (Bytes32 × VaultDocument) :=
  history.reverse.findSome? fun record => do
    let document ← record.document
    if record.id = id ∧ causal.happensBefore record.operation left.operation ∧
        causal.happensBefore record.operation right.operation then
      some (record.operation, document)
    else none

def automaticTextMerge (host : MergeHost) (causal : CausalIndex) (history : List VersionRecord)
    (id : String) (versions : WriterVersions) : Option KnotAutomaticTextMerge :=
  match versions.values with
  | [left, right] => do
      let leftDocument ← left.document
      let rightDocument ← right.document
      let (base, baseDocument) ← commonAncestor causal history id left right
      let document ← mergeTextDocument host baseDocument leftDocument rightDocument
      return {
        id
        base
        supersedes := [left.operation, right.operation].insertionSort (· ≤ ·)
        document }
  | _ => none

def automaticTextMergeHead (host : MergeHost) (base : Bytes32) (supersedes : List Bytes32)
    (document : VaultDocument) : Except KnotSyncError Bytes32 := do
  let bytes ← (host.encodeCbor base supersedes document).mapError .payload
  return host.blake3 ("mere.knot.automatic-text-merge.v1".toUTF8 ++ bytes)

end KnotEditor
