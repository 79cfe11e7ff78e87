import KnotEditor.Library.Greedy
import KnotEditor.EndpointCapture
import Mathlib.Data.Finset.Basic

/-! The folded source reading: which folds a snapshot offers and what collapsed ones conceal. -/

namespace KnotEditor.Desktop.DocumentFolding

inductive KnotFoldKindV1
  | section_
  | list
  | blockquote
  | codeBlock
  | div
  deriving DecidableEq

structure KnotFoldItemV1 where
  kind : KnotFoldKindV1
  start : Nat
  finish : Nat
  deriving DecidableEq

structure KnotFoldSnapshotV1 where
  address : String
  sourceText : String
  items : List KnotFoldItemV1

structure NormalizedFold where
  sourceIndex : Nat
  kind : KnotFoldKindV1
  start : Nat
  finish : Nat
  deriving DecidableEq

def slice (source : String) (start finish : Nat) : List Char :=
  ((sourceRange source start finish).map SourceRange.inside).getD []

def foldable (source : String) (item : KnotFoldItemV1) : Bool :=
  decide (item.start < item.finish) && decide (item.finish ≤ source.utf8ByteSize) &&
    isCharBoundary source item.start && isCharBoundary source item.finish &&
    (slice source item.start item.finish).contains '\n'

def candidates (snapshot : KnotFoldSnapshotV1) : List NormalizedFold :=
  snapshot.items.zipIdx.filterMap fun entry =>
    if foldable snapshot.sourceText entry.1 then
      some ⟨entry.2, entry.1.kind, entry.1.start, entry.1.finish⟩
    else none

def comesFirst (left right : NormalizedFold) : Bool :=
  decide (left.start < right.start) ||
    (decide (left.start = right.start) && decide (right.finish ≤ left.finish))

def duplicates (fold candidate : NormalizedFold) : Bool :=
  decide (fold.start = candidate.start) && decide (fold.finish = candidate.finish)

def crosses (fold candidate : NormalizedFold) : Bool :=
  decide (candidate.start < fold.finish) && decide (fold.finish < candidate.finish)

def accept (accepted : List NormalizedFold) (candidate : NormalizedFold) : List NormalizedFold :=
  let duplicate := accepted.any fun fold => duplicates fold candidate
  let crossing := accepted.any fun fold => crosses fold candidate
  if !duplicate && !crossing then accepted ++ [candidate] else accepted

def normalizedFolds (snapshot : KnotFoldSnapshotV1) : List NormalizedFold :=
  ((candidates snapshot).mergeSort comesFirst).foldl accept []

def contains (outer fold : NormalizedFold) : Bool :=
  decide (outer.start ≤ fold.start) && decide (fold.finish ≤ outer.finish)

def pushOutermost (outermost : List NormalizedFold) (fold : NormalizedFold) :
    List NormalizedFold :=
  if outermost.any fun outer => contains outer fold then outermost else outermost ++ [fold]

def outermostFolds (snapshot : KnotFoldSnapshotV1) (collapsed : Finset Nat) :
    List NormalizedFold :=
  ((normalizedFolds snapshot).filter fun fold => decide (fold.sourceIndex ∈ collapsed)).foldl
    pushOutermost []

def findLineFeed (text : List Char) : Option Nat :=
  if text.contains '\n' then some (utf8Bytes (text.takeWhile (· ≠ '\n'))).length else none

def concealRange (source : String) (fold : NormalizedFold) : Option (Nat × Nat) := do
  let openingBreak := fold.start + (← findLineFeed (slice source fold.start fold.finish))
  let finish :=
    if (slice source 0 fold.finish).getLast? = some '\n' then fold.finish - 1 else fold.finish
  if openingBreak < finish then some (openingBreak, finish) else none

/-- A collapsed fold hides everything from its opening line's break to its own last break. -/
def concealRanges (snapshot : KnotFoldSnapshotV1) (collapsed : Finset Nat) : List (Nat × Nat) :=
  (outermostFolds snapshot collapsed).filterMap (concealRange snapshot.sourceText)

end KnotEditor.Desktop.DocumentFolding

/-! Accepted folds are nested or apart, and what collapsed ones conceal lies apart. -/

namespace KnotEditor.Desktop.DocumentFolding

def refusesFold (fold candidate : NormalizedFold) : Bool :=
  duplicates fold candidate || crosses fold candidate

theorem accept_eq_keep : accept = Greedy.keep refusesFold := by
  funext accepted candidate
  have either : (accepted.any fun fold => refusesFold fold candidate) =
      ((accepted.any fun fold => duplicates fold candidate) ||
        accepted.any fun fold => crosses fold candidate) := by
    rw [Bool.eq_iff_iff]
    simp only [refusesFold, Bool.or_eq_true, List.any_eq_true, and_or_left, exists_or]
  rw [accept, Greedy.keep, either]
  cases accepted.any fun fold => duplicates fold candidate <;>
    cases accepted.any fun fold => crosses fold candidate <;> rfl

theorem normalizedFolds_eq (snapshot : KnotFoldSnapshotV1) :
    normalizedFolds snapshot =
      Greedy.select refusesFold ((candidates snapshot).mergeSort comesFirst) := by
  rw [normalizedFolds, accept_eq_keep, Greedy.select]

theorem outermostFolds_eq (snapshot : KnotFoldSnapshotV1) (collapsed : Finset Nat) :
    outermostFolds snapshot collapsed = Greedy.select contains
      ((normalizedFolds snapshot).filter fun fold => decide (fold.sourceIndex ∈ collapsed)) := rfl

structure Laminar (first second : NormalizedFold) : Prop where
  ordered : first.start < second.start ∨ first.start = second.start ∧ second.finish < first.finish
  nestedOrApart : second.finish ≤ first.finish ∨ first.finish ≤ second.start

theorem comesFirst_iff {left right : NormalizedFold} : comesFirst left right = true ↔
    left.start < right.start ∨ left.start = right.start ∧ right.finish ≤ left.finish := by
  simp only [comesFirst, Bool.or_eq_true, Bool.and_eq_true, decide_eq_true_eq]

theorem sorted_candidates (snapshot : KnotFoldSnapshotV1) :
    ((candidates snapshot).mergeSort comesFirst).Pairwise fun left right =>
      comesFirst left right = true := by
  refine List.pairwise_mergeSort ?_ ?_ _
  · intro first second third before later
    rw [comesFirst_iff] at before later ⊢
    omega
  · intro first second
    rw [Bool.or_eq_true, comesFirst_iff, comesFirst_iff]
    omega

/-- A candidate that ends where it should neither repeats an accepted fold nor crosses it: the one
comparison is enough because the accepted fold starts no later. -/
theorem normalizedFolds_laminar (snapshot : KnotFoldSnapshotV1) :
    (normalizedFolds snapshot).Pairwise Laminar := by
  rw [normalizedFolds_eq]
  have order := (sorted_candidates snapshot).sublist (Greedy.select_sublist refusesFold _)
  have accepted := Greedy.select_pairwise refusesFold ((candidates snapshot).mergeSort comesFirst)
  refine (order.and accepted).imp ?_
  rintro first second ⟨before, apart⟩
  rw [comesFirst_iff] at before
  simp only [refusesFold, duplicates, crosses, Bool.or_eq_false_iff, Bool.and_eq_false_iff,
    decide_eq_false_iff_not] at apart
  constructor <;> omega

theorem mem_candidates {snapshot : KnotFoldSnapshotV1} {fold : NormalizedFold}
    (member : fold ∈ candidates snapshot) :
    snapshot.items[fold.sourceIndex]? = some ⟨fold.kind, fold.start, fold.finish⟩ ∧
      foldable snapshot.sourceText ⟨fold.kind, fold.start, fold.finish⟩ = true := by
  obtain ⟨⟨item, index⟩, entry, same⟩ := List.mem_filterMap.mp member
  split at same
  next valid =>
    cases same
    exact ⟨List.mem_zipIdx_iff_getElem?.mp entry, valid⟩
  · cases same

theorem mem_normalizedFolds {snapshot : KnotFoldSnapshotV1} {fold : NormalizedFold}
    (member : fold ∈ normalizedFolds snapshot) :
    snapshot.items[fold.sourceIndex]? = some ⟨fold.kind, fold.start, fold.finish⟩ ∧
      foldable snapshot.sourceText ⟨fold.kind, fold.start, fold.finish⟩ = true := by
  rw [normalizedFolds_eq] at member
  exact mem_candidates (List.mem_mergeSort.mp ((Greedy.select_sublist ..).subset member))

structure FoldText (source : List Char) (start finish : Nat) where
  before : List Char
  line : List Char
  rest : List Char
  after : List Char
  whole : source = before ++ (line ++ '\n' :: rest) ++ after
  starts : start = (utf8Bytes before).length
  finishes : finish = start + (utf8Bytes (line ++ '\n' :: rest)).length
  oneLine : '\n' ∉ line

theorem slice_eq {source : String} {before inside after : List Char} {start finish : Nat}
    (whole : source.toList = before ++ inside ++ after) (starts : start = (utf8Bytes before).length)
    (finishes : finish = start + (utf8Bytes inside).length) :
    slice source start finish = inside := by
  rw [slice, sourceRange_append whole starts finishes]
  rfl

theorem foldable_iff {source : String} {item : KnotFoldItemV1} :
    foldable source item = true ↔ item.start < item.finish ∧ item.finish ≤ source.utf8ByteSize ∧
      CharBoundary source item.start ∧ CharBoundary source item.finish ∧
      '\n' ∈ slice source item.start item.finish := by
  simp only [foldable, Bool.and_eq_true, decide_eq_true_eq, List.contains_iff_mem, isCharBoundary,
    CharBoundary, and_assoc]

theorem foldText_of_foldable {source : String} {item : KnotFoldItemV1}
    (valid : foldable source item = true) :
    Nonempty (FoldText source.toList item.start item.finish) := by
  obtain ⟨ordered, _, first, second, feed⟩ := foldable_iff.mp valid
  obtain ⟨range, sliced⟩ := sourceRange_of_boundaries (Nat.le_of_lt ordered) first second
  obtain ⟨whole, starts, finishes⟩ := sourceRange_spec sliced
  rw [slice_eq whole starts finishes] at feed
  obtain ⟨line, rest, same, oneLine⟩ := List.eq_append_cons_of_mem feed
  rw [same] at whole finishes
  exact ⟨⟨range.before, line, rest, range.after, whole, starts, finishes, oneLine⟩⟩

section hidden

variable {source : String} {start finish : Nat}

/-- From the end of the opening line to the fold's last line feed, or to its end without one. -/
def FoldText.hidden (text : FoldText source.toList start finish) : Nat × Nat :=
  (start + (utf8Bytes text.line).length,
    if (text.line ++ '\n' :: text.rest).getLast? = some '\n' then finish - 1 else finish)

variable (text : FoldText source.toList start finish)

theorem FoldText.slice :
    DocumentFolding.slice source start finish = text.line ++ '\n' :: text.rest :=
  slice_eq text.whole text.starts text.finishes

theorem FoldText.slice_zero :
    DocumentFolding.slice source 0 finish = text.before ++ (text.line ++ '\n' :: text.rest) := by
  have whole : source.toList = [] ++ (text.before ++ (text.line ++ '\n' :: text.rest)) ++ text.after :=
    text.whole
  refine slice_eq whole rfl ?_
  rw [utf8Bytes_append, List.length_append, ← text.starts, Nat.zero_add]
  exact text.finishes

theorem findLineFeed_line {line : List Char} (oneLine : '\n' ∉ line) (rest : List Char) :
    findLineFeed (line ++ '\n' :: rest) = some (utf8Bytes line).length := by
  have taken : (line ++ '\n' :: rest).takeWhile (· ≠ '\n') = line := by
    rw [List.takeWhile_append_of_pos]
    · simp
    · intro character member
      have differs : character ≠ '\n' := fun same => oneLine (same ▸ member)
      simpa using differs
  rw [findLineFeed, if_pos (by simp), taken]

theorem FoldText.concealRange_eq_some_iff {fold : NormalizedFold} {range : Nat × Nat}
    (text : FoldText source.toList fold.start fold.finish) :
    concealRange source fold = some range ↔ text.hidden.1 < text.hidden.2 ∧ text.hidden = range := by
  have last : (text.before ++ (text.line ++ '\n' :: text.rest)).getLast? =
      (text.line ++ '\n' :: text.rest).getLast? :=
    List.getLast?_append_of_ne_nil _ (by simp)
  simp only [concealRange, text.slice, text.slice_zero, findLineFeed_line text.oneLine, last,
    Option.bind_eq_bind, Option.bind_some]
  refine Option.ite_none_right_eq_some.trans (and_congr_right fun _ => ?_)
  exact Option.some_inj

theorem FoldText.within :
    start ≤ text.hidden.1 ∧ text.hidden.2 ≤ finish := by
  refine ⟨Nat.le_add_right .., ?_⟩
  rw [hidden]
  split
  · exact Nat.sub_le ..
  · exact Nat.le_refl _

theorem charBoundary_append {before after : List Char} (whole : source.toList = before ++ after)
    {offset : Nat} (here : offset = (utf8Bytes before).length) : CharBoundary source offset := by
  rw [CharBoundary, whole, here, splitAtByte_append]
  rfl

theorem FoldText.boundaries :
    CharBoundary source text.hidden.1 ∧ CharBoundary source text.hidden.2 := by
  obtain ⟨before, line, rest, after, whole, starts, finishes, oneLine⟩ := text
  constructor
  · have first : source.toList = (before ++ line) ++ ('\n' :: rest ++ after) := by
      rw [whole]
      simp only [List.append_assoc]
    refine charBoundary_append first ?_
    rw [utf8Bytes_append, List.length_append, ← starts, hidden]
  · rw [hidden]
    dsimp only
    split
    next last =>
      obtain ⟨front, same⟩ := List.getLast?_eq_some_iff.mp last
      have second : source.toList = (before ++ front) ++ ('\n' :: after) := by
        rw [whole, same]
        simp only [List.append_assoc, List.singleton_append]
      refine charBoundary_append second ?_
      rw [same, utf8Bytes_append, List.length_append] at finishes
      have feed : (utf8Bytes ['\n']).length = 1 := by decide
      rw [utf8Bytes_append, List.length_append, ← starts]
      omega
    · refine charBoundary_append whole ?_
      rw [utf8Bytes_append, List.length_append, ← starts]
      exact finishes

end hidden

theorem outermostFolds_subset {snapshot : KnotFoldSnapshotV1} {collapsed : Finset Nat}
    {fold : NormalizedFold} (member : fold ∈ outermostFolds snapshot collapsed) :
    fold ∈ normalizedFolds snapshot ∧ fold.sourceIndex ∈ collapsed := by
  rw [outermostFolds_eq] at member
  have kept := (Greedy.select_sublist ..).subset member
  rw [List.mem_filter, decide_eq_true_eq] at kept
  exact kept

theorem concealRange_within {snapshot : KnotFoldSnapshotV1} {fold : NormalizedFold}
    {range : Nat × Nat} (accepted : fold ∈ normalizedFolds snapshot)
    (same : concealRange snapshot.sourceText fold = some range) :
    range.1 < range.2 ∧ fold.start ≤ range.1 ∧ range.2 ≤ fold.finish := by
  obtain ⟨text⟩ := foldText_of_foldable (mem_normalizedFolds accepted).2
  obtain ⟨nonempty, rfl⟩ := text.concealRange_eq_some_iff.mp same
  exact ⟨nonempty, text.within⟩

theorem outermostFolds_apart (snapshot : KnotFoldSnapshotV1) (collapsed : Finset Nat) :
    (outermostFolds snapshot collapsed).Pairwise fun first second =>
      first.finish ≤ second.start := by
  rw [outermostFolds_eq]
  have laminar := ((normalizedFolds_laminar snapshot).filter
    fun fold => decide (fold.sourceIndex ∈ collapsed)).sublist (Greedy.select_sublist contains _)
  refine (laminar.and (Greedy.select_pairwise contains _)).imp ?_
  rintro first second ⟨⟨ordered, nestedOrApart⟩, outside⟩
  simp only [contains, Bool.and_eq_false_iff, decide_eq_false_iff_not] at outside
  omega

/-- Folding is laminar, and what it conceals is in order, apart and each a collapsed fold's own. -/
theorem folds_laminar_and_conceal (snapshot : KnotFoldSnapshotV1) (collapsed : Finset Nat) :
    (∀ fold ∈ normalizedFolds snapshot,
      snapshot.items[fold.sourceIndex]? = some ⟨fold.kind, fold.start, fold.finish⟩ ∧
        fold.start < fold.finish ∧ fold.finish ≤ snapshot.sourceText.utf8ByteSize ∧
        CharBoundary snapshot.sourceText fold.start ∧
        CharBoundary snapshot.sourceText fold.finish ∧
        '\n' ∈ slice snapshot.sourceText fold.start fold.finish) ∧
      (normalizedFolds snapshot).Pairwise Laminar ∧
      (concealRanges snapshot collapsed).Pairwise
        (fun first second => first.1 < second.1 ∧ first.2 ≤ second.1) ∧
      (∀ range ∈ concealRanges snapshot collapsed, range.1 < range.2 ∧
        CharBoundary snapshot.sourceText range.1 ∧ CharBoundary snapshot.sourceText range.2 ∧
        ∃ fold ∈ normalizedFolds snapshot, fold.sourceIndex ∈ collapsed ∧
          ∃ text : FoldText snapshot.sourceText.toList fold.start fold.finish,
            range = text.hidden) ∧
      ∀ fold ∈ normalizedFolds snapshot, fold.sourceIndex ∈ collapsed →
        (∀ other ∈ normalizedFolds snapshot, other.sourceIndex ∈ collapsed →
          other.start ≤ fold.start → fold.finish ≤ other.finish → other = fold) →
        ∀ text : FoldText snapshot.sourceText.toList fold.start fold.finish,
          text.hidden.1 < text.hidden.2 → text.hidden ∈ concealRanges snapshot collapsed := by
  refine ⟨?_, normalizedFolds_laminar snapshot, ?_, ?_, ?_⟩
  · intro fold member
    obtain ⟨item, valid⟩ := mem_normalizedFolds member
    exact ⟨item, foldable_iff.mp valid⟩
  · refine List.pairwise_filterMap.mpr
      ((outermostFolds_apart snapshot collapsed).imp_of_mem ?_)
    intro first second inFirst inSecond apart range same other later
    have inside := concealRange_within (outermostFolds_subset inFirst).1 same
    have behind := concealRange_within (outermostFolds_subset inSecond).1 later
    omega
  · intro range member
    obtain ⟨fold, outer, same⟩ := List.mem_filterMap.mp member
    obtain ⟨accepted, folded⟩ := outermostFolds_subset outer
    obtain ⟨text⟩ := foldText_of_foldable (mem_normalizedFolds accepted).2
    obtain ⟨nonempty, rfl⟩ := text.concealRange_eq_some_iff.mp same
    exact ⟨nonempty, text.boundaries.1, text.boundaries.2, fold, accepted, folded, text, rfl⟩
  · intro fold accepted folded outer text nonempty
    have inList : fold ∈ outermostFolds snapshot collapsed := by
      have kept : fold ∈ (normalizedFolds snapshot).filter fun fold =>
          decide (fold.sourceIndex ∈ collapsed) :=
        List.mem_filter.mpr ⟨accepted, decide_eq_true folded⟩
      rw [outermostFolds_eq]
      rcases Greedy.mem_select_or_refused contains kept with inside | ⟨other, present, holds⟩
      · exact inside
      · simp only [contains, Bool.and_eq_true, decide_eq_true_eq] at holds
        obtain ⟨known, shut⟩ := outermostFolds_subset (outermostFolds_eq .. ▸ present)
        exact outer other known shut holds.1 holds.2 ▸ present
    exact List.mem_filterMap.mpr ⟨fold, inList, text.concealRange_eq_some_iff.mpr ⟨nonempty, rfl⟩⟩

end KnotEditor.Desktop.DocumentFolding
