import KnotEditor.DjotMergeSymmetry
import KnotEditor.SourceRanges

/-! The blocks of a Djot source divide it: whatever the parser reports, blocks that are accepted
follow one another from the first byte to the last. -/

namespace KnotEditor

def OnBoundaries (source : String) (events : List (DjotEvent × Range)) : Prop :=
  ∀ event ∈ events, CharBoundary source event.2.start ∧ CharBoundary source event.2.finish

def blockSpans (host : MergeHost) (source : String) : Option (List PendingBlock) := do
  let scan ← (host.parse source).foldlM BlockScan.step {}
  if scan.pending.isSome || !scan.stack.isEmpty then none
  match scan.raw with
  | [] => none
  | first :: rest =>
    let spans := closeGaps source.utf8ByteSize ({ first with start := 0 } :: rest)
    if !spansOrdered spans then none
    return spans

def cutBlock (source : String) (block : PendingBlock) : Option Block := do
  let range ← sourceRange source block.start block.finish
  return { key := block.key, source := String.ofList range.inside }

section spans

variable {host : MergeHost} {source : String} {block : PendingBlock} {rest spans : List PendingBlock}
variable {cut : Block} {cuts : List Block} {front back : List Char}

theorem blocks_eq (host : MergeHost) (source : String) :
    blocks host source = (blockSpans host source).bind fun spans => spans.mapM (cutBlock source) := by
  rw [blocks, blockSpans]
  cases (host.parse source).foldlM BlockScan.step {} with
  | none => rfl
  | some scan =>
    simp only [bind, Option.bind_some]
    split
    · rfl
    · cases scan.raw with
      | nil => rfl
      | cons first rest =>
        simp only
        split <;> rfl

theorem cutBlock_spec (found : cutBlock source block = some cut)
    (split : splitAtByte source.toList block.start = some (front, back)) :
    ∃ after, splitAtByte source.toList block.finish = some (front ++ cut.source.toList, after) ∧
      cut.source.toList ++ after = back := by
  obtain ⟨⟨before, inside, after⟩, sliced, same⟩ := Option.bind_eq_some_iff.mp found
  cases same
  obtain ⟨forward, rest, first, second⟩ := sourceRange_eq_some_iff.mp sliced
  cases split.symm.trans first
  obtain ⟨whole, start⟩ := splitAtByte_spec split
  obtain ⟨tail, size⟩ := splitAtByte_spec second
  have finish : (utf8Bytes (before ++ inside)).length = block.finish := by
    rw [utf8Bytes_append, List.length_append, start, size]
    omega
  have cutAt := splitAtByte_append (before ++ inside) after
  rw [finish, List.append_assoc, tail, whole] at cutAt
  rw [String.toList_ofList]
  exact ⟨after, cutAt, tail⟩

theorem cuts_join (found : (closeGaps source.utf8ByteSize (block :: rest)).mapM (cutBlock source) =
      some cuts) (split : splitAtByte source.toList block.start = some (front, back)) :
    cuts.flatMap (fun cut => cut.source.toList) = back := by
  induction rest generalizing block cuts front back with
  | nil =>
    obtain ⟨cut, tail, one, none_, rfl⟩ := Fallible.mapM_cons_eq_some_iff.mp found
    cases none_
    obtain ⟨after, last, same⟩ := cutBlock_spec one split
    obtain ⟨whole, size⟩ := splitAtByte_spec last
    have total := length_utf8Bytes source
    rw [← whole, utf8Bytes_append, List.length_append, size] at total
    have ends : after = [] := eq_nil_of_utf8Bytes (Nat.add_eq_left.mp total)
    rw [← same, ends]
    rfl
  | cons next tail ih =>
    obtain ⟨cut, others, one, more, rfl⟩ := Fallible.mapM_cons_eq_some_iff.mp found
    obtain ⟨after, reached, same⟩ := cutBlock_spec one split
    rw [List.flatMap_cons, ih more reached, same]

theorem cutBlock_isSome (forward : block.start ≤ block.finish)
    (start : CharBoundary source block.start) (finish : CharBoundary source block.finish) :
    (cutBlock source block).isSome := by
  obtain ⟨⟨front, back⟩, first⟩ := Option.isSome_iff_exists.mp start
  obtain ⟨⟨inside, after⟩, second⟩ :=
    Option.isSome_iff_exists.mp (splitAtByte_later first finish forward)
  have sliced : sourceRange source block.start block.finish = some ⟨front, inside, after⟩ :=
    sourceRange_eq_some_iff.mpr ⟨forward, back, first, second⟩
  rw [cutBlock, sliced]
  rfl

theorem closeGaps_cons (length : Nat) (block : PendingBlock) (rest : List PendingBlock) :
    ∃ first others, closeGaps length (block :: rest) = first :: others := by
  cases rest with
  | nil => exact ⟨_, _, rfl⟩
  | cons next tail => exact ⟨_, _, rfl⟩

theorem cuts_isSome (ordered : spansOrdered (closeGaps source.utf8ByteSize spans) = true)
    (starts : ∀ block ∈ spans, CharBoundary source block.start) :
    ((closeGaps source.utf8ByteSize spans).mapM (cutBlock source)).isSome := by
  induction spans with
  | nil => rfl
  | cons block rest ih =>
    rw [List.forall_mem_cons] at starts
    cases rest with
    | nil =>
      have forward : block.start ≤ source.utf8ByteSize := of_decide_eq_true ordered
      obtain ⟨cut, one⟩ := Option.isSome_iff_exists.mp (@cutBlock_isSome source
        { block with finish := source.utf8ByteSize } forward starts.1 (charBoundary_end source))
      exact Option.isSome_iff_exists.mpr
        ⟨[cut], Fallible.mapM_cons_eq_some_iff.mpr ⟨cut, [], one, rfl, rfl⟩⟩
    | cons next tail =>
      obtain ⟨first, others, shape⟩ := closeGaps_cons source.utf8ByteSize next tail
      rw [closeGaps, shape, spansOrdered, Bool.and_eq_true, Bool.and_eq_true] at ordered
      obtain ⟨⟨forward, _⟩, later⟩ := ordered
      rw [shape] at ih
      obtain ⟨cuts, found⟩ := Option.isSome_iff_exists.mp (ih later starts.2)
      rw [List.forall_mem_cons] at starts
      obtain ⟨cut, one⟩ := Option.isSome_iff_exists.mp (@cutBlock_isSome source
        { block with finish := next.start } (of_decide_eq_true forward) starts.1 starts.2.1)
      rw [closeGaps, shape]
      exact Option.isSome_iff_exists.mpr
        ⟨cut :: cuts, Fallible.mapM_cons_eq_some_iff.mpr ⟨cut, cuts, one, found, rfl⟩⟩

end spans

section scan

variable {source : String} {scan after : BlockScan} {event : DjotEvent × Range}

def BlockScan.Starts (source : String) (scan : BlockScan) : Prop :=
  (∀ block ∈ scan.pending, CharBoundary source block.start) ∧
    ∀ block ∈ scan.raw, CharBoundary source block.start

theorem BlockScan.widen_starts {range : Range} (starts : scan.Starts source)
    (boundary : CharBoundary source range.start) : (scan.widen range).Starts source := by
  refine ⟨fun block held => ?_, starts.2⟩
  obtain ⟨own, found, rfl⟩ := Option.mem_map.mp held
  rcases Nat.le_total own.start range.start with below | above
  · simp only [Nat.min_eq_left below]
    exact starts.1 own found
  · simp only [Nat.min_eq_right above]
    exact boundary

theorem BlockScan.openBlock_starts {container : DjotContainer} {explicitId : Option String}
    {range : Range} (starts : scan.Starts source) (boundary : CharBoundary source range.start)
    (opened : scan.openBlock container explicitId range = some after) : after.Starts source := by
  rw [openBlock] at opened
  split at opened
  · cases opened
  · cases opened
    refine ⟨fun block held => ?_, starts.2⟩
    cases held
    exact boundary

theorem BlockScan.open_starts {container : DjotContainer} {explicitId : Option String}
    {range : Range} (starts : scan.Starts source) (boundary : CharBoundary source range.start)
    (opened : scan.open? container explicitId range = some after) : after.Starts source := by
  cases container with
  | sectionOf id =>
    cases opened
    exact starts
  | document =>
    rw [open?, isDocumentOrSection, Bool.not_true, Bool.and_false] at opened
    · cases opened
      exact starts
    · intro id same
      cases same
  | other debug =>
    rw [open?] at opened
    · split at opened
      · obtain ⟨middle, found, same⟩ := Option.bind_eq_some_iff.mp opened
        cases same
        have held : middle.Starts source := openBlock_starts starts boundary found
        exact held
      · cases opened
        exact starts
    · intro id same
      cases same

theorem BlockScan.settle_starts (starts : scan.Starts source) : scan.settle.Starts source := by
  rw [settle]
  split
  next block held =>
    split
    · refine ⟨fun _ none_ => (by cases none_), ?_⟩
      rw [List.forall_mem_append, List.forall_mem_singleton]
      exact ⟨starts.2, starts.1 block held⟩
    · exact starts
  next => exact starts

theorem BlockScan.close_starts {container : DjotContainer} (starts : scan.Starts source)
    (closed : scan.close? container = some after) : after.Starts source := by
  have settled := settle_starts starts
  obtain ⟨opened, _, closed⟩ := Option.bind_eq_some_iff.mp closed
  obtain ⟨_, closed⟩ := Fallible.refuse_eq_some_iff.mp closed
  split at closed
  · obtain ⟨_, _, same⟩ := Option.bind_eq_some_iff.mp closed
    cases same
    exact settled
  · cases closed
    exact settled

theorem BlockScan.step_starts (starts : scan.Starts source)
    (boundary : CharBoundary source event.2.start) (stepped : scan.step event = some after) :
    after.Starts source := by
  have widened := widen_starts starts boundary
  obtain ⟨kind, range⟩ := event
  rw [step] at stepped
  cases kind with
  | start container explicitId => exact open_starts widened boundary stepped
  | finish container => exact close_starts widened stepped
  | other =>
    cases stepped
    exact widened

theorem BlockScan.run_starts {events : List (DjotEvent × Range)} (starts : scan.Starts source)
    (boundaries : OnBoundaries source events) (ran : events.foldlM step scan = some after) :
    after.Starts source := by
  induction events generalizing scan with
  | nil =>
    cases ran
    exact starts
  | cons event rest ih =>
    rw [OnBoundaries, List.forall_mem_cons] at boundaries
    rw [List.foldlM_cons] at ran
    obtain ⟨middle, stepped, later⟩ := Option.bind_eq_some_iff.mp ran
    exact ih (step_starts starts boundaries.1.1 stepped) boundaries.2 later

end scan

section blocks

variable {host : MergeHost} {source : String} {spans : List PendingBlock} {bs : List Block}

theorem blockSpans_eq_some (found : blockSpans host source = some spans) :
    ∃ scan first rest, (host.parse source).foldlM BlockScan.step {} = some scan ∧
      scan.raw = first :: rest ∧
      spans = closeGaps source.utf8ByteSize ({ first with start := 0 } :: rest) ∧
      spansOrdered spans = true := by
  obtain ⟨scan, ran, found⟩ := Option.bind_eq_some_iff.mp found
  obtain ⟨_, found⟩ := Fallible.refuse_eq_some_iff.mp found
  cases raw : scan.raw with
  | nil =>
    rw [raw] at found
    cases found
  | cons first rest =>
    rw [raw] at found
    obtain ⟨ordered, same⟩ := Fallible.refuse_eq_some_iff.mp found
    cases same
    rw [Bool.not_eq_true', Bool.not_eq_false] at ordered
    exact ⟨scan, first, rest, ran, raw, rfl, ordered⟩

theorem charBoundary_zero (source : String) : CharBoundary source 0 := by
  rw [CharBoundary, splitAtByte]
  rfl

theorem blocks_isSome (boundaries : OnBoundaries source (host.parse source))
    (found : blockSpans host source = some spans) : (blocks host source).isSome := by
  obtain ⟨scan, first, rest, ran, raw, rfl, ordered⟩ := blockSpans_eq_some found
  have none_ : BlockScan.Starts source {} :=
    ⟨fun _ held => (by cases held), List.forall_mem_nil _⟩
  have starts := (BlockScan.run_starts none_ boundaries ran).2
  rw [raw, List.forall_mem_cons] at starts
  rw [blocks_eq, found]
  exact cuts_isSome ordered (List.forall_mem_cons.mpr ⟨charBoundary_zero source, starts.2⟩)

theorem blocks_partition (found : blocks host source = some bs) :
    bs ≠ [] ∧ String.join (bs.map Block.source) = source := by
  rw [blocks_eq] at found
  obtain ⟨spans, parsed, cuts⟩ := Option.bind_eq_some_iff.mp found
  obtain ⟨scan, first, rest, _, _, rfl, _⟩ := blockSpans_eq_some parsed
  refine ⟨?_, String.toList_injective ?_⟩
  · rintro rfl
    obtain ⟨one, others, shape⟩ :=
      closeGaps_cons source.utf8ByteSize { first with start := 0 } rest
    rw [shape] at cuts
    obtain ⟨_, _, _, _, same⟩ := Fallible.mapM_cons_eq_some_iff.mp cuts
    cases same
  · rw [String.toList_join, List.flatMap_map]
    exact cuts_join cuts (splitAtByte_append [] source.toList)

end blocks

/-- What a merge puts in a block's place: exactly one of four, by which side changed it. -/
inductive BlockOutcome (host : MergeHost) (base left right : Block) : String → Prop
  | common (same : left.source = right.source) : BlockOutcome host base left right left.source
  | onlyRight (apart : left.source ≠ right.source) (kept : left.source = base.source) :
      BlockOutcome host base left right right.source
  | onlyLeft (apart : left.source ≠ right.source) (changed : left.source ≠ base.source)
      (kept : right.source = base.source) : BlockOutcome host base left right left.source
  | lines (out : String) (apart : left.source ≠ right.source)
      (changed : left.source ≠ base.source) (changedToo : right.source ≠ base.source)
      (merged : mergeTextLines host base.source left.source right.source = some out) :
      BlockOutcome host base left right out

section merged

variable {host : MergeHost} {base left right : Block} {out : String}
variable {bs ls rs : List Block} {outs : List String}

theorem mergeBlock_outcome (merged : mergeBlock host base left right = some out) :
    BlockOutcome host base left right out := by
  rw [mergeBlock] at merged
  split at merged
  next same =>
    cases merged
    exact .common same
  next apart =>
    split at merged
    next kept =>
      cases merged
      exact .onlyRight apart kept
    next changed =>
      split at merged
      next kept =>
        cases merged
        exact .onlyLeft apart changed kept
      next changedToo => exact .lines out apart changed changedToo merged

theorem BlockOutcome.keeps (outcome : BlockOutcome host base left right out) :
    (right.source = base.source → out = left.source) ∧
      (left.source = base.source → out = right.source) := by
  cases outcome with
  | common same => exact ⟨fun _ => rfl, fun _ => same⟩
  | onlyRight apart kept => exact ⟨fun unchanged => unchanged.trans kept.symm, fun _ => rfl⟩
  | onlyLeft apart changed kept => exact ⟨fun _ => rfl, fun unchanged => absurd unchanged changed⟩
  | lines _ apart changed changedToo merged =>
    exact ⟨fun unchanged => absurd unchanged changedToo, fun unchanged => absurd unchanged changed⟩

theorem outcome_right (kept : left.source = base.source) :
    BlockOutcome host base left right right.source := by
  by_cases same : left.source = right.source
  · exact same ▸ .common same
  · exact .onlyRight same kept

theorem outcome_left (kept : right.source = base.source) :
    BlockOutcome host base left right left.source := by
  by_cases same : left.source = right.source
  · exact .common same
  · exact .onlyLeft same (fun unchanged => same (unchanged.trans kept.symm)) kept

def BlockOutcomes (host : MergeHost) (bs ls rs : List Block) (outs : List String) : Prop :=
  outs.length = bs.length ∧ ∀ (place : Nat) (base left right : Block), bs[place]? = some base →
    ls[place]? = some left → rs[place]? = some right →
      ∃ out, outs[place]? = some out ∧ BlockOutcome host base left right out

theorem blockOutcomes_cons {block : String} (first : BlockOutcome host base left right block)
    (rest : BlockOutcomes host bs ls rs outs) :
    BlockOutcomes host (base :: bs) (left :: ls) (right :: rs) (block :: outs) := by
  refine ⟨congrArg Nat.succ rest.1, fun place => ?_⟩
  cases place with
  | zero =>
    rintro _ _ _ ⟨⟩ ⟨⟩ ⟨⟩
    exact ⟨block, rfl, first⟩
  | succ place => exact rest.2 place

theorem mergeBlocks_outcomes (lefts : bs.length = ls.length) (rights : bs.length = rs.length)
    (merged : mergeBlocks host bs ls rs = some outs) : BlockOutcomes host bs ls rs outs := by
  induction bs generalizing ls rs outs with
  | nil =>
    cases merged
    exact ⟨rfl, fun place base left right found => by cases found⟩
  | cons base bs ih =>
    cases ls with
    | nil => cases lefts
    | cons left ls =>
      cases rs with
      | nil => cases rights
      | cons right rs =>
        obtain ⟨block, one, more⟩ := Option.bind_eq_some_iff.mp merged
        obtain ⟨others, rest, same⟩ := Option.bind_eq_some_iff.mp more
        cases same
        exact blockOutcomes_cons (mergeBlock_outcome one)
          (ih (Nat.succ.inj lefts) (Nat.succ.inj rights) rest)

theorem sources_outcomes (sides : List Block) (length : sides.length = bs.length)
    (each : ∀ (place : Nat) (base left right : Block), bs[place]? = some base →
      ls[place]? = some left → rs[place]? = some right →
        ∃ side, sides[place]? = some side ∧ BlockOutcome host base left right side.source) :
    BlockOutcomes host bs ls rs (sides.map Block.source) := by
  refine ⟨(List.length_map _).trans length, fun place base left right one two three => ?_⟩
  obtain ⟨side, found, outcome⟩ := each place base left right one two three
  exact ⟨side.source, by rw [List.getElem?_map, found, Option.map_some], outcome⟩

theorem mergeDjotSources_outcomes {base left right out : String}
    (ofBase : blocks host base = some bs) (ofLeft : blocks host left = some ls)
    (ofRight : blocks host right = some rs) (lefts : bs.length = ls.length)
    (rights : bs.length = rs.length) (merged : mergeDjotSources host base left right = some out) :
    ∃ outs, String.join outs = out ∧ BlockOutcomes host bs ls rs outs := by
  rw [mergeDjotSources] at merged
  split at merged
  next same =>
    cases merged
    subst same
    cases ofLeft.symm.trans ofRight
    refine ⟨ls.map Block.source, (blocks_partition ofLeft).2,
      sources_outcomes ls lefts.symm fun place one two three _ second third => ?_⟩
    cases second.symm.trans third
    exact ⟨two, second, .common rfl⟩
  next =>
    split at merged
    next same =>
      cases merged
      subst same
      cases ofLeft.symm.trans ofBase
      refine ⟨rs.map Block.source, (blocks_partition ofRight).2,
        sources_outcomes rs rights.symm fun place one two three first second third => ?_⟩
      cases first.symm.trans second
      exact ⟨three, third, outcome_right rfl⟩
    next =>
      split at merged
      next same =>
        cases merged
        subst same
        cases ofRight.symm.trans ofBase
        refine ⟨ls.map Block.source, (blocks_partition ofLeft).2,
          sources_outcomes ls lefts.symm fun place one two three first second third => ?_⟩
        cases first.symm.trans third
        exact ⟨two, second, outcome_left rfl⟩
      next =>
        simp only [ofBase, ofLeft, ofRight, bind, Option.bind_some] at merged
        obtain ⟨_, merged⟩ := Fallible.refuse_eq_some_iff.mp merged
        obtain ⟨outs, each, joined⟩ := Option.map_eq_some_iff.mp merged
        exact ⟨outs, joined, mergeBlocks_outcomes lefts rights each⟩

end merged

/-- Blocks of a stream on boundaries can be cut and divide the source, and a merge of three texts
with the same keys puts out one outcome a block. -/
theorem djot_merge_goes_block_by_block (host : MergeHost) :
    (∀ source, OnBoundaries source (host.parse source) →
      (∀ spans, blockSpans host source = some spans → (blocks host source).isSome) ∧
        ∀ bs, blocks host source = some bs →
          bs ≠ [] ∧ String.join (bs.map Block.source) = source) ∧
      ∀ (base left right out : String) (bs ls rs : List Block), blocks host base = some bs →
        blocks host left = some ls → blocks host right = some rs →
        bs.map Block.key = ls.map Block.key → bs.map Block.key = rs.map Block.key →
        mergeDjotSources host base left right = some out →
          ∃ outs, String.join outs = out ∧ BlockOutcomes host bs ls rs outs ∧
            ∀ (place : Nat) (one two three : Block) (block : String), bs[place]? = some one →
              ls[place]? = some two → rs[place]? = some three → outs[place]? = some block →
                (three.source = one.source → block = two.source) ∧
                  (two.source = one.source → block = three.source) := by
  refine ⟨fun source boundaries => ⟨fun spans found => blocks_isSome boundaries found,
    fun bs found => blocks_partition found⟩, ?_⟩
  intro base left right out bs ls rs ofBase ofLeft ofRight lefts rights merged
  have leftLength : bs.length = ls.length := by
    simpa only [List.length_map] using congrArg List.length lefts
  have rightLength : bs.length = rs.length := by
    simpa only [List.length_map] using congrArg List.length rights
  obtain ⟨outs, joined, outcomes⟩ :=
    mergeDjotSources_outcomes ofBase ofLeft ofRight leftLength rightLength merged
  refine ⟨outs, joined, outcomes, fun place one two three block first second third found => ?_⟩
  obtain ⟨own, placed, outcome⟩ := outcomes.2 place one two three first second third
  cases found.symm.trans placed
  exact outcome.keeps

def twoParagraphs : List (DjotEvent × Range) :=
  [(.start .document none, ⟨0, 0⟩),
    (.start (.other "Paragraph") none, ⟨0, 0⟩), (.other, ⟨0, 1⟩),
    (.finish (.other "Paragraph"), ⟨1, 2⟩), (.other, ⟨2, 3⟩),
    (.start (.other "Paragraph") none, ⟨3, 3⟩), (.other, ⟨3, 4⟩),
    (.finish (.other "Paragraph"), ⟨4, 5⟩), (.finish .document, ⟨5, 5⟩)]

def MergeHost.paragraphs : MergeHost where
  diffSlices _ _ := []
  parse _ := twoParagraphs
  encodeCbor _ _ _ := .error ""
  blake3 _ := .filled 0

/-- Each branch rewrites a paragraph of its own. -/
theorem djot_merge_goes_block_by_block_paragraphs :
    (blocks .paragraphs "a\n\nb\n").isSome = true ∧
      ∃ outs : List String, String.join outs = "x\n\ny\n" ∧ outs.length = 2 := by
  have base : blocks .paragraphs "a\n\nb\n" =
      some [⟨⟨[], "Paragraph:0"⟩, "a\n\n"⟩, ⟨⟨[], "Paragraph:1"⟩, "b\n"⟩] := by decide
  have left : blocks .paragraphs "x\n\nb\n" =
      some [⟨⟨[], "Paragraph:0"⟩, "x\n\n"⟩, ⟨⟨[], "Paragraph:1"⟩, "b\n"⟩] := by decide
  have right : blocks .paragraphs "a\n\ny\n" =
      some [⟨⟨[], "Paragraph:0"⟩, "a\n\n"⟩, ⟨⟨[], "Paragraph:1"⟩, "y\n"⟩] := by decide
  have whole := djot_merge_goes_block_by_block .paragraphs
  obtain ⟨outs, joined, outcomes, _⟩ :=
    whole.2 _ _ _ "x\n\ny\n" _ _ _ base left right rfl rfl (by decide)
  have spans : (blockSpans .paragraphs "a\n\nb\n").isSome = true := by decide
  have boundaries : OnBoundaries "a\n\nb\n" twoParagraphs := by
    unfold OnBoundaries CharBoundary
    decide
  exact ⟨(whole.1 _ boundaries).1 _ (Option.some_get spans).symm, outs, joined, outcomes.1⟩

end KnotEditor
