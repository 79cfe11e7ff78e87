import KnotEditor.Readings.LinkSpans

/-! Fenced code, as the scan reads its lines and as its fences delimit it. -/

namespace KnotEditor.Readings

/-- A line of nothing but blanks and a run of the mark, at least as long as the one that opened. -/
def closesBlock (opening : Char × Nat) (line : List Char) : Bool :=
  let trimmed := line.dropWhile isWhitespace
  let run := (trimmed.takeWhile (· = opening.1)).length
  opening.2 ≤ run && (trimmed.drop run).all isWhitespace

def blockAfter (block : Option (Char × Nat)) (line : List Char) : Option (Char × Nat) :=
  match block with
  | none => fenceOf (line.dropWhile isWhitespace)
  | some opening => if closesBlock opening line then none else some opening

/-- The byte ranges of the fenced blocks, from the start of the line that opens one to the end of
the line that closes it or of the text. -/
def blocksFrom (lineStart : Nat) (opened : Option (Nat × Char × Nat)) :
    List (List Char) → List (Nat × Nat)
  | [] =>
    match opened with
    | none => []
    | some (start, _) => [(start, lineStart - 1)]
  | line :: lines =>
    let finish := lineStart + (utf8Bytes line).length
    match opened with
    | none =>
      blocksFrom (finish + 1)
        ((fenceOf (line.dropWhile isWhitespace)).map fun opening => (lineStart, opening)) lines
    | some (start, opening) =>
      if closesBlock opening line then (start, finish) :: blocksFrom (finish + 1) none lines
      else blocksFrom (finish + 1) (some (start, opening)) lines

def linesOf (source : String) : List (List Char) := source.toList.splitOn '\n'

def fencedBlocks (source : String) : List (Nat × Nat) := blocksFrom 0 none (linesOf source)

def Within (span block : Nat × Nat) : Prop := block.1 ≤ span.1 ∧ span.2 ≤ block.2

instance (span block : Nat × Nat) : Decidable (Within span block) :=
  inferInstanceAs (Decidable (_ ∧ _))

/-- What the scan goes on with: where the next line starts, the fence and the inline code it takes
to be open, and the links it has. -/
structure ScanState where
  lineStart : Nat
  fence : Option (Char × Nat)
  inlineCode : Option Nat
  found : List Scanned

def ScanState.start : ScanState := ⟨0, none, none, []⟩

def ScanState.next (state : ScanState) (line : List Char) : ScanState :=
  let scanned := scanNext state.lineStart state.fence state.inlineCode state.found line
  ⟨state.lineStart + (utf8Bytes line).length + 1, scanned.1, scanned.2.1, scanned.2.2⟩

def ScanState.scan (state : ScanState) (lines : List (List Char)) : List Scanned :=
  scanLines state.lineStart state.fence state.inlineCode state.found lines

def reached (lines : List (List Char)) : ScanState := lines.foldl ScanState.next ScanState.start

def openBlock (lines : List (List Char)) : Option (Char × Nat) := lines.foldl blockAfter none

def LinkFree (inlineCode : Option Nat) (line : List Char) : Prop :=
  (scanLine 0 none line inlineCode []).2 = []

def Skipped (state : ScanState) (line : List Char) : Prop :=
  maxScannedLinks ≤ state.found.length ∨ state.fence.isSome ∨
    (fenceOf (line.dropWhile isWhitespace)).isSome

/-- Inside a block a line began with a run that would close it and went on with other text. -/
def Annotated (lines : List (List Char)) : Prop :=
  ∃ before line after, lines = before ++ line :: after ∧
    ∃ opening run, openBlock before = some opening ∧
      fenceOf (line.dropWhile isWhitespace) = some (opening.1, run) ∧ opening.2 ≤ run ∧
      closesBlock opening line = false

/-- Of the lines inside a block, those behind such a line are passed over or have no link. -/
def BlocksUnread (source : String) : Prop :=
  ∀ before line after, linesOf source = before ++ line :: after → (openBlock before).isSome →
    Annotated before → Skipped (reached before) line ∨
      LinkFree (if (line.dropWhile isWhitespace).isEmpty then none else (reached before).inlineCode)
        line

section bounds

variable {lineStart : Nat} {fence : Option (Char × Nat)} {inlineCode : Option Nat}
  {out : List Scanned}

def AddsWithin (low high : Nat) (out result : List Scanned) : Prop :=
  ∃ found, result = out ++ found ∧
    ∀ scanned ∈ found, low ≤ scanned.span.1 ∧ scanned.span.1 < scanned.span.2 ∧
      scanned.span.2 ≤ high

theorem Adds.within {source line : List Char} {index : Nat} {out result : List Scanned}
    (adds : Adds source index line out result) :
    AddsWithin index (index + (utf8Bytes line).length) out result := by
  obtain ⟨found, same, inside⟩ := adds
  refine ⟨found, same, ?_⟩
  intro scanned member
  obtain ⟨placed⟩ := inside.placed scanned member
  have finishes := placed.finishes
  have bounds := inside.within scanned member
  omega

theorem length_newlines (count : Nat) : (utf8Bytes (List.replicate count '\n')).length = count := by
  rw [length_marks, List.length_replicate]
  intro mark member
  rw [(List.mem_replicate.mp member).2]
  decide

theorem scanNext_within (line : List Char) :
    AddsWithin lineStart (lineStart + (utf8Bytes line).length) out
      (scanNext lineStart fence inlineCode out line).2.2 := by
  -- Where a line stands does not depend on what stands before it: take blank lines.
  have whole : List.replicate lineStart '\n' ++ line =
      List.replicate lineStart '\n' ++ line ++ [] := (List.append_nil _).symm
  refine (scanNext_adds whole (length_newlines lineStart).symm ?_ fence inlineCode out).within
  intro last member
  exact (List.mem_replicate.mp (List.mem_of_getLast? member)).2

theorem scanLines_within (lines : List (List Char)) :
    AddsWithin lineStart (lineStart + (utf8Bytes (['\n'].intercalate lines)).length) out
      (scanLines lineStart fence inlineCode out lines) := by
  refine (scanLines_adds (List.replicate lineStart '\n') rfl (length_newlines lineStart).symm ?_ fence
    inlineCode out).within
  intro last member
  exact (List.mem_replicate.mp (List.mem_of_getLast? member)).2

end bounds

theorem scanLine_extends (index : Nat) (previous : Option Char) (line : List Char)
    (inlineCode : Option Nat) (out : List Scanned) :
    out <+: (scanLine index previous line inlineCode out).2 := by
  fun_induction scanLine index previous line inlineCode out with
  | case1 => exact List.prefix_rfl
  | case10 => exact List.prefix_rfl
  | case12 => exact List.prefix_append ..
  | case13 _ _ _ _ _ _ _ _ _ _ _ _ _ _ _ _ _ =>
    rename_i ih
    exact (List.prefix_append ..).trans ih
  | _ => assumption

theorem scanLine_unchanged {index : Nat} {previous : Option Char} {line : List Char}
    {inlineCode : Option Nat} {out : List Scanned}
    (unchanged : (scanLine index previous line inlineCode out).2 = out) (index' : Nat)
    (out' : List Scanned) : (scanLine index' previous line inlineCode out').2 = out' := by
  fun_induction scanLine index previous line inlineCode out generalizing index' out' with
  | case1 => rw [scanLine]
  | case2 index previous out character after run tick ih =>
    rw [scanLine.eq_def]
    dsimp only
    rw [if_pos tick]
    exact ih unchanged _ _
  | case3 index previous out character after ticks run tick =>
    rename_i ih
    rw [scanLine.eq_def]
    dsimp only
    rw [if_neg tick]
    exact ih unchanged _ _
  | case4 index previous out ih =>
    rw [scanLine.eq_def]
    dsimp only
    rw [if_pos rfl]
    exact ih unchanged _ _
  | case5 index previous out next others punctuation ih =>
    rw [scanLine.eq_def]
    dsimp only
    rw [if_pos rfl, if_pos punctuation]
    exact ih unchanged _ _
  | case6 index previous out next others plain ih =>
    rw [scanLine.eq_def]
    dsimp only
    rw [if_pos rfl, if_neg plain]
    exact ih unchanged _ _
  | case7 index previous out after ticks backslash =>
    rename_i ih
    rw [scanLine.eq_def]
    dsimp only
    rw [if_neg backslash, if_pos rfl]
    exact ih unchanged _ _
  | case8 index previous out character after backslash tick open_ ih =>
    rw [scanLine.eq_def]
    dsimp only
    rw [if_neg backslash, if_neg tick, if_pos open_]
    exact ih unchanged _ _
  | case9 index out character after backslash tick open_ ih =>
    rw [scanLine.eq_def]
    dsimp only
    rw [if_neg backslash, if_neg tick, if_neg open_, if_pos rfl]
    exact ih unchanged _ _
  | case10 index previous out character after backslash tick open_ image read =>
    rw [scanLine.eq_def]
    dsimp only
    rw [if_neg backslash, if_neg tick, if_neg open_, if_neg image]
    split
    · rfl
    next other =>
      rw [read] at other
      cases other
    next other =>
      rw [read] at other
      cases other
  | case11 index previous out character after backslash tick open_ image label rest read ih =>
    rw [scanLine.eq_def]
    dsimp only
    rw [if_neg backslash, if_neg tick, if_neg open_, if_neg image]
    split
    · rfl
    next same =>
      rw [read] at same
      cases same
      exact ih unchanged _ _
    next other =>
      rw [read] at other
      cases other
  | case12 index previous out character after _ _ _ _ label url block rest _ finish found =>
    have longer := congrArg List.length unchanged
    rw [List.length_append, List.length_singleton] at longer
    omega
  | case13 index previous out character after _ _ _ _ label url block rest _ finish found =>
    have longer := (scanLine_extends finish (some ')') rest none found).length_le
    rw [unchanged, List.length_append, List.length_singleton] at longer
    omega

theorem LinkFree.iff (lineStart : Nat) (inlineCode : Option Nat) (line : List Char)
    (out : List Scanned) :
    (scanLine lineStart none line inlineCode out).2 = out ↔ LinkFree inlineCode line :=
  ⟨fun unchanged => scanLine_unchanged unchanged 0 [],
    fun free => scanLine_unchanged free lineStart out⟩

section states

variable {state : ScanState} {line : List Char}

theorem next_found_iff (room : state.found.length < maxScannedLinks) :
    (state.next line).found = state.found ↔ Skipped state line ∨
      LinkFree (if (line.dropWhile isWhitespace).isEmpty then none else state.inlineCode) line := by
  have open_ : ¬maxScannedLinks ≤ state.found.length := Nat.not_le_of_lt room
  simp only [ScanState.next, scanNext, Skipped]
  cases opens : fenceOf (line.dropWhile isWhitespace) with
  | some opened =>
    cases fence : state.fence <;> simp
  | none =>
    cases fence : state.fence with
    | some opening => simp
    | none =>
      simp only [Option.isSome_none, Bool.false_eq_true, or_false, open_, false_or]
      exact LinkFree.iff ..

theorem next_within (state : ScanState) (line : List Char) :
    AddsWithin state.lineStart (state.lineStart + (utf8Bytes line).length) state.found
      (state.next line).found := scanNext_within line

theorem next_found_of_fence (opens : (fenceOf (line.dropWhile isWhitespace)).isSome) :
    (state.next line).found = state.found := by
  obtain ⟨opened, same⟩ := Option.isSome_iff_exists.mp opens
  simp only [ScanState.next, scanNext, same]
  cases state.fence <;> rfl

theorem scan_within (state : ScanState) (lines : List (List Char)) :
    AddsWithin state.lineStart
      (state.lineStart + (utf8Bytes (['\n'].intercalate lines)).length) state.found
      (state.scan lines) := scanLines_within lines

theorem scan_cons (state : ScanState) (line : List Char) (lines : List (List Char)) :
    state.scan (line :: lines) = if maxScannedLinks ≤ (state.next line).found.length then
      (state.next line).found else (state.next line).scan lines := rfl

theorem next_lineStart (state : ScanState) (line : List Char) :
    (state.next line).lineStart = state.lineStart + (utf8Bytes line).length + 1 := rfl

end states

def Kept (block : Option (Char × Nat)) (state : ScanState) : List (List Char) → Prop
  | [] => True
  | line :: lines =>
    (block.isSome → Skipped state line ∨
      LinkFree (if (line.dropWhile isWhitespace).isEmpty then none else state.inlineCode) line) ∧
    Kept (blockAfter block line) (state.next line) lines

theorem kept_iff {block : Option (Char × Nat)} {state : ScanState} {lines : List (List Char)} :
    Kept block state lines ↔ ∀ before line after, lines = before ++ line :: after →
      (before.foldl blockAfter block).isSome → Skipped (before.foldl ScanState.next state) line ∨
        LinkFree (if (line.dropWhile isWhitespace).isEmpty then none
          else (before.foldl ScanState.next state).inlineCode) line := by
  induction lines generalizing block state with
  | nil => simp [Kept]
  | cons first lines ih =>
    rw [Kept, ih]
    constructor
    · rintro ⟨head, tail⟩ before line after split
      cases before with
      | nil =>
        cases split
        exact head
      | cons other before =>
        cases split
        exact tail before line after rfl
    · intro every
      refine ⟨every [] first lines rfl, ?_⟩
      rintro before line after rfl
      exact every (first :: before) line after rfl

theorem kept_of_full {block : Option (Char × Nat)} {state : ScanState} {lines : List (List Char)}
    (full : maxScannedLinks ≤ state.found.length) : Kept block state lines := by
  induction lines generalizing block state with
  | nil => trivial
  | cons line lines ih =>
    refine ⟨fun _ => Or.inl (Or.inl full), ih ?_⟩
    obtain ⟨added, same, _⟩ := next_within state line
    rw [same, List.length_append]
    omega

def blockStart (lineStart : Nat) : Option (Nat × Char × Nat) → Nat
  | none => lineStart
  | some (start, _) => start

def openedAfter (lineStart : Nat) (opened : Option (Nat × Char × Nat)) (line : List Char) :
    Option (Nat × Char × Nat) :=
  match opened with
  | none => (fenceOf (line.dropWhile isWhitespace)).map fun opening => (lineStart, opening)
  | some (start, opening) => if closesBlock opening line then none else some (start, opening)

theorem openedAfter_block (lineStart : Nat) (opened : Option (Nat × Char × Nat))
    (line : List Char) :
    (openedAfter lineStart opened line).map Prod.snd = blockAfter (opened.map Prod.snd) line := by
  cases opened with
  | none =>
    rw [openedAfter, Option.map_map]
    exact Option.map_id'
  | some block =>
    obtain ⟨start, opening⟩ := block
    simp only [openedAfter, Option.map_some, blockAfter]
    split <;> rfl

theorem mem_blocksFrom_cons {lineStart : Nat} {opened : Option (Nat × Char × Nat)}
    {line : List Char} {lines : List (List Char)} {block : Nat × Nat} :
    block ∈ blocksFrom lineStart opened (line :: lines) ↔
      (opened.isSome ∧ block = (blockStart lineStart opened, lineStart + (utf8Bytes line).length) ∧
        openedAfter lineStart opened line = none) ∨
      block ∈ blocksFrom (lineStart + (utf8Bytes line).length + 1)
        (openedAfter lineStart opened line) lines := by
  cases opened with
  | none => simp [blocksFrom, openedAfter]
  | some pair =>
    obtain ⟨start, opening⟩ := pair
    simp only [blocksFrom, openedAfter, blockStart]
    split <;> simp

theorem blockStart_next {lineStart : Nat} {opened : Option (Nat × Char × Nat)}
    (before : blockStart lineStart opened ≤ lineStart) (line : List Char) :
    blockStart lineStart opened ≤
        blockStart (lineStart + (utf8Bytes line).length + 1) (openedAfter lineStart opened line) ∧
      blockStart (lineStart + (utf8Bytes line).length + 1) (openedAfter lineStart opened line) ≤
        lineStart + (utf8Bytes line).length + 1 := by
  cases opened with
  | none =>
    rw [openedAfter]
    cases fenceOf (line.dropWhile isWhitespace) with
    | none =>
      simp only [Option.map_none, blockStart]
      omega
    | some opening =>
      simp only [Option.map_some, blockStart]
      omega
  | some pair =>
    obtain ⟨start, opening⟩ := pair
    rw [openedAfter]
    split <;> simp only [blockStart] at before ⊢ <;> omega

theorem blockStart_le {lineStart : Nat} {opened : Option (Nat × Char × Nat)}
    (before : blockStart lineStart opened ≤ lineStart) {lines : List (List Char)}
    {block : Nat × Nat} (member : block ∈ blocksFrom lineStart opened lines) :
    blockStart lineStart opened ≤ block.1 := by
  induction lines generalizing lineStart opened with
  | nil =>
    cases opened with
    | none => cases member
    | some pair =>
      cases List.mem_singleton.mp member
      exact Nat.le_refl _
  | cons line lines ih =>
    have next := blockStart_next before line
    rcases mem_blocksFrom_cons.mp member with ⟨_, rfl, _⟩ | later
    · exact Nat.le_refl _
    · exact Nat.le_trans next.1 (ih next.2 later)

theorem open_block_mem (lineStart start : Nat) (opening : Char × Nat) (lines : List (List Char)) :
    ∃ block ∈ blocksFrom lineStart (some (start, opening)) lines,
      block.1 = start ∧ lineStart - 1 ≤ block.2 := by
  induction lines generalizing lineStart with
  | nil => exact ⟨_, List.mem_singleton_self _, rfl, Nat.le_refl _⟩
  | cons line lines ih =>
    by_cases closes : closesBlock opening line = true
    · refine ⟨_, mem_blocksFrom_cons.mpr (Or.inl ⟨rfl, rfl, ?_⟩), rfl, ?_⟩
      · rw [openedAfter, if_pos closes]
      · exact Nat.le_trans (Nat.sub_le ..) (Nat.le_add_right ..)
    · obtain ⟨block, member, starts, reaches⟩ := ih (lineStart + (utf8Bytes line).length + 1)
      refine ⟨block, mem_blocksFrom_cons.mpr (Or.inr ?_), starts, by omega⟩
      rwa [openedAfter, if_neg closes]

theorem line_in_block (lineStart start : Nat) (opening : Char × Nat) (line : List Char)
    (lines : List (List Char)) :
    ∃ block ∈ blocksFrom lineStart (some (start, opening)) (line :: lines),
      block.1 = start ∧ lineStart + (utf8Bytes line).length ≤ block.2 := by
  by_cases closes : closesBlock opening line = true
  · refine ⟨_, mem_blocksFrom_cons.mpr (Or.inl ⟨rfl, rfl, ?_⟩), rfl, Nat.le_refl _⟩
    rw [openedAfter, if_pos closes]
  · obtain ⟨block, member, starts, reaches⟩ :=
      open_block_mem (lineStart + (utf8Bytes line).length + 1) start opening lines
    refine ⟨block, mem_blocksFrom_cons.mpr (Or.inr ?_), starts, by omega⟩
    rwa [openedAfter, if_neg closes]

def Before (found : List Scanned) (position : Nat) : Prop :=
  ∀ hit ∈ found, hit.span.1 < hit.span.2 ∧ hit.span.2 ≤ position

theorem Before.outside {found : List Scanned} {position : Nat} (before : Before found position)
    {hit : Scanned} (member : hit ∈ found) {block : Nat × Nat} (starts : position ≤ block.1) :
    ¬Within hit.span block := by
  have bounds := before hit member
  rintro ⟨first, _⟩
  omega

theorem Before.next {state : ScanState} {opened : Option (Nat × Char × Nat)} {line : List Char}
    (before : Before state.found (blockStart state.lineStart opened))
    (ordered : blockStart state.lineStart opened ≤ state.lineStart)
    (quiet : opened.isSome → (state.next line).found = state.found) :
    Before (state.next line).found
      (blockStart (state.next line).lineStart (openedAfter state.lineStart opened line)) := by
  intro hit member
  have moved := blockStart_next ordered line
  rw [next_lineStart]
  cases opened with
  | some pair =>
    rw [quiet rfl] at member
    have bounds := before hit member
    omega
  | none =>
    cases opens : fenceOf (line.dropWhile isWhitespace) with
    | some opening =>
      rw [next_found_of_fence (by rw [opens]; rfl)] at member
      have bounds := before hit member
      omega
    | none =>
      obtain ⟨found, same, inside⟩ := next_within state line
      rw [same] at member
      rw [openedAfter, opens, Option.map_none, blockStart]
      rcases List.mem_append.mp member with member | member
      · have bounds := before hit member
        rw [blockStart] at bounds
        omega
      · have bounds := inside hit member
        omega

theorem outside_iff {state : ScanState} (opened : Option (Nat × Char × Nat))
    (lines : List (List Char)) (room : state.found.length < maxScannedLinks)
    (before : Before state.found (blockStart state.lineStart opened))
    (ordered : blockStart state.lineStart opened ≤ state.lineStart) :
    (∀ hit ∈ state.scan lines, ∀ block ∈ blocksFrom state.lineStart opened lines,
      ¬Within hit.span block) ↔ Kept (opened.map Prod.snd) state lines := by
  induction lines generalizing state opened with
  | nil =>
    refine iff_of_true ?_ trivial
    intro hit member block inside
    exact before.outside member (blockStart_le ordered inside)
  | cons line lines ih =>
    have moved := blockStart_next ordered line
    rw [Kept, Option.isSome_map, ← next_found_iff room, ← openedAfter_block state.lineStart]
    by_cases quiet : opened.isSome → (state.next line).found = state.found
    · have later := before.next ordered quiet
      rw [and_iff_right quiet, scan_cons]
      split
      next full =>
        refine iff_of_true ?_ (kept_of_full full)
        intro hit member block inside
        rcases mem_blocksFrom_cons.mp inside with ⟨open_, rfl, _⟩ | behind
        · rw [quiet open_] at member
          exact before.outside member (Nat.le_refl _)
        · exact later.outside member (blockStart_le moved.2 behind)
      next room =>
        rw [← ih _ (Nat.lt_of_not_le room) later moved.2]
        constructor
        · intro outside hit member block behind
          exact outside hit member block (mem_blocksFrom_cons.mpr (Or.inr behind))
        · intro outside hit member block inside
          rcases mem_blocksFrom_cons.mp inside with ⟨open_, rfl, _⟩ | behind
          · obtain ⟨found, same, within⟩ := scan_within (state.next line) lines
            rw [same, quiet open_] at member
            rcases List.mem_append.mp member with member | member
            · exact before.outside member (Nat.le_refl _)
            · have bounds := within hit member
              rw [next_lineStart] at bounds
              rintro ⟨_, ends⟩
              simp only at ends
              omega
          · exact outside hit member block behind
    · refine iff_of_false ?_ (fun kept => quiet kept.1)
      intro outside
      obtain ⟨open_, grows⟩ := Classical.not_imp.mp quiet
      obtain ⟨⟨start, opening⟩, rfl⟩ := Option.isSome_iff_exists.mp open_
      obtain ⟨found, same, within⟩ := next_within state line
      cases found with
      | nil => exact grows (same.trans (List.append_nil _))
      | cons hit found =>
        have added : hit ∈ (state.next line).found :=
          same ▸ List.mem_append_right _ List.mem_cons_self
        have scanned : hit ∈ state.scan (line :: lines) := by
          rw [scan_cons]
          split
          · exact added
          · obtain ⟨later, longer, _⟩ := scan_within (state.next line) lines
            exact longer ▸ List.mem_append_left _ added
        obtain ⟨block, known, starts, reaches⟩ :=
          line_in_block state.lineStart start opening line lines
        have bounds := within hit List.mem_cons_self
        rw [blockStart] at ordered
        exact outside hit scanned block known ⟨by omega, by omega⟩

theorem fenceOf_eq_some {trimmed : List Char} {opening : Char × Nat}
    (opens : fenceOf trimmed = some opening) :
    (opening.1 = '`' ∨ opening.1 = '~') ∧ 3 ≤ opening.2 ∧
      opening.2 = (trimmed.takeWhile (· = opening.1)).length := by
  cases trimmed with
  | nil => cases opens
  | cons marker rest =>
    simp only [fenceOf] at opens
    split at opens
    next formed =>
      cases opens
      exact ⟨formed.1, formed.2, rfl⟩
    · cases opens

theorem openBlock_formed {lines : List (List Char)} {opening : Char × Nat}
    (open_ : openBlock lines = some opening) :
    (opening.1 = '`' ∨ opening.1 = '~') ∧ 3 ≤ opening.2 := by
  induction lines using List.reverseRecOn with
  | nil => cases open_
  | append_singleton lines line ih =>
    rw [openBlock, List.foldl_append] at open_
    change blockAfter (openBlock lines) line = some opening at open_
    cases before : openBlock lines with
    | none =>
      rw [before] at open_
      have formed := fenceOf_eq_some open_
      exact ⟨formed.1, formed.2.1⟩
    | some earlier =>
      rw [before, blockAfter] at open_
      split at open_
      · cases open_
      · cases open_
        exact ih before

theorem fenceOf_of_closes {opening : Char × Nat} {line : List Char}
    (mark : opening.1 = '`' ∨ opening.1 = '~') (long : 3 ≤ opening.2)
    (closes : closesBlock opening line = true) :
    ∃ run, fenceOf (line.dropWhile isWhitespace) = some (opening.1, run) ∧ opening.2 ≤ run := by
  simp only [closesBlock, Bool.and_eq_true, decide_eq_true_eq] at closes
  have enough := closes.1
  cases trimmed : line.dropWhile isWhitespace with
  | nil =>
    rw [trimmed] at enough
    simp at enough
    omega
  | cons marker rest =>
    rw [trimmed] at enough
    have same : marker = opening.1 := by
      by_contra differs
      rw [List.takeWhile_cons_of_neg (by simpa using differs), List.length_nil] at enough
      omega
    subst same
    refine ⟨_, ?_, enough⟩
    rw [fenceOf, if_pos ⟨mark, Nat.le_trans long enough⟩]

theorem reached_concat (lines : List (List Char)) (line : List Char) :
    reached (lines ++ [line]) = (reached lines).next line := by
  rw [reached, List.foldl_append]
  rfl

theorem openBlock_concat (lines : List (List Char)) (line : List Char) :
    openBlock (lines ++ [line]) = blockAfter (openBlock lines) line := by
  rw [openBlock, List.foldl_append]
  rfl

theorem fence_eq_openBlock {lines : List (List Char)} (plain : ¬Annotated lines) :
    (reached lines).fence = openBlock lines := by
  induction lines using List.reverseRecOn with
  | nil => rfl
  | append_singleton lines line ih =>
    have earlier : ¬Annotated lines := by
      rintro ⟨before, other, after, rfl, rest⟩
      exact plain ⟨before, other, after ++ [line], by simp, rest⟩
    have agree := ih earlier
    rw [reached_concat, openBlock_concat, ← agree]
    simp only [ScanState.next, scanNext, blockAfter]
    cases fence : (reached lines).fence with
    | none => cases fenceOf (line.dropWhile isWhitespace) <;> rfl
    | some opening =>
      rw [fence] at agree
      obtain ⟨mark, long⟩ := openBlock_formed agree.symm
      by_cases closes : closesBlock opening line = true
      · obtain ⟨run, opens, enough⟩ := fenceOf_of_closes mark long closes
        simp only [opens, enough, and_self, if_true, closes]
      · dsimp only
        rw [if_neg closes]
        cases opens : fenceOf (line.dropWhile isWhitespace) with
        | none => rfl
        | some other =>
          obtain ⟨marker, run⟩ := other
          refine if_neg ?_
          rintro ⟨rfl, enough⟩
          exact plain ⟨lines, line, [], rfl, opening, run, agree.symm, opens, enough,
            Bool.eq_false_iff.mpr closes⟩

/-- No scanned link lies in a fenced block just where no line inside a block, behind a line that
begins like its end and goes on, is taken for text with a link in it. -/
theorem fenced_links_unread_iff (source : String) :
    (∀ hit ∈ scan source, ∀ block ∈ fencedBlocks source, ¬Within hit.span block) ↔
      BlocksUnread source := by
  have room : ScanState.start.found.length < maxScannedLinks := by decide
  have nothing : Before ScanState.start.found (blockStart 0 none) := by
    intro hit member
    cases member
  have kept := outside_iff none (linesOf source) room nothing (Nat.le_refl 0)
  refine kept.trans (kept_iff.trans ?_)
  constructor
  · intro every before line after split open_ _
    exact every before line after split open_
  · intro every before line after split open_
    by_cases annotated : Annotated before
    · exact every before line after split open_ annotated
    · refine Or.inl (Or.inr (Or.inl ?_))
      have agree := fence_eq_openBlock annotated
      rw [reached] at agree
      rw [agree]
      exact open_

/-- A line `js` behind the fence does not end the block, and its link is scanned all the same. -/
theorem annotated_fence_reads_links :
    ¬∀ hit ∈ scan "```\n```js\n[x](y)\n```\n", ∀ block ∈ fencedBlocks "```\n```js\n[x](y)\n```\n",
      ¬Within hit.span block := by
  decide +kernel

end KnotEditor.Readings
