import KnotEditor.Document.HardWrap

/-! What the hard-wrap detector reports, and which changes of a text it does not see. -/

namespace KnotEditor.Document.HardWrap

open Mark (textLines)

theorem textLines_single {character : Char} (unstopped : character ≠ '\n') :
    textLines [character] = [[character]] :=
  Mark.textLines.eq_4 character [] (fun _ _ eq => List.cons_ne_nil _ _ eq.symm) unstopped

theorem textLines_cons {character second : Char} {rest line : List Char}
    {others : List (List Char)} (unstopped : character ≠ '\n')
    (unpaired : character = '\r' → second ≠ '\n')
    (split : textLines (second :: rest) = line :: others) :
    textLines (character :: second :: rest) = (character :: line) :: others := by
  have step := Mark.textLines.eq_4 character (second :: rest)
    (fun _ returned eq => unpaired returned (List.cons.inj eq).1) unstopped
  rw [split] at step
  exact step

theorem stripCarriageReturn_cons {character second : Char} {line : List Char} :
    stripCarriageReturn (character :: second :: line) =
      character :: stripCarriageReturn (second :: line) := by
  rw [stripCarriageReturn, stripCarriageReturn, List.getLast?_cons_cons, List.dropLast_cons_cons]
  split
  · rfl
  · rfl

variable {lines : List (List Char)} {source : String} {reading : Reading} (line : List Char)

theorem stripCarriageReturn_append_return :
    stripCarriageReturn (line ++ ['\r']) = line := by
  simp [stripCarriageReturn]

theorem textLines_stopped {line rest : List Char} (clean : '\n' ∉ line) :
    textLines (line ++ '\n' :: rest) = stripCarriageReturn line :: textLines rest := by
  induction line with
  | nil => rfl
  | cons character line ih =>
    have unstopped : character ≠ '\n' := (List.ne_of_not_mem_cons clean).symm
    have cleanRest : '\n' ∉ line := List.not_mem_of_not_mem_cons clean
    cases line with
    | nil =>
      by_cases same : character = '\r'
      · subst same
        rfl
      · have kept : stripCarriageReturn [character] = [character] := by
          simp [stripCarriageReturn, same]
        rw [kept]
        exact textLines_cons unstopped (fun returned => absurd returned same) rfl
    | cons second line =>
      have different : second ≠ '\n' := (List.ne_of_not_mem_cons cleanRest).symm
      rw [stripCarriageReturn_cons]
      exact textLines_cons unstopped (fun _ => different) (ih cleanRest)

theorem textLines_last {line : List Char} (clean : '\n' ∉ line) (filled : line ≠ []) :
    textLines line = [line] := by
  induction line with
  | nil => exact absurd rfl filled
  | cons character line ih =>
    have unstopped : character ≠ '\n' := (List.ne_of_not_mem_cons clean).symm
    have cleanRest : '\n' ∉ line := List.not_mem_of_not_mem_cons clean
    cases line with
    | nil => exact textLines_single unstopped
    | cons second line =>
      have different : second ≠ '\n' := (List.ne_of_not_mem_cons cleanRest).symm
      exact textLines_cons unstopped (fun _ => different) (ih cleanRest (by simp))

theorem text_cases (text : List Char) :
    '\n' ∉ text ∨ ∃ line rest, '\n' ∉ line ∧ text = line ++ '\n' :: rest := by
  by_cases stopped : '\n' ∈ text
  · obtain ⟨line, rest, eq, clean⟩ := List.eq_append_cons_of_mem stopped
    exact .inr ⟨line, rest, clean, eq⟩
  · exact .inl stopped

theorem sourceLines_stopped {line rest : List Char} (clean : '\n' ∉ line) :
    (textLines (line ++ '\n' :: rest)).map stripCarriageReturn =
      stripCarriageReturn (stripCarriageReturn line) ::
        (textLines rest).map stripCarriageReturn := by
  rw [textLines_stopped clean, List.map_cons]

def withCarriageReturns (text : List Char) : List Char :=
  text.flatMap fun character => if character = '\n' then ['\r', '\n'] else [character]

theorem withCarriageReturns_clean {line : List Char} (clean : '\n' ∉ line) :
    withCarriageReturns line = line := by
  induction line with
  | nil => rfl
  | cons character line ih =>
    have unstopped : character ≠ '\n' := (List.ne_of_not_mem_cons clean).symm
    have cleanRest : '\n' ∉ line := List.not_mem_of_not_mem_cons clean
    rw [withCarriageReturns, List.flatMap_cons, if_neg unstopped, ← withCarriageReturns,
      ih cleanRest, List.singleton_append]

theorem withCarriageReturns_stopped {line rest : List Char} (clean : '\n' ∉ line) :
    withCarriageReturns (line ++ '\n' :: rest) =
      (line ++ ['\r']) ++ '\n' :: withCarriageReturns rest := by
  have plain := withCarriageReturns_clean clean
  rw [withCarriageReturns] at plain ⊢
  rw [List.flatMap_append, plain, List.flatMap_cons, if_pos rfl, ← withCarriageReturns]
  simp

theorem stripCarriageReturn_idem {line : List Char} (single : ¬ ['\r', '\r'] <:+ line) :
    stripCarriageReturn (stripCarriageReturn line) = stripCarriageReturn line := by
  by_cases ends : line.getLast? = some '\r'
  · obtain ⟨front, rfl⟩ := List.getLast?_eq_some_iff.mp ends
    rw [stripCarriageReturn_append_return, stripCarriageReturn, if_neg]
    intro again
    obtain ⟨start, rfl⟩ := List.getLast?_eq_some_iff.mp again
    exact single ⟨start, by simp⟩
  · rw [show stripCarriageReturn line = line by rw [stripCarriageReturn, if_neg ends],
      stripCarriageReturn, if_neg ends]

theorem lines_withCarriageReturns (text : List Char) (single : ¬ ['\r', '\r', '\n'] <:+: text) :
    (textLines (withCarriageReturns text)).map stripCarriageReturn =
      (textLines text).map stripCarriageReturn := by
  rcases text_cases text with clean | ⟨line, rest, clean, rfl⟩
  · rw [withCarriageReturns_clean clean]
  · have smaller : rest.length < (line ++ '\n' :: rest).length := by simp; omega
    have singleRest : ¬ ['\r', '\r', '\n'] <:+: rest := fun inside =>
      single (inside.trans ⟨line ++ ['\n'], [], by simp⟩)
    have singleLine : ¬ ['\r', '\r'] <:+ line := by
      rintro ⟨start, rfl⟩
      exact single ⟨start, rest, by simp⟩
    have cleanReturn : '\n' ∉ line ++ ['\r'] := by simp [clean]
    rw [withCarriageReturns_stopped clean, sourceLines_stopped cleanReturn,
      sourceLines_stopped clean, stripCarriageReturn_append_return,
      stripCarriageReturn_idem singleLine, lines_withCarriageReturns rest singleRest]
  termination_by text.length

structure ClosedFence (lines : List (List Char)) where
  before : List (List Char)
  opener : List Char
  contents : List (List Char)
  closer : List Char
  after : List (List Char)
  fence : Fence
  lines_eq : lines = before ++ opener :: (contents ++ closer :: after)
  outside : (before.foldl Reading.next Reading.start).fence = none
  opens : openingFence opener = some fence
  inside : ∀ line ∈ contents, closesFence line fence = false
  closes : closesFence closer fence = true

def ClosedFence.withContents {lines : List (List Char)} (block : ClosedFence lines)
    (replacement : List (List Char)) : List (List Char) :=
  block.before ++ block.opener :: (replacement ++ block.closer :: block.after)

theorem foldl_next_inside {fence : Fence} {contents : List (List Char)}
    (within : reading.fence = some fence)
    (inside : ∀ line ∈ contents, closesFence line fence = false) :
    contents.foldl Reading.next reading = reading := by
  induction contents with
  | nil => rfl
  | cons line contents ih =>
    have open_ := inside line List.mem_cons_self
    have stays : reading.next line = reading := by
      simp [Reading.next, within, open_]
    rw [List.foldl_cons, stays]
    exact ih fun line member => inside line (List.mem_cons_of_mem _ member)

theorem foldl_next_block {opener closer : List Char} {fence : Fence} {contents : List (List Char)}
    (outside : reading.fence = none) (opens : openingFence opener = some fence)
    (inside : ∀ line ∈ contents, closesFence line fence = false)
    (closes : closesFence closer fence = true) :
    (opener :: (contents ++ [closer])).foldl Reading.next reading =
      { reading.flush with fence := none } := by
  have opened : reading.next opener = { reading.flush with fence := some fence } := by
    simp [Reading.next, outside, opens]
  rw [List.foldl_cons, List.foldl_append, opened, foldl_next_inside rfl inside, List.foldl_cons,
    List.foldl_nil, Reading.next]
  simp [closes]

theorem readLines_block {before after contents : List (List Char)} {opener closer : List Char}
    {fence : Fence} (outside : (before.foldl Reading.next Reading.start).fence = none)
    (opens : openingFence opener = some fence)
    (inside : ∀ line ∈ contents, closesFence line fence = false)
    (closes : closesFence closer fence = true) :
    readLines (before ++ opener :: (contents ++ closer :: after)) =
      (after.foldl Reading.next
        { (before.foldl Reading.next Reading.start).flush with fence := none }).flush := by
  have grouped : opener :: (contents ++ closer :: after) =
      (opener :: (contents ++ [closer])) ++ after := by simp
  rw [readLines, List.foldl_append, grouped, List.foldl_append,
    foldl_next_block outside opens inside closes]

theorem ClosedFence.readLines_withContents (block : ClosedFence lines)
    {replacement : List (List Char)}
    (inside : ∀ line ∈ replacement, closesFence line block.fence = false) :
    readLines (block.withContents replacement) = readLines lines := by
  conv_rhs => rw [block.lines_eq]
  rw [withContents, readLines_block block.outside block.opens inside block.closes,
    readLines_block block.outside block.opens block.inside block.closes]

structure IsParagraph (lines paragraph : List (List Char)) : Prop where
  consecutive : paragraph <:+: lines
  filled : ∀ line ∈ paragraph, line.all isWhitespace = false
  unfenced : ∀ line ∈ paragraph, openingFence line = none

theorem IsParagraph.mono {lines more paragraph : List (List Char)}
    (isParagraph : IsParagraph lines paragraph) (inside : lines <:+: more) :
    IsParagraph more paragraph :=
  ⟨isParagraph.consecutive.trans inside, isParagraph.filled, isParagraph.unfenced⟩

structure Reading.Sound (lines : List (List Char)) (reading : Reading) : Prop where
  paragraphs : ∀ paragraph ∈ reading.paragraphs, IsParagraph lines paragraph
  current : IsParagraph lines reading.current
  last : reading.current <:+ lines
  fenced : reading.fence ≠ none → reading.current = []

theorem isParagraph_nil (lines : List (List Char)) : IsParagraph lines [] :=
  ⟨List.nil_infix, List.forall_mem_nil _, List.forall_mem_nil _⟩

theorem Reading.Sound.flush (sound : reading.Sound lines) : reading.flush.Sound lines := by
  by_cases empty : reading.current = []
  · rwa [Reading.flush, if_pos empty]
  · rw [Reading.flush, if_neg empty]
    refine ⟨?_, isParagraph_nil lines, List.nil_suffix, fun _ => rfl⟩
    intro paragraph member
    rcases List.mem_append.mp member with earlier | new
    · exact sound.paragraphs paragraph earlier
    · rw [List.mem_singleton.mp new]
      exact sound.current

theorem Reading.flush_current (reading : Reading) : reading.flush.current = [] := by
  by_cases empty : reading.current = []
  · rw [Reading.flush, if_pos empty, empty]
  · rw [Reading.flush, if_neg empty]

theorem Reading.Sound.pass (sound : reading.Sound lines) (ended : reading.current = [])
    (line : List Char) (fence : Option Fence)
    : Sound (lines ++ [line]) { reading with fence := fence } := by
  have longer : lines <:+: lines ++ [line] := (List.prefix_append _ _).isInfix
  refine ⟨?_, sound.current.mono longer, ?_, fun _ => ended⟩
  · intro paragraph member
    exact (sound.paragraphs paragraph member).mono longer
  · rw [ended]
    exact List.nil_suffix

theorem Reading.Sound.next (sound : reading.Sound lines) (line : List Char) :
    (reading.next line).Sound (lines ++ [line]) := by
  rw [Reading.next]
  split
  next openFence within =>
    have ended : reading.current = [] := sound.fenced (by simp [within])
    split
    next closes => exact sound.pass ended line none
    next open_ =>
      have passed := sound.pass ended line reading.fence
      exact passed
  next outside =>
    split
    next openFence opens => exact sound.flush.pass reading.flush_current line (some openFence)
    next plain =>
      by_cases blank : line.all isWhitespace = true
      · rw [if_pos blank]
        exact sound.flush.pass reading.flush_current line reading.flush.fence
      · rw [if_neg blank]
        have longer : lines <:+: lines ++ [line] := (List.prefix_append _ _).isInfix
        obtain ⟨front, eq⟩ := sound.last
        have last : reading.current ++ [line] <:+ lines ++ [line] := ⟨front, by simp [← eq]⟩
        refine ⟨?_, ⟨last.isInfix, ?_, ?_⟩, last, fun fenced => absurd outside fenced⟩
        · intro paragraph member
          exact (sound.paragraphs paragraph member).mono longer
        · intro other member
          rcases List.mem_append.mp member with earlier | new
          · exact sound.current.filled other earlier
          · simpa [List.mem_singleton.mp new] using blank
        · intro other member
          rcases List.mem_append.mp member with earlier | new
          · exact sound.current.unfenced other earlier
          · rw [List.mem_singleton.mp new]
            exact plain

theorem Reading.Sound.run {read : List (List Char)} {reading : Reading}
    (sound : reading.Sound read) (lines : List (List Char)) :
    (lines.foldl Reading.next reading).Sound (read ++ lines) := by
  induction lines generalizing read reading with
  | nil => simpa using sound
  | cons line lines ih =>
    have rest := ih (sound.next line)
    rwa [List.append_assoc, List.singleton_append] at rest

theorem readLines_sound (lines : List (List Char)) : (readLines lines).Sound lines := by
  have start : Reading.start.Sound [] :=
    ⟨List.forall_mem_nil _, isParagraph_nil [], List.nil_suffix, fun _ => rfl⟩
  exact (start.run lines).flush

theorem foldl_column_le (column : Nat) :
    line.foldl (fun column character =>
      if character = '\t' then column + (tabStop - column % tabStop) else column + 1) column ≤
        column + tabStop * line.length := by
  induction line generalizing column with
  | nil => simp
  | cons character line ih =>
    rw [List.foldl_cons, List.length_cons, Nat.mul_succ]
    refine (ih _).trans ?_
    split
    · omega
    · rw [tabStop]
      omega

theorem columnWidth_le : columnWidth line ≤ tabStop * line.length := by
  have bound := foldl_column_le line 0
  rwa [Nat.zero_add] at bound

theorem length_stripCarriageReturn_le :
    (stripCarriageReturn line).length ≤ line.length := by
  rw [stripCarriageReturn]
  split
  · simp
  · exact Nat.le_refl _

theorem length_of_mem_textLines {line text : List Char} (member : line ∈ textLines text) :
    line.length ≤ text.length := by
  rcases text_cases text with clean | ⟨first, rest, clean, rfl⟩
  · by_cases empty : text = []
    · rw [empty] at member
      exact absurd member List.not_mem_nil
    · rw [textLines_last clean empty, List.mem_singleton] at member
      rw [member]
  · have smaller : rest.length < (first ++ '\n' :: rest).length := by simp; omega
    rw [textLines_stopped clean] at member
    rcases List.mem_cons.mp member with rfl | later
    · have short := length_stripCarriageReturn_le first
      rw [List.length_append]
      omega
    · have short := length_of_mem_textLines later
      omega
  termination_by text.length

theorem columnWidth_lt_of_admissible {line : List Char} (admitted : admissible source = true)
    (member : line ∈ sourceLines source) :
    columnWidth line ≤ tabStop * maxSourceBytes := by
  have size : source.utf8ByteSize ≤ maxSourceBytes := by
    have bounded := (Bool.and_eq_true_iff.mp admitted).1
    simpa using bounded
  obtain ⟨raw, rawMember, rfl⟩ := List.mem_map.mp member
  have stripped := length_stripCarriageReturn_le raw
  have within := length_of_mem_textLines rawMember
  have bytes := length_le_utf8Bytes source.toList
  rw [length_utf8Bytes] at bytes
  calc columnWidth (stripCarriageReturn raw)
      ≤ tabStop * (stripCarriageReturn raw).length := columnWidth_le _
    _ ≤ tabStop * maxSourceBytes := Nat.mul_le_mul_left _ (by omega)

theorem near_itself {median : Nat} (bounded : median ≤ tabStop * maxSourceBytes) :
    saturatingMul median 3 / 4 ≤ median ∧ median ≤ saturatingMul median 5 / 4 := by
  simp only [saturatingMul, usizeMax, tabStop, maxSourceBytes] at *
  omega

theorem nearMeasure_subset {paragraph : List (List Char)} {width : Nat}
    (near : width ∈ nearMeasure paragraph) : width ∈ paragraph.dropLast.map columnWidth := by
  revert near
  fun_cases nearMeasure paragraph
  all_goals intro near
  all_goals first
    | exact absurd near List.not_mem_nil
    | exact (List.mem_filter.mp near).1

theorem middle_mem {items : List Nat} (filled : items ≠ []) :
    items[items.length / 2]?.getD 0 ∈ items := by
  have below : items.length / 2 < items.length := by
    have positive := List.length_pos_iff.mpr filled
    omega
  rw [List.getElem?_eq_getElem below, Option.getD_some]
  exact List.getElem_mem below

theorem exists_wide {paragraph : List (List Char)} {width : Nat}
    (bounded : ∀ line ∈ paragraph, columnWidth line ≤ tabStop * maxSourceBytes)
    (near : width ∈ nearMeasure paragraph) :
    ∃ median ∈ nearMeasure paragraph, minLineColumn ≤ median := by
  revert near
  fun_cases nearMeasure paragraph
  all_goals intro near
  case case4 short widths few sorted median narrow near_ enough =>
    have filled : sorted ≠ [] := by
      have length : sorted.length = widths.length := List.length_insertionSort _ _
      intro empty
      rw [empty] at length
      simp only [List.length_nil] at length
      omega
    have member : median ∈ widths := (List.mem_insertionSort _).mp (middle_mem filled)
    obtain ⟨line, lineMember, eq⟩ := List.mem_map.mp member
    have small := bounded line (List.dropLast_subset _ lineMember)
    have itself := near_itself (eq ▸ small)
    refine ⟨median, List.mem_filter.mpr ⟨member, ?_⟩, Nat.not_lt.mp narrow⟩
    simpa only [Bool.and_eq_true, decide_eq_true_eq] using itself
  all_goals exact absurd near List.not_mem_nil

theorem wrapColumn_spec {paragraphs : List (List (List Char))} {column : Nat}
    (bounded : ∀ paragraph ∈ paragraphs, ∀ line ∈ paragraph,
      columnWidth line ≤ tabStop * maxSourceBytes)
    (found : wrapColumn paragraphs = some column) :
    minLineColumn ≤ column ∧ ∃ paragraph ∈ prose paragraphs, ∃ line ∈ paragraph.dropLast,
      columnWidth line = column := by
  have greatest : ((prose paragraphs).flatMap nearMeasure).max? = some column := by
    revert found
    fun_cases wrapColumn paragraphs
    all_goals intro found
    case case3 => exact found
    all_goals simp at found
  obtain ⟨member, most⟩ := List.max?_eq_some_iff.mp greatest
  obtain ⟨paragraph, plain, near⟩ := List.mem_flatMap.mp member
  have within := bounded paragraph (List.mem_filter.mp plain).1
  obtain ⟨wide, wideNear, enough⟩ := exists_wide within near
  have below := most wide (List.mem_flatMap.mpr ⟨paragraph, plain, wideNear⟩)
  exact ⟨enough.trans below, paragraph, plain, List.mem_map.mp (nearMeasure_subset near)⟩

theorem hardWrapColumn_eq_some {column : Nat} (found : hardWrapColumn source = some column) :
    admissible source = true ∧ wrapColumn (readLines (sourceLines source)).paragraphs =
      some column := by
  revert found
  fun_cases hardWrapColumn source
  all_goals intro found
  case case3 refused _ _ =>
    exact ⟨by simpa using refused, found⟩
  all_goals simp at found

theorem hardWrapColumn_is_width {column : Nat} (found : hardWrapColumn source = some column) :
    minLineColumn ≤ column ∧ ∃ paragraph ∈ (readLines (sourceLines source)).paragraphs,
      IsParagraph (sourceLines source) paragraph ∧
      (∀ line ∈ paragraph, isStructural line = false) ∧
      ∃ line ∈ paragraph.dropLast, columnWidth line = column := by
  obtain ⟨admitted, wrapped⟩ := hardWrapColumn_eq_some found
  have sound := readLines_sound (sourceLines source)
  have bounded : ∀ paragraph ∈ (readLines (sourceLines source)).paragraphs,
      ∀ line ∈ paragraph, columnWidth line ≤ tabStop * maxSourceBytes := by
    intro paragraph member line lineMember
    exact columnWidth_lt_of_admissible admitted
      ((sound.paragraphs paragraph member).consecutive.subset lineMember)
  obtain ⟨enough, paragraph, plain, line, early, width⟩ := wrapColumn_spec bounded wrapped
  obtain ⟨member, unstructured⟩ := List.mem_filter.mp plain
  refine ⟨enough, paragraph, member, sound.paragraphs paragraph member, ?_, line, early, width⟩
  simpa using unstructured

theorem hardWrapColumn_congr {source other : String}
    (admitted : admissible other = admissible source)
    (read : readLines (sourceLines other) = readLines (sourceLines source)) :
    hardWrapColumn other = hardWrapColumn source := by
  rw [hardWrapColumn, hardWrapColumn, admitted, read]

theorem utf8Bytes_withCarriageReturns_le (text : List Char) :
    (utf8Bytes text).length ≤ (utf8Bytes (withCarriageReturns text)).length := by
  induction text with
  | nil => exact Nat.le_refl _
  | cons character text ih =>
    rw [withCarriageReturns, List.flatMap_cons, ← withCarriageReturns]
    split
    next same =>
      subst same
      rw [utf8Bytes_append, List.length_append, utf8Bytes_cons, List.length_append]
      simp only [utf8Bytes_cons, List.length_append]
      omega
    next =>
      rw [List.singleton_append, utf8Bytes_cons, utf8Bytes_cons, List.length_append,
        List.length_append]
      omega

theorem any_withCarriageReturns {text : List Char} {refuses : Char → Bool}
    (allowed : refuses '\r' = false) :
    (withCarriageReturns text).any refuses = text.any refuses := by
  rw [withCarriageReturns, List.any_flatMap]
  congr 1
  funext character
  split
  next same => simp [same, allowed]
  next => simp

def crlf (source : String) : String := String.ofList (withCarriageReturns source.toList)

theorem admissible_crlf (small : (crlf source).utf8ByteSize ≤ maxSourceBytes) :
    admissible (crlf source) = admissible source := by
  have grown := utf8Bytes_withCarriageReturns_le source.toList
  rw [length_utf8Bytes] at grown
  have size : (utf8Bytes (withCarriageReturns source.toList)).length =
      (crlf source).utf8ByteSize := by
    rw [← length_utf8Bytes, crlf, String.toList_ofList]
  rw [admissible, admissible, decide_eq_false (Nat.not_lt.mpr small),
    decide_eq_false (Nat.not_lt.mpr (by omega)), crlf, String.toList_ofList,
    any_withCarriageReturns (by decide)]

theorem sourceLines_crlf (single : ¬ ['\r', '\r', '\n'] <:+: source.toList) :
    sourceLines (crlf source) = sourceLines source := by
  rw [sourceLines, crlf, String.toList_ofList, lines_withCarriageReturns _ single, sourceLines]

/-- Hard-wrap detection reports a real width and sees neither the line endings of a text without
doubled carriage returns nor what stands in its closed fenced blocks. -/
theorem hardWrapColumn_layout_invariant (source : String) :
    (∀ column, hardWrapColumn source = some column → 32 ≤ column ∧
      ∃ paragraph ∈ (readLines (sourceLines source)).paragraphs,
        IsParagraph (sourceLines source) paragraph ∧
        (∀ line ∈ paragraph, isStructural line = false) ∧
        ∃ line ∈ paragraph.dropLast, columnWidth line = column) ∧
    (¬ ['\r', '\r', '\n'] <:+: source.toList → (crlf source).utf8ByteSize ≤ 1024 * 1024 →
      hardWrapColumn (crlf source) = hardWrapColumn source) ∧
    ∀ (block : ClosedFence (sourceLines source)) (replacement : List (List Char)) (other : String),
      (∀ line ∈ replacement, closesFence line block.fence = false) →
      sourceLines other = block.withContents replacement →
      admissible other = admissible source →
      hardWrapColumn other = hardWrapColumn source := by
  refine ⟨fun column found => hardWrapColumn_is_width found, ?_, ?_⟩
  · intro single small
    refine hardWrapColumn_congr (admissible_crlf small) ?_
    rw [sourceLines_crlf single]
  · intro block replacement other inside replaced admitted
    refine hardWrapColumn_congr admitted ?_
    rw [replaced, block.readLines_withContents inside]

def fullLine : String := "a\t\t\t\t"

def fencedPassage (code : String) : String :=
  fullLine ++ "\n" ++ fullLine ++ "\nend\n```\n" ++ code ++ "\n```"

def fencedPassageBlock : ClosedFence (sourceLines (fencedPassage "code")) where
  before := [fullLine, fullLine, "end"].map String.toList
  opener := "```".toList
  contents := ["code".toList]
  closer := "```".toList
  after := []
  fence := ⟨'`', 3⟩
  lines_eq := by decide +kernel
  outside := by decide +kernel
  opens := by decide +kernel
  inside := by decide +kernel
  closes := by decide +kernel

theorem hardWrapColumn_layout_invariant_passage :
    (∃ paragraph ∈ (readLines (sourceLines (fencedPassage "code"))).paragraphs,
      ∃ line ∈ paragraph.dropLast, columnWidth line = 32) ∧
    hardWrapColumn (crlf (fencedPassage "code")) = hardWrapColumn (fencedPassage "code") ∧
    hardWrapColumn (fencedPassage "other\nlines") = hardWrapColumn (fencedPassage "code") := by
  have found : hardWrapColumn (fencedPassage "code") = some 32 := by decide +kernel
  obtain ⟨real, endings, blocks⟩ := hardWrapColumn_layout_invariant (fencedPassage "code")
  obtain ⟨-, paragraph, member, -, -, width⟩ := real 32 found
  refine ⟨⟨paragraph, member, width⟩, endings (by decide +kernel) (by decide +kernel), ?_⟩
  exact blocks fencedPassageBlock ["other".toList, "lines".toList] _ (by decide +kernel)
    (by decide +kernel) (by decide +kernel)

def doubledReturns : String := fullLine ++ "\r\r\n" ++ fullLine ++ "\r\r\nend"

/-- Doubled carriage returns show through the other line ending, and a wide character in a fenced
block silences the detector. -/
theorem hardWrapColumn_layout_seen :
    hardWrapColumn doubledReturns = some 32 ∧ hardWrapColumn (crlf doubledReturns) = some 33 ∧
    (crlf doubledReturns).utf8ByteSize ≤ 1024 * 1024 ∧
    closesFence "界".toList fencedPassageBlock.fence = false ∧
    sourceLines (fencedPassage "界") = fencedPassageBlock.withContents ["界".toList] ∧
    hardWrapColumn (fencedPassage "code") = some 32 ∧
    hardWrapColumn (fencedPassage "界") = none := by
  decide +kernel

end KnotEditor.Document.HardWrap
