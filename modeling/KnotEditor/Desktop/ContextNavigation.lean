import KnotEditor.Library.Nesting
import KnotEditor.Readings.Bindings

/-! The nesting of headings in the context view. -/

namespace KnotEditor.Desktop.ContextNavigation

open Readings.Bindings (KnotOutlineItemV1 ReadingInput SectionValue SpanValue Obtains nextStart sectionOf
  sections slice slice_of_boundaries slice_of_ordered ordered_of_makeSpan)

def levelAt (items : List KnotOutlineItemV1) (index : Nat) : Nat :=
  (items[index]?.map fun item => item.level.toNat).getD 0

/-- One heading of the walk: it closes the open ones at or below its level, and opens itself. The
last ancestor comes first. -/
def headingStep (items : List KnotOutlineItemV1) (state : List (Option Nat) × List Nat)
    (entry : KnotOutlineItemV1 × Nat) : List (Option Nat) × List Nat :=
  let ancestors := state.2.dropWhile fun ancestor =>
    decide (entry.1.level.toNat ≤ levelAt items ancestor)
  (state.1 ++ [ancestors.head?], entry.2 :: ancestors)

def headingParents (items : List KnotOutlineItemV1) : List (Option Nat) :=
  (items.zipIdx.foldl (headingStep items) ([], [])).1

theorem levelAt_of {items : List KnotOutlineItemV1} {index : Nat} {item : KnotOutlineItemV1}
    (found : items[index]? = some item) : levelAt items index = item.level.toNat := by
  rw [levelAt, found]
  rfl

def parentAt (items : List KnotOutlineItemV1) (index : Nat) : Option Nat :=
  ((Nesting.openBefore (levelAt items) index).dropWhile fun earlier =>
    decide (levelAt items index ≤ levelAt items earlier)).head?

theorem foldl_headingStep {items before : List KnotOutlineItemV1} (rest : List KnotOutlineItemV1)
    (whole : before ++ rest = items) (parents : List (Option Nat)) :
    ((rest.zipIdx before.length).foldl (headingStep items)
        (parents, Nesting.openBefore (levelAt items) before.length)).1 =
      parents ++ (List.range' before.length rest.length).map (parentAt items) := by
  induction rest generalizing before parents with
  | nil => simp
  | cons item rest ih =>
    have found : items[before.length]? = some item := by rw [← whole]; simp
    have step : headingStep items
        (parents, Nesting.openBefore (levelAt items) before.length) (item, before.length) =
          (parents ++ [parentAt items before.length],
            Nesting.openBefore (levelAt items) (before ++ [item]).length) := by
      simp only [headingStep, parentAt, ← levelAt_of found, List.length_append,
        List.length_singleton, Nesting.openBefore]
    have later := @ih (before ++ [item]) (by rw [← whole, List.append_assoc]; rfl)
      (parents ++ [parentAt items before.length])
    rw [List.zipIdx_cons, List.foldl_cons, step]
    rw [List.length_append, List.length_singleton] at later ⊢
    rw [later, List.length_cons, List.range'_succ, List.map_cons, List.append_assoc,
      List.singleton_append]

theorem headingParents_eq (items : List KnotOutlineItemV1) :
    headingParents items = (List.range items.length).map (parentAt items) := by
  have walked := @foldl_headingStep items [] items (List.nil_append _) []
  rw [List.nil_append, List.length_nil, ← List.range_eq_range'] at walked
  exact walked

theorem headingParents_eq_some_iff {items : List KnotOutlineItemV1} {index parent : Nat} :
    (headingParents items)[index]? = some (some parent) ↔
      index < items.length ∧ Nesting.IsParent (levelAt items) index parent := by
  rw [headingParents_eq, List.getElem?_map]
  rcases Nat.lt_or_ge index items.length with inside | outside
  · rw [List.getElem?_range inside, Option.map_some, Option.some_inj, parentAt,
      Nesting.head_openBefore_eq_some_iff]
    exact (and_iff_right inside).symm
  · rw [List.getElem?_eq_none (by simpa using outside)]
    simp [Nat.not_lt.mpr outside]

section ranges

variable {text : String} {items : List KnotOutlineItemV1} {index later : Nat}
  {item next : KnotOutlineItemV1}

structure InOrder (text : String) (items : List KnotOutlineItemV1) : Prop where
  ordered : items.Pairwise fun earlier later => earlier.finish ≤ later.start
  ranged : ∀ item ∈ items, item.start ≤ item.finish
  bounded : ∀ item ∈ items, item.finish ≤ text.utf8ByteSize
  starts : ∀ item ∈ items, CharBoundary text item.start
  finishes : ∀ item ∈ items, CharBoundary text item.finish

structure Outlined (text : String) (items : List KnotOutlineItemV1) : Prop
    extends InOrder text items where
  some_ : ∀ item ∈ items, item.start < item.finish

theorem Outlined.apart (outlined : Outlined text items) (first : items[index]? = some item)
    (second : items[later]? = some next) (before : index < later) : item.finish ≤ next.start := by
  obtain ⟨inside, rfl⟩ := List.getElem?_eq_some_iff.mp first
  obtain ⟨within, rfl⟩ := List.getElem?_eq_some_iff.mp second
  exact List.pairwise_iff_getElem.mp outlined.ordered index later inside within before

def sectionEnd (text : String) (items : List KnotOutlineItemV1) (index : Nat)
    (item : KnotOutlineItemV1) : Nat := (sectionOf text items (item, index)).span.finish

theorem of_search_eq_none {passes : KnotOutlineItemV1 → Bool}
    (search : (items.drop (index + 1)).find? passes = none) (found : items[later]? = some next)
    (after : index < later) : passes next = false := by
  have listed : next ∈ items.drop (index + 1) := by
    refine List.mem_iff_getElem?.mpr ⟨later - (index + 1), ?_⟩
    rw [List.getElem?_drop, ← found]
    exact congrArg (items[·]?) (by omega)
  exact Bool.eq_false_iff.mpr (List.find?_eq_none.mp search next listed)

theorem of_search_eq_some {passes : KnotOutlineItemV1 → Bool} {heading : KnotOutlineItemV1}
    (search : (items.drop (index + 1)).find? passes = some heading) :
    ∃ closing, items[closing]? = some heading ∧ index < closing ∧ passes heading = true ∧
      ∀ later next, items[later]? = some next → index < later → later < closing →
        passes next = false := by
  obtain ⟨passed, place, inside, same, between⟩ := List.find?_eq_some_iff_getElem.mp search
  have located : items[index + 1 + place]? = some heading := by
    rw [← List.getElem?_drop, List.getElem?_eq_getElem inside, same]
  refine ⟨index + 1 + place, located, by omega, passed, ?_⟩
  intro later next found after before
  have early := between (later - (index + 1)) (by omega)
  have again : (items.drop (index + 1))[later - (index + 1)]? = some next := by
    rw [List.getElem?_drop, ← found]
    exact congrArg (items[·]?) (by omega)
  rw [List.getElem?_eq_getElem (by omega), Option.some_inj] at again
  simpa [again] using early

theorem within_of_passed (found : items[index]? = some item) (ends : items[later]? = some next)
    (first : index ≤ later)
    (passed : ∀ position other, items[position]? = some other → index < position →
      position ≤ later → decide (other.level ≤ item.level) = false) :
    Nesting.Within (levelAt items) index later := by
  refine ⟨first, ?_⟩
  intro position after last
  obtain ⟨inside, _⟩ := List.getElem?_eq_some_iff.mp ends
  have listed : items[position]? = some items[position] :=
    List.getElem?_eq_getElem (Nat.lt_of_le_of_lt last inside)
  have deeper := passed position _ listed after last
  rw [decide_eq_false_iff_not, UInt8.le_iff_toNat_le] at deeper
  rw [levelAt_of found, levelAt_of listed]
  omega

theorem Outlined.sectionEnd_cases (outlined : Outlined text items)
    (found : items[index]? = some item) :
    (sectionEnd text items index item = text.utf8ByteSize ∧
        ∀ later next, items[later]? = some next → index ≤ later →
          Nesting.Within (levelAt items) index later) ∨
      ∃ closing heading, items[closing]? = some heading ∧ index < closing ∧
        levelAt items closing ≤ levelAt items index ∧
        sectionEnd text items index item = heading.start ∧
        ∀ later, index ≤ later → later < closing → Nesting.Within (levelAt items) index later := by
  cases search : (items.drop (index + 1)).find? fun later => decide (later.level ≤ item.level) with
  | none =>
    refine .inl ⟨?_, ?_⟩
    · have bounded := outlined.bounded item (List.mem_of_getElem? found)
      simp only [sectionEnd, sectionOf, nextStart, search, Option.map_none, Option.getD_none]
      omega
    · intro later next ends first
      refine within_of_passed found ends first ?_
      intro position other listed after _
      exact of_search_eq_none search listed after
  | some heading =>
    obtain ⟨closing, located, after, small, between⟩ := of_search_eq_some search
    refine .inr ⟨closing, heading, located, after, ?_, ?_, ?_⟩
    · rw [levelAt_of found, levelAt_of located, ← UInt8.le_iff_toNat_le]
      exact of_decide_eq_true small
    · have apart := outlined.apart found located after
      simp only [sectionEnd, sectionOf, nextStart, search, Option.map_some, Option.getD_some]
      omega
    · intro later first before
      obtain ⟨inside, _⟩ := List.getElem?_eq_some_iff.mp located
      have ends : items[later]? = some items[later] :=
        List.getElem?_eq_getElem (Nat.lt_trans before inside)
      refine within_of_passed found ends first ?_
      intro position other listed behind last
      exact between position other listed behind (Nat.lt_of_le_of_lt last before)

theorem Outlined.finish_le_sectionEnd (outlined : Outlined text items)
    (found : items[index]? = some item) : item.finish ≤ sectionEnd text items index item := by
  rcases outlined.sectionEnd_cases found with
    ⟨ends, _⟩ | ⟨closing, heading, located, after, _, ends, _⟩
  · rw [ends]
    exact outlined.bounded item (List.mem_of_getElem? found)
  · rw [ends]
    exact outlined.apart found located after

theorem Outlined.sectionEnd_le (outlined : Outlined text items)
    (found : items[index]? = some item) :
    sectionEnd text items index item ≤ text.utf8ByteSize := by
  rcases outlined.sectionEnd_cases found with
    ⟨ends, _⟩ | ⟨closing, heading, located, _, _, ends, _⟩
  · rw [ends]
  · rw [ends]
    have member := List.mem_of_getElem? located
    exact Nat.le_trans (Nat.le_of_lt (outlined.some_ heading member))
      (outlined.bounded heading member)

theorem Outlined.sectionEnd_boundary (outlined : Outlined text items)
    (found : items[index]? = some item) :
    CharBoundary text (sectionEnd text items index item) := by
  rcases outlined.sectionEnd_cases found with
    ⟨ends, _⟩ | ⟨closing, heading, located, _, _, ends, _⟩
  · rw [ends]
    exact charBoundary_end text
  · rw [ends]
    exact outlined.starts heading (List.mem_of_getElem? located)

theorem Outlined.finish_le_of_within (outlined : Outlined text items)
    (found : items[index]? = some item) (ends : items[later]? = some next)
    (within : Nesting.Within (levelAt items) index later) :
    next.finish ≤ sectionEnd text items index item := by
  rcases outlined.sectionEnd_cases found with
    ⟨whole, _⟩ | ⟨closing, heading, located, after, small, stops, _⟩
  · rw [whole]
    exact outlined.bounded next (List.mem_of_getElem? ends)
  · have before : later < closing := by
      refine Nat.lt_of_not_le fun reached => ?_
      have deeper := within.2 closing after reached
      omega
    rw [stops]
    exact outlined.apart ends located before

theorem Outlined.sectionEnd_le_of_outside (outlined : Outlined text items)
    (found : items[index]? = some item) (ends : items[later]? = some next) (first : index ≤ later)
    (outside : ¬ Nesting.Within (levelAt items) index later) :
    sectionEnd text items index item ≤ next.start := by
  rcases outlined.sectionEnd_cases found with
    ⟨_, all⟩ | ⟨closing, heading, located, _, _, stops, all⟩
  · exact absurd (all later next ends first) outside
  · rw [stops]
    rcases Nat.lt_trichotomy later closing with before | rfl | behind
    · exact absurd (all later first before) outside
    · rw [ends, Option.some_inj] at located
      rw [located]
    · have apart := outlined.apart located ends behind
      have some_ := outlined.some_ heading (List.mem_of_getElem? located)
      omega

theorem Outlined.sectionEnd_le_of_within (outlined : Outlined text items)
    (found : items[index]? = some item) (ends : items[later]? = some next)
    (within : Nesting.Within (levelAt items) index later) :
    sectionEnd text items later next ≤ sectionEnd text items index item := by
  rcases outlined.sectionEnd_cases found with
    ⟨whole, _⟩ | ⟨closing, heading, located, after, small, stops, _⟩
  · rw [whole]
    exact outlined.sectionEnd_le ends
  · have before : later < closing := by
      refine Nat.lt_of_not_le fun reached => ?_
      have deeper := within.2 closing after reached
      omega
    rw [stops]
    refine outlined.sectionEnd_le_of_outside ends located (Nat.le_of_lt before) fun inside => ?_
    have deeper := inside.2 closing before (Nat.le_refl _)
    have own := within.le
    omega

end ranges

section forest

def Follows (items : List KnotOutlineItemV1) (child parent : Nat) : Prop :=
  (headingParents items)[child]? = some (some parent)

def NearestShallower (items : List KnotOutlineItemV1) (index parent : Nat) : Prop :=
  parent < index ∧ ∃ item above, items[index]? = some item ∧ items[parent]? = some above ∧
    above.level < item.level ∧
    ∀ position between, items[position]? = some between → parent < position → position < index →
      item.level ≤ between.level

theorem follows_iff_nearestShallower {items : List KnotOutlineItemV1} {index parent : Nat} :
    Follows items index parent ↔ NearestShallower items index parent := by
  rw [Follows, headingParents_eq_some_iff]
  constructor
  · rintro ⟨inside, before, small, between⟩
    have found : items[index]? = some items[index] := List.getElem?_eq_getElem inside
    have above : items[parent]? = some items[parent] :=
      List.getElem?_eq_getElem (Nat.lt_trans before inside)
    refine ⟨before, _, _, found, above, ?_, ?_⟩
    · rwa [levelAt_of found, levelAt_of above, ← UInt8.lt_iff_toNat_lt] at small
    · intro position other listed after last
      have deeper := between position after last
      rwa [levelAt_of found, levelAt_of listed, ← UInt8.le_iff_toNat_le] at deeper
  · rintro ⟨before, item, above, found, located, small, between⟩
    obtain ⟨inside, _⟩ := List.getElem?_eq_some_iff.mp found
    refine ⟨inside, before, ?_, ?_⟩
    · rwa [levelAt_of found, levelAt_of located, ← UInt8.lt_iff_toNat_lt]
    · intro position after last
      have listed : items[position]? = some items[position] :=
        List.getElem?_eq_getElem (Nat.lt_trans last inside)
      have deeper := between position _ listed after last
      rwa [levelAt_of found, levelAt_of listed, ← UInt8.le_iff_toNat_le]

theorem follows_iff_within {items : List KnotOutlineItemV1} {index holder : Nat}
    (inside : index < items.length) :
    Relation.ReflTransGen (Follows items) index holder ↔
      Nesting.Within (levelAt items) holder index := by
  rw [Nesting.within_iff_reaches]
  constructor
  · exact Relation.ReflTransGen.mono (fun _ _ named => (headingParents_eq_some_iff.mp named).2) _ _
  · intro reaches
    induction reaches using Relation.ReflTransGen.head_induction_on with
    | refl => exact .refl
    | head nested _ ih =>
      exact .head (headingParents_eq_some_iff.mpr ⟨inside, nested⟩)
        (ih (Nat.lt_trans nested.1 inside))

theorem getElem?_sections {input : ReadingInput} {index : Nat} {part : SectionValue} :
    (sections input)[index]? = some part ↔
      ∃ item, input.outline[index]? = some item ∧
        part = sectionOf input.text input.outline (item, index) := by
  rw [sections, List.getElem?_map, List.getElem?_zipIdx]
  simp [eq_comm]

structure WellFormed (input : ReadingInput) : Prop where
  outlined : Outlined input.text input.outline
  folds : ∀ fold ∈ input.folds, fold.start ≤ fold.finish
  links : ∀ link ∈ input.links, ∀ span ∈ link.span, span.1 ≤ span.2

structure Forest (input : ReadingInput) : Prop where
  bounds : ∀ part ∈ sections input,
    part.span.start ≤ part.span.finish ∧ part.span.finish ≤ input.text.utf8ByteSize
  parts : ∀ part ∈ sections input, part.heading.start = part.span.start ∧
    part.heading.start ≤ part.heading.finish ∧ part.heading.finish = part.body.start ∧
    part.body.start ≤ part.body.finish ∧ part.body.finish = part.span.finish
  nested : (sections input).Pairwise fun earlier later =>
    earlier.span.finish ≤ later.span.start ∨
      (earlier.span.start ≤ later.span.start ∧ later.span.finish ≤ earlier.span.finish)
  answered : ∀ span, Obtains input span → ∃ answer, slice input.text span = some answer
  sliced : ∀ part ∈ sections input, ∃ inside, slice input.text part.span = some (.ok inside)
  parents : ∀ index parent, (headingParents input.outline)[index]? = some (some parent) ↔
    NearestShallower input.outline index parent
  held : ∀ index item holder part, input.outline[index]? = some item →
    (sections input)[holder]? = some part →
      ((part.span.start ≤ item.start ∧ item.finish ≤ part.span.finish) ↔
        Relation.ReflTransGen (Follows input.outline) index holder)

section wellFormed

variable {input : ReadingInput} (formed : WellFormed input)

include formed

theorem WellFormed.exists_item {part : SectionValue} (listed : part ∈ sections input) :
    ∃ index item, input.outline[index]? = some item ∧
      part = sectionOf input.text input.outline (item, index) ∧ item.start < item.finish ∧
      item.finish ≤ part.span.finish := by
  obtain ⟨index, located⟩ := List.mem_iff_getElem?.mp listed
  obtain ⟨item, found, rfl⟩ := getElem?_sections.mp located
  exact ⟨index, item, found, rfl, formed.outlined.some_ item (List.mem_of_getElem? found),
    formed.outlined.finish_le_sectionEnd found⟩

theorem WellFormed.ordered_of_obtains {span : SpanValue} (obtains : Obtains input span) :
    span.start ≤ span.finish := by
  cases obtains with
  | made start finish span constructed => exact ordered_of_makeSpan constructed
  | ofHeading heading listed =>
    obtain ⟨item, found, rfl⟩ := List.mem_map.mp listed
    exact Nat.le_of_lt (formed.outlined.some_ item found)
  | ofSectionHeading part listed =>
    obtain ⟨index, item, found, rfl, some_, ends⟩ := formed.exists_item listed
    exact Nat.le_of_lt some_
  | ofSectionBody part listed =>
    obtain ⟨index, item, found, rfl, some_, ends⟩ := formed.exists_item listed
    exact ends
  | ofSection part listed =>
    obtain ⟨index, item, found, rfl, some_, ends⟩ := formed.exists_item listed
    exact Nat.le_trans (Nat.le_of_lt some_) ends
  | ofFold fold listed =>
    obtain ⟨item, found, rfl⟩ := List.mem_map.mp listed
    exact formed.folds item found
  | ofLink link listed =>
    obtain ⟨item, found, rfl⟩ := List.mem_map.mp listed
    show (item.span.getD (0, 0)).1 ≤ (item.span.getD (0, 0)).2
    cases placed : item.span with
    | none => exact Nat.le_refl 0
    | some span => exact formed.links item found span placed

theorem WellFormed.nested : (sections input).Pairwise fun earlier later =>
    earlier.span.finish ≤ later.span.start ∨
      (earlier.span.start ≤ later.span.start ∧ later.span.finish ≤ earlier.span.finish) := by
  refine List.pairwise_iff_getElem.mpr ?_
  intro index later inside within before
  obtain ⟨item, found, first⟩ := getElem?_sections.mp (List.getElem?_eq_getElem inside)
  obtain ⟨next, ends, second⟩ := getElem?_sections.mp (List.getElem?_eq_getElem within)
  rw [first, second]
  by_cases nested : Nesting.Within (levelAt input.outline) index later
  · have apart := formed.outlined.apart found ends before
    have some_ := formed.outlined.some_ item (List.mem_of_getElem? found)
    refine .inr ⟨?_, formed.outlined.sectionEnd_le_of_within found ends nested⟩
    exact Nat.le_of_lt (Nat.lt_of_lt_of_le some_ apart)
  · exact .inl (formed.outlined.sectionEnd_le_of_outside found ends (Nat.le_of_lt before) nested)

theorem WellFormed.held_iff_within {index holder : Nat} {item above : KnotOutlineItemV1}
    (found : input.outline[index]? = some item) (located : input.outline[holder]? = some above) :
    (above.start ≤ item.start ∧
        item.finish ≤ sectionEnd input.text input.outline holder above) ↔
      Nesting.Within (levelAt input.outline) holder index := by
  have some_ := formed.outlined.some_ item (List.mem_of_getElem? found)
  rcases Nat.lt_trichotomy index holder with before | rfl | after
  · have apart := formed.outlined.apart found located before
    refine ⟨?_, ?_⟩
    · rintro ⟨starts, _⟩
      omega
    · intro within
      have backward := within.1
      omega
  · rw [found, Option.some_inj] at located
    subst located
    exact ⟨fun _ => .refl index,
      fun _ => ⟨Nat.le_refl _, formed.outlined.finish_le_sectionEnd found⟩⟩
  · have apart := formed.outlined.apart located found after
    have whole := formed.outlined.some_ above (List.mem_of_getElem? located)
    refine ⟨?_, ?_⟩
    · rintro ⟨_, ends⟩
      by_contra outside
      have behind := formed.outlined.sectionEnd_le_of_outside located found (Nat.le_of_lt after)
        outside
      omega
    · intro within
      exact ⟨by omega, formed.outlined.finish_le_of_within located found within⟩

end wellFormed

/-- The sections that scripts see and the parents that the context view names are one forest. -/
theorem sections_form_a_forest (input : ReadingInput) (formed : WellFormed input) :
    Forest input where
  bounds := by
    intro part listed
    obtain ⟨index, item, found, rfl, some_, ends⟩ := formed.exists_item listed
    exact ⟨Nat.le_trans (Nat.le_of_lt some_) ends, formed.outlined.sectionEnd_le found⟩
  parts := by
    intro part listed
    obtain ⟨index, item, found, rfl, some_, ends⟩ := formed.exists_item listed
    exact ⟨rfl, Nat.le_of_lt some_, rfl, ends, rfl⟩
  nested := formed.nested
  answered := fun span obtains => slice_of_ordered (formed.ordered_of_obtains obtains)
  sliced := by
    intro part listed
    obtain ⟨index, item, found, rfl, some_, ends⟩ := formed.exists_item listed
    exact slice_of_boundaries (Nat.le_trans (Nat.le_of_lt some_) ends)
      (formed.outlined.sectionEnd_le found)
      (formed.outlined.starts item (List.mem_of_getElem? found))
      (formed.outlined.sectionEnd_boundary found)
  parents := fun index parent => follows_iff_nearestShallower
  held := by
    intro index item holder part found located
    obtain ⟨above, listed, rfl⟩ := getElem?_sections.mp located
    obtain ⟨inside, _⟩ := List.getElem?_eq_some_iff.mp found
    rw [follows_iff_within inside]
    exact formed.held_iff_within found listed

def chapter : ReadingInput where
  text := "# A\n## B\nx"
  outline := [⟨"A", 1, 0, 3⟩, ⟨"B", 2, 4, 8⟩]
  folds := []
  links := []

theorem chapter_wellFormed : WellFormed chapter where
  outlined := {
    ordered := by decide
    ranged := by decide
    bounded := by decide
    starts := by simp only [CharBoundary]; decide
    finishes := by simp only [CharBoundary]; decide
    some_ := by decide }
  folds := List.forall_mem_nil _
  links := List.forall_mem_nil _

theorem sections_form_a_forest_chapter : Forest chapter :=
  sections_form_a_forest chapter chapter_wellFormed

def reversed : ReadingInput where
  text := "ab"
  outline := []
  folds := [⟨.list, 2, 1⟩]
  links := []

def hollow : ReadingInput where
  text := ""
  outline := [⟨"", 1, 0, 0⟩, ⟨"", 1, 0, 0⟩]
  folds := []
  links := []

/-- Order alone is not enough: a reversed fold panics, and an empty heading at the end of a section
lies inside it without standing in it. -/
theorem sections_need_more_than_order :
    (InOrder reversed.text reversed.outline ∧
      ∃ span, Obtains reversed span ∧ slice reversed.text span = none) ∧
    (InOrder hollow.text hollow.outline ∧ ¬ ∀ index item holder part,
      hollow.outline[index]? = some item → (sections hollow)[holder]? = some part →
        ((part.span.start ≤ item.start ∧ item.finish ≤ part.span.finish) ↔
          Relation.ReflTransGen (Follows hollow.outline) index holder)) := by
  refine ⟨⟨⟨.nil, by decide, by decide, by simp [reversed], by simp [reversed]⟩,
    ⟨2, 1⟩, .ofFold ⟨"list", 2, 1⟩ List.mem_cons_self, by decide⟩, ?_, ?_⟩
  · refine ⟨by decide, by decide, by decide, ?_, ?_⟩ <;> simp only [CharBoundary] <;> decide
  · intro agree
    have reaches := (agree 1 ⟨"", 1, 0, 0⟩ 0 _ rfl rfl).mp (by decide)
    rw [follows_iff_within (by decide)] at reaches
    have deeper := reaches.2 1 (by decide) (by decide)
    revert deeper
    decide

end forest

end KnotEditor.Desktop.ContextNavigation
