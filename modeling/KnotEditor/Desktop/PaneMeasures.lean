import KnotEditor.Desktop.PaneRoom
import Mathlib.Data.List.Nodup

/-! The leaves that a presentation gives its panes, and what the constrained panes honour. -/

namespace KnotEditor.Desktop.Collapse

mutual

def TileTree.stacksOf : TileTree → List (List TileId)
  | .stack tabs => [tabs]
  | .split _ children => TileTree.allStacks children

def TileTree.allStacks : List (ℚ × TileTree) → List (List TileId)
  | [] => []
  | (_, tree) :: rest => tree.stacksOf ++ TileTree.allStacks rest

end

theorem allStacks_eq (children : List (ℚ × TileTree)) :
    TileTree.allStacks children = children.flatMap fun child => child.2.stacksOf := by
  induction children with
  | nil => rfl
  | cons child rest ih => rw [TileTree.allStacks, ih, List.flatMap_cons]

theorem tiles_eq (tree : TileTree) : tree.tiles = tree.stacksOf.flatten := by
  induction tree using TileTree.induct with
  | stack tabs => simp [TileTree.tiles, TileTree.stacksOf]
  | split axis children ih =>
    rw [TileTree.tiles, TileTree.stacksOf, Panes.allTiles_eq, allStacks_eq, ← List.flatMap_id,
      List.flatMap_assoc]
    refine List.flatMap_congr ?_
    intro child member
    rw [ih child member, ← List.flatMap_id]

theorem stack_unique {tree : TileTree} (distinct : tree.tiles.Nodup) {first second : List TileId}
    (one : first ∈ tree.stacksOf) (two : second ∈ tree.stacksOf) {tile : TileId}
    (inFirst : tile ∈ first) (inSecond : tile ∈ second) : first = second := by
  rw [tiles_eq, List.nodup_flatten] at distinct
  by_contra different
  have symmetric : Std.Symm (List.Disjoint (α := TileId)) := ⟨fun _ _ apart => apart.symm⟩
  exact distinct.2.forall one two different inFirst inSecond

section

variable {role : TileId → Option TileRole} {measure : TileId → ℚ}
  {previous : WorkbenchPresentation}

theorem mem_collectAll {children : List (ℚ × TileTree)} {axis : SplitAxis}
    {width available total : ℚ} {leaf : Leaf}
    (collected : leaf ∈ collectAll role measure previous children axis width available total) :
    ∃ child ∈ children, ∃ own, leaf ∈ collect role measure previous child.2 own := by
  induction children with
  | nil => cases collected
  | cons child rest ih =>
    rcases List.mem_append.mp collected with first | later
    · exact ⟨child, List.mem_cons_self, _, first⟩
    · obtain ⟨other, member, own, found⟩ := ih later
      exact ⟨other, List.mem_cons_of_mem _ member, own, found⟩

theorem mem_collect {tree : TileTree} {width : ℚ} {leaf : Leaf}
    (collected : leaf ∈ collect role measure previous tree width) :
    leaf.collapsed = false ∧ ∃ tabs ∈ tree.stacksOf, tabs.head? = some leaf.anchor ∧
      leaf.kind = kindOf role tabs := by
  induction tree using TileTree.induct generalizing width with
  | stack tabs =>
    rw [collect] at collected
    cases tabs with
    | nil => cases collected
    | cons first rest =>
      rw [List.mem_singleton.mp collected]
      exact ⟨rfl, first :: rest, List.mem_singleton.mpr rfl, rfl, rfl⟩
  | split axis children ih =>
    rw [collect] at collected
    obtain ⟨child, member, own, found⟩ := mem_collectAll collected
    obtain ⟨open_, tabs, inside, stands⟩ := ih child member found
    refine ⟨open_, tabs, ?_, stands⟩
    rw [TileTree.stacksOf, allStacks_eq]
    exact List.mem_flatMap.mpr ⟨child, member, inside⟩

def FoldedFrom (leaves : List Leaf) (leaf : Leaf) : Prop :=
  (leaf.collapsed = true → leaf.kind ≠ .source) ∧
    ∃ before ∈ leaves, leaf.anchor = before.anchor ∧ leaf.kind = before.kind

theorem foldedFrom_fold {leaves : List Leaf} (drawer : Bool) :
    ∀ leaf ∈ fold leaves drawer, FoldedFrom leaves leaf := by
  refine List.forall_mem_map.mpr ?_
  intro before member
  refine ⟨?_, before, member, rfl, rfl⟩
  intro collapsed source
  simp only at collapsed source
  rw [source] at collapsed
  simp at collapsed

theorem foldedFrom_foldReadings {leaves folded : List Leaf}
    (each : ∀ leaf ∈ folded, FoldedFrom leaves leaf) :
    ∀ leaf ∈ foldReadings folded, FoldedFrom leaves leaf := by
  refine List.forall_mem_map.mpr ?_
  intro leaf member
  split
  next reading =>
    refine ⟨?_, (each leaf member).2⟩
    intro _ source
    rw [reading] at source
    cases source
  next => exact each leaf member

theorem foldedFrom_panesOf {tree : TileTree} {preferences : CollapsePreferences}
    {viewport frame : ℚ} {leaves : List Leaf} (unfolded : ∀ leaf ∈ leaves, leaf.collapsed = false) :
    ∀ leaf ∈ (panesOf tree preferences viewport frame leaves).leaves, FoldedFrom leaves leaf := by
  have same : ∀ leaf ∈ leaves, FoldedFrom leaves leaf := by
    intro leaf member
    refine ⟨?_, leaf, member, rfl, rfl⟩
    intro collapsed
    rw [unfolded leaf member] at collapsed
    cases collapsed
  rw [panesOf]
  simp only
  split
  · split
    · exact foldedFrom_foldReadings (foldedFrom_fold _)
    · exact foldedFrom_fold _
  · split
    · exact foldedFrom_foldReadings same
    · exact same

theorem anchors_collectAll {children : List (ℚ × TileTree)} {axis : SplitAxis}
    {width available total : ℚ} (each : ∀ child ∈ children, ∀ own,
      (collect role measure previous child.2 own).map Leaf.anchor =
        child.2.stacksOf.filterMap List.head?) :
    (collectAll role measure previous children axis width available total).map Leaf.anchor =
      (TileTree.allStacks children).filterMap List.head? := by
  induction children with
  | nil => rfl
  | cons child rest ih =>
    rw [collectAll, TileTree.allStacks, List.map_append, List.filterMap_append,
      each child List.mem_cons_self, ih fun other member => each other (List.mem_cons_of_mem _ member)]

theorem anchors_collect (tree : TileTree) (width : ℚ) :
    (collect role measure previous tree width).map Leaf.anchor =
      tree.stacksOf.filterMap List.head? := by
  induction tree using TileTree.induct generalizing width with
  | stack tabs => cases tabs <;> rfl
  | split axis children ih => exact anchors_collectAll ih

theorem anchors_panesOf (tree : TileTree) (preferences : CollapsePreferences) (viewport frame : ℚ)
    (leaves : List Leaf) :
    (panesOf tree preferences viewport frame leaves).leaves.map Leaf.anchor =
      leaves.map Leaf.anchor := by
  have readings : ∀ leaves, (foldReadings leaves).map Leaf.anchor = leaves.map Leaf.anchor := by
    intro leaves
    rw [foldReadings, List.map_map]
    refine List.map_congr_left fun leaf _ => ?_
    rw [Function.comp_apply]
    split <;> rfl
  have folds : ∀ leaves drawer, (fold leaves drawer).map Leaf.anchor = leaves.map Leaf.anchor := by
    intro leaves drawer
    rw [fold, List.map_map]
    rfl
  rw [panesOf]
  simp only
  split <;> split <;> simp only [readings, folds]

end

open Panes

/-- In every row the widths are not negative, rails without a source keep the rail width, and the
fractions share out the room of the others; only such fractions are emitted. In a frame as wide as
the minimum, if every row has room for its sources, every expanded leaf has its measure or the
reading minimum and every row keeps to its width. -/
theorem constrain_honours_measures (panes : Panes) (tree : TileTree) (frame : ℚ)
    (rail : 0 < panes.rail) (minimum : 0 < panes.minimum) :
    (∀ path children width, Visits panes tree frame path (.split .row children) width →
      (∀ share ∈ panes.assign width children, 0 ≤ share.2) ∧
      (∀ share ∈ panes.assign width children, panes.isRail share.1.2 = true →
        panes.hasSource share.1.2 = false → share.2 = panes.rail) ∧
      FractionsSound panes (panes.assign width children)) ∧
    (∀ split ∈ panes.constrain tree frame [], ∃ children width,
      Visits panes tree frame split.path (.split .row children) width ∧
      split.fractions = panes.fractions (panes.assign width children)) ∧
    (panes.minimumWidth tree ≤ frame → Roomy panes tree frame ∨ OneSource panes tree →
      Honoured panes tree frame) := by
  refine ⟨?_, ?_, ?_⟩
  · intro path children width _
    have nonneg := assign_nonneg rail.le minimum.le width children
    exact ⟨nonneg, assign_rail width children, fractionsSound nonneg⟩
  · intro split emitted
    obtain ⟨inner, children, width, joined, visits, fractions⟩ := mem_constrain emitted
    rw [List.nil_append] at joined
    exact ⟨children, width, joined ▸ visits, fractions⟩
  · rintro fits (roomy | simple)
    · exact honoured_of_roomy roomy fits
    · exact honoured_of_roomy (roomy_of_oneSource simple fits) fits

def sampleLeaf (anchor : TileId) (kind : Kind) (measure : ℚ) (collapsed : Bool) : Leaf :=
  ⟨anchor, kind, "", measure, 0, collapsed, false⟩

def threePanes : Panes :=
  ⟨[sampleLeaf 1 .navigator 0 true, sampleLeaf 2 .source 786 false,
    sampleLeaf 3 .reading 0 false], 28, 280, false⟩

def threeTree : TileTree :=
  .split .row [(1 / 4, .stack [1]), (1 / 2, .stack [2]), (1 / 4, .stack [3])]

theorem constrain_honours_measures_three : Honoured threePanes threeTree 1100 := by
  refine (constrain_honours_measures threePanes threeTree 1100 (by decide +kernel)
    (by decide +kernel)).2.2 (by decide +kernel) (.inr (.split (by simp) ?_ ?_))
  · have pixels : 1 ≤ threePanes.leafMinimum (sampleLeaf 1 .navigator 0 true) ∧
        1 ≤ threePanes.leafMinimum (sampleLeaf 2 .source 786 false) ∧
        1 ≤ threePanes.leafMinimum (sampleLeaf 3 .reading 0 false) := by decide +kernel
    obtain ⟨navigator, source, reading⟩ := pixels
    simp only [List.forall_mem_cons]
    exact ⟨.stack rfl navigator, .stack rfl source, .stack rfl reading, List.forall_mem_nil _⟩
  · intro _
    decide

/-- Every stack that is not empty is presented once, and one with a document is never folded. -/
theorem documents_are_never_folded {tree : TileTree} (distinct : tree.tiles.Nodup)
    (preferences : CollapsePreferences) (viewport : ℚ × ℚ) (frame : ℚ × ℚ × ℚ × ℚ)
    (previous : WorkbenchPresentation) (source : Option TileId)
    (role : TileId → Option TileRole) (measure : TileId → ℚ) :
    let shown := presentation tree preferences viewport frame previous source role measure
    shown.stacks_.map StackPresentation.anchor = tree.stacksOf.filterMap List.head? ∧
      ∀ stack ∈ shown.stacks_, stack.collapsed.isSome = true → ∀ tabs ∈ tree.stacksOf,
        stack.anchor ∈ tabs → ∀ tile ∈ tabs, role tile ≠ some .document := by
  intro shown
  constructor
  · let leaves := collect role measure previous tree frame.2.2.1
    change ((panesOf tree preferences viewport.1 frame.2.2.1 leaves).leaves.map _).map _ = _
    rw [List.map_map, ← anchors_collect tree frame.2.2.1]
    exact anchors_panesOf tree preferences viewport.1 frame.2.2.1 leaves
  · intro stack listed collapsed tabs inside anchored tile tabbed document
    obtain ⟨leaf, member, rfl⟩ := List.mem_map.mp listed
    obtain ⟨sourceless, before, earlier, anchor, kind⟩ :=
      foldedFrom_panesOf (fun leaf member => (mem_collect member).1) leaf member
    obtain ⟨-, own, stood, head, kindEq⟩ := mem_collect earlier
    rw [← anchor] at head
    have same : own = tabs := stack_unique distinct stood inside (List.mem_of_head? head) anchored
    have folded : leaf.collapsed = true := by
      by_contra open_
      simp [Panes.stackPresentation, open_] at collapsed
    refine sourceless folded ?_
    rw [kind, kindEq, same, kindOf, if_pos (List.any_eq_true.mpr ⟨tile, tabbed, by simp [document]⟩)]

def threeRoles : TileId → Option TileRole
  | 1 => some .navigator
  | 2 => some .document
  | _ => some .reading

theorem documents_are_never_folded_three :
    let shown := presentation threeTree ⟨280, 28, 700⟩ (600, 400) (0, 0, 600, 400) ⟨none, [], []⟩
      none threeRoles fun _ => 786
    shown.stacks_.map (fun stack => (stack.anchor, stack.collapsed.isSome)) =
        [(1, true), (2, false), (3, true)] ∧
      ∀ stack ∈ shown.stacks_, stack.collapsed.isSome = true → 2 ≠ stack.anchor := by
  intro shown
  refine ⟨by decide +kernel, fun stack listed collapsed same => ?_⟩
  have distinct : threeTree.tiles.Nodup := by decide
  exact (documents_are_never_folded distinct _ _ _ _ _ threeRoles _).2 stack listed collapsed [2]
    (by decide) (List.mem_singleton.mpr same.symm) 2 (List.mem_singleton.mpr rfl) rfl

def twoSources : Panes :=
  ⟨[sampleLeaf 1 .source 100 false, sampleLeaf 2 .source 100 false], 28, 280, false⟩

def foldedSource : Panes :=
  ⟨[sampleLeaf 1 .source 100 true, sampleLeaf 2 .navigator 0 false], 28, 280, false⟩

def fullMeasure : Panes := ⟨[sampleLeaf 1 .source 0 false], 28, 280, false⟩

def sideBySide (first second : ℚ) : List (ℚ × TileTree) :=
  [(first, .stack [1]), (second, .stack [2])]

/-- Two sources shrink together, and the one without a surplus falls below its measure; a folded
source is given spare room; and a frame of less than a pixel is overrun. -/
theorem measures_not_always_honoured :
    (twoSources.minimumWidth (.split .row (sideBySide (1 / 4) (3 / 4))) ≤ 301 ∧
      (twoSources.childWidths .row (sideBySide (1 / 4) (3 / 4)) 301)[0]?.any (· < 100)) ∧
    (foldedSource.isRail (.stack [1]) = true ∧
      (foldedSource.childWidths .row (sideBySide (1 / 2) (1 / 2)) 400)[0]?.any (28 < ·)) ∧
    fullMeasure.minimumWidth (.split .row [(1, .stack [1])]) ≤ 1 / 2 ∧
    1 / 2 < (fullMeasure.childWidths .row [(1, .stack [1])] (1 / 2)).sum + dividers 1 := by
  decide +kernel

end KnotEditor.Desktop.Collapse
