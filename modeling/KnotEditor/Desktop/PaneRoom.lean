import KnotEditor.Desktop.PaneWidths

/-! Rows with room for the minimum of every child, in a tree of splits. -/

namespace KnotEditor.Desktop.Collapse

namespace Panes

def sideMinimum (panes : Panes) (children : List (ℚ × TileTree)) : ℚ :=
  ((children.filter fun child => !panes.hasSource child.2).map fun child =>
    panes.minimumWidth child.2).sum

def wished (panes : Panes) (available : ℚ) (children : List (ℚ × TileTree)) : ℚ :=
  Allotment.total ((panes.start available children).filter fun share => panes.hasSource share.1.2)

def sourceCount (panes : Panes) (children : List (ℚ × TileTree)) : Nat :=
  children.countP fun child => panes.hasSource child.2

/-- Beside its dividers the row has a pixel, and beside the minimum of its sides it has one for its
only source, or all that its sources start from. -/
structure RowRoom (panes : Panes) (children : List (ℚ × TileTree)) (width : ℚ) : Prop where
  pixel : 1 ≤ width - dividers children.length
  sources : (panes.sourceCount children = 1 ∧
      1 + panes.sideMinimum children ≤ width - dividers children.length) ∨
    panes.wished (width - dividers children.length) children + panes.sideMinimum children ≤
      width - dividers children.length

variable {panes : Panes} {children : List (ℚ × TileTree)} {width available : ℚ}
  {assigned : Assigned}

def Floored (panes : Panes) (assigned : Assigned) : Prop :=
  ∀ share ∈ assigned, panes.minimumWidth share.1.2 ≤ share.2

theorem keeps_floored : Keeps panes fun child width => panes.minimumWidth child.2 ≤ width := by
  refine ⟨?_, ?_⟩
  · intro child width reduction floor _ _ above
    rw [max_eq_left (by linarith)] at above
    linarith
  · intro child width part floor _ more
    linarith

theorem start_floored (available : ℚ) (children : List (ℚ × TileTree)) :
    Floored panes (panes.start available children) := by
  intro share member
  obtain ⟨child, _, rfl⟩ := List.mem_map.mp member
  simp only
  split
  next rail => exact (minimumWidth_of_isRail rail).le
  next => exact le_max_right _ _

theorem spread_total_le (within : Allotment.total assigned ≤ available) :
    Allotment.total (panes.spread available assigned) ≤ available := by
  have counted : ∀ chosen : ℚ × TileTree → Bool,
      (assigned.any fun child => chosen child.1) = true →
      0 < assigned.countP fun share => chosen share.1 := by
    intro chosen some_
    obtain ⟨share, member, picked⟩ := List.any_eq_true.mp some_
    exact List.countP_pos_iff.mpr ⟨share, member, picked⟩
  fun_cases spread panes available assigned
  case case1 spare positive reading =>
    rw [Allotment.spread_total (counted _ reading), add_sub_cancel]
  case case2 spare positive _ source =>
    rw [Allotment.spread_total (counted _ source), add_sub_cancel]
  all_goals exact within

theorem narrow_sources (excess : ℚ) (assigned : Assigned) :
    ((panes.narrow excess assigned).2.filter fun share => panes.hasSource share.1.2) =
      assigned.filter fun share => panes.hasSource share.1.2 := by
  have others := Allotment.narrow_others (fun child => !panes.hasSource child.2)
    (fun child => panes.minimumWidth child.2) excess assigned
  simp only [Bool.not_not] at others
  exact others

theorem filter_items (assigned : Assigned) (picked : ℚ × TileTree → Bool) :
    (assigned.filter fun share => picked share.1).map Prod.fst =
      (assigned.map Prod.fst).filter picked := by
  rw [List.filter_map]
  rfl

theorem total_sides_le (items : assigned.map Prod.fst = children)
    (exhausted : ∀ share ∈ assigned, (!panes.hasSource share.1.2) = true →
      share.2 ≤ panes.minimumWidth share.1.2) :
    Allotment.total (assigned.filter fun share => !panes.hasSource share.1.2) ≤
      panes.sideMinimum children := by
  have sides : ∀ share ∈ assigned.filter fun share => !panes.hasSource share.1.2,
      share.2 ≤ panes.minimumWidth share.1.2 := by
    intro share member
    obtain ⟨kept, side⟩ := List.mem_filter.mp member
    exact exhausted share kept side
  have bound := Allotment.total_le_sum
    (fun child : ℚ × TileTree => panes.minimumWidth child.2) sides
  rwa [filter_items assigned fun child => !panes.hasSource child.2, items] at bound

theorem sourceCount_eq (items : assigned.map Prod.fst = children) :
    (assigned.filter fun share => panes.hasSource share.1.2).length =
      panes.sourceCount children := by
  rw [sourceCount, List.countP_eq_length_filter, ← items,
    ← filter_items assigned fun child => panes.hasSource child.2, List.length_map]

theorem sum_minimums (panes : Panes) (children : List (ℚ × TileTree)) :
    ((children.filter fun child => panes.hasSource child.2).map fun child =>
        panes.minimumWidth child.2).sum + panes.sideMinimum children =
      (children.map fun child => panes.minimumWidth child.2).sum := by
  have split := Allotment.total_filter_add (fun share => panes.hasSource share.1.2)
    (children.map fun child => (child, panes.minimumWidth child.2))
  simp only [Allotment.total, List.filter_map, List.map_map, Function.comp_def] at split
  exact split

theorem shrink_only_source {excess : ℚ} (positive : 0 < excess)
    (items : assigned.map Prod.fst = children) (floored : Floored panes assigned)
    (total : Allotment.total assigned = available + excess)
    (exhausted : ∀ share ∈ assigned, (!panes.hasSource share.1.2) = true →
      share.2 ≤ panes.minimumWidth share.1.2)
    (only : panes.sourceCount children = 1) (pixel : 1 + panes.sideMinimum children ≤ available)
    (fits : (children.map fun child => panes.minimumWidth child.2).sum ≤ available) :
    Floored panes (panes.shrink excess assigned) ∧
      Allotment.total (panes.shrink excess assigned) = available := by
  obtain ⟨source, alone⟩ := List.length_eq_one_iff.mp ((sourceCount_eq items).trans only)
  have parts := Allotment.total_filter_add (fun share => panes.hasSource share.1.2) assigned
  rw [alone, Allotment.total_cons, Allotment.total_nil, add_zero, total] at parts
  have sides := total_sides_le items exhausted
  have own : panes.minimumWidth source.1.2 + panes.sideMinimum children ≤ available := by
    have chosen := filter_items assigned fun child => panes.hasSource child.2
    rw [alone, items, List.map_singleton] at chosen
    have minimums := sum_minimums panes children
    rw [← chosen, List.map_singleton, List.sum_singleton] at minimums
    rwa [minimums]
  have wide : 1 ≤ source.2 := by linarith
  have left : max (source.2 - excess * source.2 / max (panes.sourceTotal assigned) 1) 1 =
      source.2 - excess := by
    rw [sourceTotal, alone, Allotment.total_cons, Allotment.total_nil, add_zero,
      max_eq_left wide, mul_div_assoc, div_self (by linarith), mul_one,
      max_eq_left (by linarith)]
  rw [shrink, if_pos positive]
  refine ⟨?_, ?_⟩
  · intro share member
    obtain ⟨before, earlier, rfl⟩ := List.mem_map.mp member
    split
    next picked =>
      have same : before = source := by
        have filtered : before ∈ assigned.filter fun share => panes.hasSource share.1.2 :=
          List.mem_filter.mpr ⟨earlier, picked⟩
        rw [alone] at filtered
        exact List.mem_singleton.mp filtered
      rw [same, left]
      linarith
    next => exact floored before earlier
  · have changed := Allotment.total_map_picked
      (fun share : (ℚ × TileTree) × ℚ => panes.hasSource share.1.2)
      (fun share => (share.1, max (share.2 - excess * share.2 /
        max (panes.sourceTotal assigned) 1) 1)) assigned
    rw [alone, List.map_singleton, left, Allotment.total_cons, Allotment.total_nil,
      add_zero] at changed
    refine changed.trans ?_
    linarith

theorem shrunk_fits
    (fits : (children.map fun child => panes.minimumWidth child.2).sum ≤ available)
    (sources : (panes.sourceCount children = 1 ∧ 1 + panes.sideMinimum children ≤ available) ∨
      panes.wished available children + panes.sideMinimum children ≤ available) :
    let start := panes.start available children
    let narrowed := panes.narrow (Allotment.total start - available) start
    Floored panes (panes.shrink narrowed.1 narrowed.2) ∧
      Allotment.total (panes.shrink narrowed.1 narrowed.2) ≤ available := by
  intro start narrowed
  have floored : Floored panes narrowed.2 :=
    keeps_floored.narrowed _ (start_floored available children)
  have total : Allotment.total narrowed.2 = available + narrowed.1 := by
    have counted : Allotment.total narrowed.2 =
        Allotment.total start - (Allotment.total start - available - narrowed.1) :=
      Allotment.narrow_total _ start
    linarith
  have items : narrowed.2.map Prod.fst = children :=
    (Allotment.narrow_items _ start).trans (start_items available children)
  by_cases exceeding : 0 < narrowed.1
  · have exhausted : ∀ share ∈ narrowed.2, (!panes.hasSource share.1.2) = true →
        share.2 ≤ panes.minimumWidth share.1.2 := Allotment.narrow_exhausted exceeding
    rcases sources with ⟨only, pixel⟩ | wished
    · obtain ⟨kept, whole⟩ :=
        shrink_only_source exceeding items floored total exhausted only pixel fits
      exact ⟨kept, whole.le⟩
    · -- Sources at what they start from and sides at their minimum leave no excess.
      have parts := Allotment.total_filter_add (fun share => panes.hasSource share.1.2) narrowed.2
      have unmoved : (narrowed.2.filter fun share => panes.hasSource share.1.2) =
          start.filter fun share => panes.hasSource share.1.2 := narrow_sources _ start
      rw [unmoved, total] at parts
      have sides := total_sides_le items exhausted
      rw [Panes.wished] at wished
      linarith
  · rw [shrink, if_neg exceeding]
    exact ⟨floored, by linarith⟩

theorem assign_fits (room : RowRoom panes children width)
    (fits : panes.minimumWidth (.split .row children) ≤ width) :
    Floored panes (panes.assign width children) ∧
      Allotment.total (panes.assign width children) + dividers children.length ≤ width := by
  have unclamped : availableWidth width children.length = width - dividers children.length :=
    max_eq_left room.pixel
  rw [minimumWidth_row] at fits
  have sum : (children.map fun child => panes.minimumWidth child.2).sum ≤
      width - dividers children.length := by linarith
  obtain ⟨floored, within⟩ := shrunk_fits sum room.sources
  rw [← unclamped] at floored within
  have total : Allotment.total (panes.assign width children) ≤
      width - dividers children.length := (spread_total_le within).trans_eq unclamped
  exact ⟨keeps_floored.spreaded _ floored, by linarith⟩

inductive Visits (panes : Panes) : TileTree → ℚ → List Nat → TileTree → ℚ → Prop
  | here (tree : TileTree) (width : ℚ) : Visits panes tree width [] tree width
  | child {axis : SplitAxis} {children : List (ℚ × TileTree)} {width own assigned : ℚ}
      {index : Nat} {path : List Nat} {branch : ℚ × TileTree} {tree : TileTree} :
      children[index]? = some branch →
      (panes.childWidths axis children width)[index]? = some own →
      Visits panes branch.2 own path tree assigned →
      Visits panes (.split axis children) width (index :: path) tree assigned

inductive At : TileTree → List Nat → TileTree → Prop
  | here (tree : TileTree) : At tree [] tree
  | child {axis : SplitAxis} {children : List (ℚ × TileTree)} {index : Nat} {path : List Nat}
      {branch : ℚ × TileTree} {tree : TileTree} :
      children[index]? = some branch → At branch.2 path tree →
      At (.split axis children) (index :: path) tree

theorem mem_constrainAll {children : List (ℚ × TileTree)} {widths : List ℚ} {path : List Nat}
    {index : Nat} {split : SplitPresentation}
    (emitted : split ∈ panes.constrainAll children widths path index) :
    ∃ offset branch own, children[offset]? = some branch ∧ widths[offset]? = some own ∧
      split ∈ panes.constrain branch.2 own (path ++ [index + offset]) := by
  induction children generalizing widths index with
  | nil => cases emitted
  | cons child rest ih =>
    cases widths with
    | nil => cases emitted
    | cons width widths =>
      rcases List.mem_append.mp emitted with first | later
      · exact ⟨0, child, width, rfl, rfl, first⟩
      · obtain ⟨offset, branch, own, at_, assigned, found⟩ := ih later
        refine ⟨offset + 1, branch, own, at_, assigned, ?_⟩
        rwa [show index + (offset + 1) = index + 1 + offset by omega]

theorem mem_constrain {tree : TileTree} {width : ℚ} {path : List Nat} {split : SplitPresentation}
    (emitted : split ∈ panes.constrain tree width path) :
    ∃ inner children assigned, split.path = path ++ inner ∧
      Visits panes tree width inner (.split .row children) assigned ∧
      split.fractions = panes.fractions (panes.assign assigned children) := by
  induction tree using TileTree.induct generalizing width path with
  | stack tabs => cases emitted
  | split axis children ih =>
    rw [constrain] at emitted
    rcases List.mem_append.mp emitted with own | below
    · cases axis with
      | column => cases own
      | row =>
        rw [emit] at own
        split at own
        · rw [List.mem_singleton.mp own]
          exact ⟨[], children, width, (List.append_nil path).symm, .here _ _, rfl⟩
        · cases own
    · obtain ⟨offset, branch, own, at_, assigned, found⟩ := mem_constrainAll below
      obtain ⟨inner, rows, final, joined, visits, fractions⟩ :=
        ih branch (List.mem_of_getElem? at_) found
      refine ⟨offset :: inner, rows, final, ?_, .child at_ assigned visits, fractions⟩
      rw [joined, List.append_assoc, Nat.zero_add, List.singleton_append]

theorem mem_assign {index : Nat} {branch : ℚ × TileTree} {own : ℚ}
    (at_ : children[index]? = some branch)
    (share : (panes.childWidths .row children width)[index]? = some own) :
    (branch, own) ∈ panes.assign width children := by
  rw [childWidths, List.getElem?_map] at share
  obtain ⟨pair, found, rfl⟩ := Option.map_eq_some_iff.mp share
  have items := panes.assign_items width children
  rw [← items, List.getElem?_map, found] at at_
  cases Option.some.inj at_
  exact List.mem_of_getElem? found

def Roomy (panes : Panes) (tree : TileTree) (frame : ℚ) : Prop :=
  ∀ path children width, Visits panes tree frame path (.split .row children) width →
    RowRoom panes children width

theorem foldl_max_le {widths : List ℚ} {start bound : ℚ} (small : widths.foldl max start ≤ bound) :
    start ≤ bound ∧ ∀ width ∈ widths, width ≤ bound := by
  induction widths generalizing start with
  | nil => exact ⟨small, List.forall_mem_nil _⟩
  | cons width widths ih =>
    obtain ⟨first, rest⟩ := ih small
    exact ⟨(le_max_left _ _).trans first,
      List.forall_mem_cons.mpr ⟨(le_max_right _ _).trans first, rest⟩⟩

theorem fits_of_visits (known : TileTree → ℚ → Prop)
    (rows : ∀ children width, known (.split .row children) width →
      panes.minimumWidth (.split .row children) ≤ width → RowRoom panes children width)
    (passes : ∀ axis children width (index : Nat) (branch : ℚ × TileTree) own,
      known (.split axis children) width → children[index]? = some branch →
      (panes.childWidths axis children width)[index]? = some own → known branch.2 own)
    {tree sub : TileTree} {frame width : ℚ} {path : List Nat}
    (visits : Visits panes tree frame path sub width) (whole : known tree frame)
    (fits : panes.minimumWidth tree ≤ frame) :
    known sub width ∧ panes.minimumWidth sub ≤ width := by
  induction visits with
  | here tree width => exact ⟨whole, fits⟩
  | @child axis children width own assigned index path branch sub at_ share visits ih =>
    refine ih (passes axis children width index branch own whole at_ share) ?_
    have member := List.mem_of_getElem? at_
    cases axis with
    | row =>
      have floored := (assign_fits (rows children width whole fits) fits).1
      exact floored _ (mem_assign at_ share)
    | column =>
      rw [minimumWidth_column] at fits
      rw [childWidths, List.getElem?_map, at_] at share
      cases Option.some.inj share
      exact (foldl_max_le fits).2 _ (List.mem_map_of_mem member)

theorem minimumWidth_le_of_roomy {tree sub : TileTree} {frame width : ℚ} {path : List Nat}
    (visits : Visits panes tree frame path sub width) (roomy : Roomy panes tree frame)
    (fits : panes.minimumWidth tree ≤ frame) : panes.minimumWidth sub ≤ width := by
  refine (fits_of_visits (Roomy panes) ?_ ?_ visits roomy fits).2
  · intro children width room _
    exact room [] children width (.here _ _)
  · intro axis children width index branch own room at_ share path rows assigned inner
    exact room _ _ _ (.child at_ share inner)

structure Honoured (panes : Panes) (tree : TileTree) (frame : ℚ) : Prop where
  leaves : ∀ path tabs leaf width, Visits panes tree frame path (.stack tabs) width →
    panes.leaf (.stack tabs) = some leaf → panes.folded leaf = false →
    (if leaf.kind = .source then leaf.measure else panes.minimum) ≤ width
  rows : ∀ path children width, Visits panes tree frame path (.split .row children) width →
    (panes.childWidths .row children width).sum + dividers children.length ≤ width

theorem honoured_of_roomy {tree : TileTree} {frame : ℚ} (roomy : Roomy panes tree frame)
    (fits : panes.minimumWidth tree ≤ frame) : Honoured panes tree frame := by
  refine ⟨?_, ?_⟩
  · intro path tabs leaf width visits found expanded
    have minimum := minimumWidth_le_of_roomy visits roomy fits
    rwa [minimumWidth_of_leaf found, leafMinimum, expanded, if_neg Bool.false_ne_true] at minimum
  · intro path children width visits
    exact (assign_fits (roomy path children width visits)
      (minimumWidth_le_of_roomy visits roomy fits)).2

/-! Trees that have room in any frame as wide as their minimum. -/

/-- Every stack has a leaf that needs a pixel at least, every split has a branch, and no row has
two branches with a source. -/
inductive OneSource (panes : Panes) : TileTree → Prop
  | stack {tabs : List TileId} {leaf : Leaf} : panes.leaf (.stack tabs) = some leaf →
      1 ≤ panes.leafMinimum leaf → OneSource panes (.stack tabs)
  | split {axis : SplitAxis} {children : List (ℚ × TileTree)} : children ≠ [] →
      (∀ child ∈ children, OneSource panes child.2) →
      (axis = .row → panes.sourceCount children ≤ 1) → OneSource panes (.split axis children)

theorem one_le_sum {branches : List (ℚ × TileTree)} (filled : branches ≠ [])
    (each : ∀ child ∈ branches, 1 ≤ panes.minimumWidth child.2) :
    1 ≤ (branches.map fun child => panes.minimumWidth child.2).sum := by
  obtain ⟨child, member⟩ := List.exists_mem_of_ne_nil branches filled
  refine (each child member).trans (List.single_le_sum ?_ _ (List.mem_map_of_mem member))
  refine List.forall_mem_map.mpr ?_
  intro other otherMember
  exact zero_le_one.trans (each other otherMember)

theorem one_le_minimumWidth {tree : TileTree} (simple : OneSource panes tree) :
    1 ≤ panes.minimumWidth tree := by
  induction simple with
  | stack found wide =>
    rw [minimumWidth_of_leaf found]
    exact wide
  | @split axis children filled _ _ ih =>
    cases axis with
    | row =>
      have total := one_le_sum filled ih
      have more := dividers_nonneg children.length
      rw [minimumWidth_row]
      linarith
    | column =>
      obtain ⟨child, member⟩ := List.exists_mem_of_ne_nil children filled
      rw [minimumWidth_column]
      exact (ih child member).trans
        ((foldl_max_le (le_refl _)).2 _ (List.mem_map_of_mem member))

theorem rowRoom_of_oneSource (simple : OneSource panes (.split .row children))
    (fits : panes.minimumWidth (.split .row children) ≤ width) : RowRoom panes children width := by
  cases simple with
  | split filled each single =>
    have wide : ∀ child ∈ children, 1 ≤ panes.minimumWidth child.2 := fun child member =>
      one_le_minimumWidth (each child member)
    have total := one_le_sum filled wide
    have parts := sum_minimums panes children
    rw [minimumWidth_row] at fits
    refine ⟨by linarith, ?_⟩
    rcases Nat.le_one_iff_eq_zero_or_eq_one.mp (single rfl) with none_ | one
    · -- No source: the sides are all there is.
      have sourceless : ∀ child ∈ children, ¬ panes.hasSource child.2 = true := by
        simpa [sourceCount] using none_
      have unwished : panes.wished (width - dividers children.length) children = 0 := by
        rw [wished, List.filter_eq_nil_iff.mpr, Allotment.total_nil]
        refine List.forall_mem_map.mpr ?_
        exact sourceless
      rw [List.filter_eq_nil_iff.mpr sourceless, List.map_nil, List.sum_nil, zero_add] at parts
      exact .inr (by linarith)
    · have filledSources : (children.filter fun child => panes.hasSource child.2) ≠ [] := by
        intro empty
        rw [sourceCount, List.countP_eq_length_filter, empty] at one
        cases one
      have pixel := one_le_sum filledSources fun child member =>
        wide child (List.mem_filter.mp member).1
      exact .inl ⟨one, by linarith⟩

theorem OneSource.branch {axis : SplitAxis} {branch : ℚ × TileTree}
    (simple : OneSource panes (.split axis children)) (member : branch ∈ children) :
    OneSource panes branch.2 := by
  cases simple with
  | split filled each single => exact each branch member

theorem roomy_of_oneSource {tree : TileTree} {frame : ℚ} (simple : OneSource panes tree)
    (fits : panes.minimumWidth tree ≤ frame) : Roomy panes tree frame := by
  intro path children width visits
  obtain ⟨row, narrow⟩ := fits_of_visits (fun tree _ => OneSource panes tree)
    (fun children width simple fits => rowRoom_of_oneSource simple fits)
    (fun axis children width index branch own simple at_ _ =>
      simple.branch (List.mem_of_getElem? at_)) visits simple fits
  exact rowRoom_of_oneSource row narrow

end Panes

end KnotEditor.Desktop.Collapse
