import KnotEditor.Desktop.Collapse
import Mathlib.Tactic.Positivity

/-! The widths that a constrained row gives its children. -/

namespace KnotEditor.Desktop.Collapse

namespace Panes

variable {panes : Panes}

theorem hasSource_stack_of_leaf {tabs : List TileId} {leaf : Leaf}
    (found : panes.leaf (.stack tabs) = some leaf) (source : leaf.kind = .source) :
    panes.hasSource (.stack tabs) = true := by
  cases tabs with
  | nil => cases found
  | cons first rest =>
    have anchored := List.find?_some found
    have member := List.mem_of_find?_eq_some found
    refine List.any_eq_true.mpr ⟨first, List.mem_cons_self, ?_⟩
    refine List.any_eq_true.mpr ⟨leaf, member, ?_⟩
    simp only [source, Bool.and_eq_true, anchored, BEq.rfl, and_self]

theorem leafMinimum_nonneg (rail : 0 ≤ panes.rail) (minimum : 0 ≤ panes.minimum) {leaf : Leaf}
    (side : leaf.kind ≠ .source) : 0 ≤ panes.leafMinimum leaf := by
  rw [leafMinimum, if_neg side]
  split
  · exact rail
  · exact minimum

theorem dividers_nonneg (count : Nat) : 0 ≤ dividers count := Nat.cast_nonneg _

theorem foldl_max_nonneg {widths : List ℚ} {start : ℚ} (nonneg : 0 ≤ start) :
    0 ≤ widths.foldl max start := by
  induction widths generalizing start with
  | nil => exact nonneg
  | cons width widths ih => exact ih (nonneg.trans (le_max_left _ _))

theorem allTiles_eq (children : List (ℚ × TileTree)) :
    TileTree.allTiles children = children.flatMap fun child => child.2.tiles := by
  induction children with
  | nil => rfl
  | cons child rest ih => rw [TileTree.allTiles, ih, List.flatMap_cons]

theorem hasSource_split {axis : SplitAxis} {children : List (ℚ × TileTree)} :
    panes.hasSource (.split axis children) =
      children.any fun child => panes.hasSource child.2 := by
  rw [hasSource, TileTree.tiles, allTiles_eq, List.any_flatMap]
  rfl

theorem widthsBy_eq (leafWidth : Leaf → ℚ) (children : List (ℚ × TileTree)) :
    panes.widthsBy leafWidth children =
      children.map fun child => panes.widthBy leafWidth child.2 := by
  induction children with
  | nil => rfl
  | cons child rest ih => rw [widthsBy, ih, List.map_cons]

theorem minimumWidth_row (children : List (ℚ × TileTree)) :
    panes.minimumWidth (.split .row children) =
      (children.map fun child => panes.minimumWidth child.2).sum + dividers children.length := by
  rw [minimumWidth, widthBy, widthsBy_eq]
  rfl

theorem minimumWidth_column (children : List (ℚ × TileTree)) :
    panes.minimumWidth (.split .column children) =
      (children.map fun child => panes.minimumWidth child.2).foldl max 0 := by
  rw [minimumWidth, widthBy, widthsBy_eq]
  rfl

theorem minimumWidth_nonneg (rail : 0 ≤ panes.rail) (minimum : 0 ≤ panes.minimum) {tree : TileTree}
    (none_ : panes.hasSource tree = false) : 0 ≤ panes.minimumWidth tree := by
  induction tree using TileTree.induct with
  | stack tabs =>
    rw [minimumWidth, widthBy]
    cases found : panes.leaf (.stack tabs) with
    | none => exact le_refl _
    | some leaf =>
      refine leafMinimum_nonneg rail minimum ?_
      intro source
      rw [hasSource_stack_of_leaf found source] at none_
      cases none_
  | split axis children ih =>
    rw [hasSource_split, List.any_eq_false] at none_
    cases axis with
    | row =>
      rw [minimumWidth_row]
      refine add_nonneg (List.sum_nonneg ?_) (dividers_nonneg _)
      refine List.forall_mem_map.mpr ?_
      intro child member
      exact ih child member (Bool.not_eq_true _ ▸ none_ child member)
    | column =>
      rw [minimumWidth_column]
      exact foldl_max_nonneg (le_refl _)

structure Keeps (panes : Panes) (holds : ℚ × TileTree → ℚ → Prop) : Prop where
  narrows : ∀ child width reduction, holds child width → panes.hasSource child.2 = false →
    0 ≤ reduction → reduction ≤ max (width - panes.minimumWidth child.2) 0 →
    holds child (width - reduction)
  spreads : ∀ child width part, holds child width →
    panes.isReading child.2 = true ∨ panes.hasSource child.2 = true → 0 ≤ part →
    holds child (width + part)

variable {holds : ℚ × TileTree → ℚ → Prop} {assigned : Assigned}

theorem Keeps.narrowed (keeps : Keeps panes holds) (excess : ℚ)
    (each : ∀ share ∈ assigned, holds share.1 share.2) :
    ∀ share ∈ (panes.narrow excess assigned).2, holds share.1 share.2 := by
  refine Allotment.narrow_keeps ?_ each
  intro child width reduction has gives nonneg above
  exact keeps.narrows child width reduction has (by simpa using gives) nonneg above

theorem Keeps.spreaded (keeps : Keeps panes holds) (available : ℚ)
    (each : ∀ share ∈ assigned, holds share.1 share.2) :
    ∀ share ∈ panes.spread available assigned, holds share.1 share.2 := by
  fun_cases spread panes available assigned
  case case1 spare positive reading =>
    refine Allotment.spread_keeps (le_of_lt positive) ?_ each
    exact fun child width part has chosen => keeps.spreads child width part has (.inl chosen)
  case case2 spare positive _ source =>
    refine Allotment.spread_keeps (le_of_lt positive) ?_ each
    exact fun child width part has chosen => keeps.spreads child width part has (.inr chosen)
  all_goals exact each

theorem start_items (available : ℚ) (children : List (ℚ × TileTree)) :
    (panes.start available children).map Prod.fst = children := by
  rw [start, List.map_map]
  exact List.map_id _

theorem shrink_items (excess : ℚ) (assigned : Assigned) :
    (panes.shrink excess assigned).map Prod.fst = assigned.map Prod.fst := by
  rw [shrink]
  split
  · rw [List.map_map]
    refine List.map_congr_left ?_
    intro share _
    simp only [Function.comp]
    split
    · rfl
    · rfl
  · rfl

theorem spread_items (available : ℚ) (assigned : Assigned) :
    (panes.spread available assigned).map Prod.fst = assigned.map Prod.fst := by
  fun_cases spread panes available assigned
  case case1 => exact Allotment.spread_items
  case case2 => exact Allotment.spread_items
  all_goals rfl

theorem assign_items (panes : Panes) (width : ℚ) (children : List (ℚ × TileTree)) :
    (panes.assign width children).map Prod.fst = children := by
  rw [assign, spread_items, shrink_items, narrow, Allotment.narrow_items, start_items]

theorem Keeps.all {width : ℚ} {children : List (ℚ × TileTree)} (keeps : Keeps panes holds)
    (starts : ∀ share ∈ panes.start (availableWidth width children.length) children,
      holds share.1 share.2)
    (shrinks : ∀ excess assigned, (∀ share ∈ assigned, holds share.1 share.2) →
      ∀ share ∈ panes.shrink excess assigned, holds share.1 share.2) :
    ∀ share ∈ panes.assign width children, holds share.1 share.2 :=
  keeps.spreaded _ (shrinks _ _ (keeps.narrowed _ starts))

theorem availableWidth_pos (width : ℚ) (count : Nat) : 0 < availableWidth width count :=
  zero_lt_one.trans_le (le_max_right _ _)

theorem epsilon_pos : 0 < epsilon := by
  rw [epsilon]
  norm_num

theorem canonicalWidth_nonneg {available : ℚ} (positive : 0 ≤ available) (total fraction : ℚ) :
    0 ≤ canonicalWidth available total fraction :=
  div_nonneg (mul_nonneg positive (le_max_right _ _))
    (epsilon_pos.le.trans (le_max_right _ _))

theorem assign_nonneg (rail : 0 ≤ panes.rail) (minimum : 0 ≤ panes.minimum) (width : ℚ)
    (children : List (ℚ × TileTree)) : ∀ share ∈ panes.assign width children, 0 ≤ share.2 := by
  refine (⟨?_, ?_⟩ : Keeps panes fun _ width => 0 ≤ width).all ?_ ?_
  · intro child width reduction nonneg none_ _ above
    have floor := minimumWidth_nonneg rail minimum none_
    rcases max_choice (width - panes.minimumWidth child.2) 0 with high | low
    · rw [high] at above
      linarith
    · rw [low] at above
      linarith
  · intro child width part nonneg _ more
    exact add_nonneg nonneg more
  · intro share member
    obtain ⟨child, _, rfl⟩ := List.mem_map.mp member
    simp only
    split
    · exact rail
    · exact (canonicalWidth_nonneg (availableWidth_pos _ _).le _ _).trans (le_max_left _ _)
  · intro excess assigned each share member
    rw [shrink] at member
    split at member
    · obtain ⟨before, earlier, rfl⟩ := List.mem_map.mp member
      split
      · exact zero_le_one.trans (le_max_right _ _)
      · exact each before earlier
    · exact each share member

theorem minimumWidth_of_leaf {tree : TileTree} {leaf : Leaf} (found : panes.leaf tree = some leaf) :
    panes.minimumWidth tree = panes.leafMinimum leaf := by
  cases tree with
  | stack tabs => rw [minimumWidth, widthBy, found, Option.map_some, Option.getD_some]
  | split axis children => cases found

theorem exists_leaf_of_isRail {tree : TileTree} (isRail : panes.isRail tree = true) :
    ∃ leaf, panes.leaf tree = some leaf ∧ panes.folded leaf = true := by
  rw [Panes.isRail] at isRail
  cases found : panes.leaf tree with
  | none =>
    rw [found] at isRail
    cases isRail
  | some leaf =>
    rw [found] at isRail
    exact ⟨leaf, rfl, isRail⟩

theorem minimumWidth_of_isRail {tree : TileTree} (isRail : panes.isRail tree = true) :
    panes.minimumWidth tree = panes.rail := by
  obtain ⟨leaf, found, folded⟩ := exists_leaf_of_isRail isRail
  rw [minimumWidth_of_leaf found, leafMinimum, if_pos folded]

theorem isReading_of_isRail {tree : TileTree} (isRail : panes.isRail tree = true) :
    panes.isReading tree = false := by
  obtain ⟨leaf, found, folded⟩ := exists_leaf_of_isRail isRail
  have collapsed : leaf.collapsed = true := (Bool.and_eq_true_iff.mp folded).1
  simp [isReading, found, collapsed]

theorem assign_rail (width : ℚ) (children : List (ℚ × TileTree)) :
    ∀ share ∈ panes.assign width children, panes.isRail share.1.2 = true →
      panes.hasSource share.1.2 = false → share.2 = panes.rail := by
  refine (⟨?_, ?_⟩ : Keeps panes fun child width => panes.isRail child.2 = true →
    panes.hasSource child.2 = false → width = panes.rail).all ?_ ?_
  · intro child width reduction exact_ _ nonneg above isRail none_
    rw [exact_ isRail none_, minimumWidth_of_isRail isRail, sub_self, max_self] at above
    rw [exact_ isRail none_, le_antisymm above nonneg, sub_zero]
  · intro child width part _ chosen _ isRail none_
    rcases chosen with reading | source
    · rw [isReading_of_isRail isRail] at reading
      cases reading
    · rw [none_] at source
      cases source
  · intro share member isRail _
    obtain ⟨child, _, rfl⟩ := List.mem_map.mp member
    exact if_pos isRail
  · intro excess assigned each share member
    rw [shrink] at member
    split at member
    · obtain ⟨before, earlier, rfl⟩ := List.mem_map.mp member
      split
      next source =>
        intro _ none_
        rw [source] at none_
        cases none_
      next => exact each before earlier
    · exact each share member

structure FractionsSound (panes : Panes) (assigned : Assigned) : Prop where
  nonneg : ∀ fraction ∈ panes.fractions assigned, 0 ≤ fraction
  rails : ∀ pair ∈ assigned.zip (panes.fractions assigned),
    panes.isRail pair.1.1.2 = true → pair.2 = 0
  sum : (∃ share ∈ assigned, panes.isRail share.1.2 = false ∧ 1 ≤ share.2) →
    (panes.fractions assigned).sum = 1

theorem sum_fractions (assigned : Assigned) (sum : ℚ) :
    (assigned.map fun child => if panes.isRail child.1.2 then 0 else child.2 / sum).sum =
      Allotment.total (assigned.filter fun child => !panes.isRail child.1.2) / sum := by
  induction assigned with
  | nil => simp
  | cons share rest ih =>
    rw [List.map_cons, List.sum_cons, ih, List.filter_cons]
    by_cases rail : panes.isRail share.1.2 = true
    · simp [rail]
    · rw [Bool.not_eq_true] at rail
      simp only [rail, Bool.false_eq_true, if_false, Bool.not_false, if_true]
      rw [Allotment.total_cons, add_div]

theorem zip_map_self {α β : Type} {change : α → β} {items : List α} {pair : α × β}
    (member : pair ∈ items.zip (items.map change)) : pair.2 = change pair.1 := by
  induction items with
  | nil => cases member
  | cons item items ih =>
    rw [List.map_cons, List.zip_cons_cons] at member
    rcases List.mem_cons.mp member with rfl | later
    · rfl
    · exact ih later

theorem fractionsSound {assigned : Assigned} (nonneg : ∀ share ∈ assigned, 0 ≤ share.2) :
    FractionsSound panes assigned := by
  have positive : (0 : ℚ) <
      max (Allotment.total (assigned.filter fun child => !panes.isRail child.1.2)) 1 :=
    zero_lt_one.trans_le (le_max_right _ _)
  refine ⟨?_, ?_, ?_⟩
  · intro fraction member
    obtain ⟨share, earlier, rfl⟩ := List.mem_map.mp member
    split
    · exact le_refl _
    · exact div_nonneg (nonneg share earlier) positive.le
  · intro pair member isRail
    rw [zip_map_self member, if_pos isRail]
  · rintro ⟨share, member, expanded, wide⟩
    have counted : share ∈ assigned.filter fun child => !panes.isRail child.1.2 :=
      List.mem_filter.mpr ⟨member, by rw [expanded]; rfl⟩
    have whole : 1 ≤ Allotment.total (assigned.filter fun child => !panes.isRail child.1.2) := by
      refine wide.trans (List.single_le_sum ?_ share.2 (List.mem_map_of_mem counted))
      refine List.forall_mem_map.mpr ?_
      intro other filtered
      exact nonneg other (List.mem_filter.mp filtered).1
    rw [fractions, sum_fractions, max_eq_left whole]
    exact div_self (zero_lt_one.trans_le whole).ne'

end Panes

end KnotEditor.Desktop.Collapse
