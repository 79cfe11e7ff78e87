import Mathlib.Data.Nat.Find
import Mathlib.Logic.Relation
import Mathlib.Order.Lattice

/-! Positions with a level, nested in the nearest position before them of a smaller level. -/

namespace Nesting

variable {Level : Type} [LinearOrder Level] (level : Nat → Level)

/-- `child` stands in what `parent` opens: no level since then has been as small. -/
def Within (parent child : Nat) : Prop :=
  parent ≤ child ∧ ∀ position, parent < position → position ≤ child → level parent < level position

/-- The nearest position before `child` of a smaller level. -/
def IsParent (child parent : Nat) : Prop :=
  parent < child ∧ level parent < level child ∧
    ∀ position, parent < position → position < child → level child ≤ level position

/-- The positions still open at `position`, the last one first. -/
def openBefore : Nat → List Nat
  | 0 => []
  | position + 1 =>
    position :: (openBefore position).dropWhile fun earlier =>
      decide (level position ≤ level earlier)

variable {level} {child parent : Nat}

theorem Within.refl (position : Nat) : Within level position position := by
  refine ⟨Nat.le_refl _, ?_⟩
  intro later before after
  omega

theorem Within.le (within : Within level parent child) : level parent ≤ level child := by
  rcases Nat.eq_or_lt_of_le within.1 with same | before
  · rw [same]
  · exact le_of_lt (within.2 child before (Nat.le_refl _))

theorem Within.shorter {middle : Nat} (within : Within level parent child)
    (first : parent ≤ middle) (last : middle ≤ child) : Within level parent middle :=
  ⟨first, fun position after before => within.2 position after (Nat.le_trans before last)⟩

theorem IsParent.unique {other : Nat} (first : IsParent level child parent)
    (second : IsParent level child other) : parent = other := by
  rcases Nat.lt_trichotomy parent other with before | same | after
  · exact absurd (first.2.2 other before second.1) (not_le_of_gt second.2.1)
  · exact same
  · exact absurd (second.2.2 parent after first.1) (not_le_of_gt first.2.1)

theorem Within.descend {holder : Nat} (within : Within level holder parent)
    (nested : IsParent level child parent) : Within level holder child := by
  obtain ⟨before, smaller, between⟩ := nested
  refine ⟨by have := within.1; omega, ?_⟩
  intro position after last
  rcases Nat.lt_or_ge parent position with later | earlier
  · rcases Nat.eq_or_lt_of_le last with rfl | inside
    · exact lt_of_le_of_lt within.le smaller
    · exact lt_of_lt_of_le (lt_of_le_of_lt within.le smaller) (between position later inside)
  · exact within.2 position after earlier

theorem exists_parent {position : Nat} (before : position < child)
    (smaller : level position < level child) :
    ∃ nearest, position ≤ nearest ∧ IsParent level child nearest := by
  classical
  let candidate : Nat → Prop := fun position => position < child ∧ level position < level child
  have first : candidate position := ⟨before, smaller⟩
  have found := @Nat.findGreatest_spec position candidate _ child (Nat.le_of_lt before) first
  have reached := @Nat.le_findGreatest position candidate _ child (Nat.le_of_lt before) first
  refine ⟨Nat.findGreatest candidate child, reached, found.1, found.2, ?_⟩
  intro later after earlier
  refine le_of_not_gt fun small => ?_
  exact Nat.findGreatest_is_greatest after (Nat.le_of_lt earlier) ⟨earlier, small⟩

theorem within_iff_reaches :
    Within level parent child ↔ Relation.ReflTransGen (IsParent level) child parent := by
  constructor
  · intro within
    induction child using Nat.strong_induction_on with
    | _ child ih =>
      rcases Nat.eq_or_lt_of_le within.1 with rfl | before
      · exact .refl
      · obtain ⟨middle, reached, nested⟩ :=
          exists_parent before (within.2 child before (Nat.le_refl _))
        have rest := within.shorter reached (Nat.le_of_lt nested.1)
        exact .head nested (ih middle nested.1 rest)
  · intro reaches
    induction reaches using Relation.ReflTransGen.head_induction_on with
    | refl => exact .refl _
    | head nested _ ih => exact ih.descend nested

section stack

structure IsStack (level : Nat → Level) (bound : Nat) (stack : List Nat) : Prop where
  falling : stack.Pairwise fun above below => below < above ∧ level below < level above
  mem_iff : ∀ position, position ∈ stack ↔ position < bound ∧
    ∀ later, position < later → later < bound → level position < level later

theorem IsStack.mem_dropWhile_iff {bound : Nat} {stack : List Nat}
    (is : IsStack level bound stack) (position : Nat) :
    position ∈ stack.dropWhile (fun earlier => decide (level bound ≤ level earlier)) ↔
      position ∈ stack ∧ level position < level bound := by
  have falling := is.falling
  clear is
  induction stack with
  | nil => simp
  | cons top rest ih =>
    obtain ⟨above, falling⟩ := List.pairwise_cons.mp falling
    by_cases high : level bound ≤ level top
    · rw [List.dropWhile_cons_of_pos (by simpa using high)]
      refine (ih falling).trans ?_
      rw [List.mem_cons]
      constructor
      · rintro ⟨inside, small⟩
        exact ⟨.inr inside, small⟩
      · rintro ⟨rfl | inside, small⟩
        · exact absurd high (not_le_of_gt small)
        · exact ⟨inside, small⟩
    · have low := lt_of_not_ge high
      rw [List.dropWhile_cons_of_neg (by simpa using low)]
      refine ⟨fun inside => ⟨inside, ?_⟩, And.left⟩
      rcases List.mem_cons.mp inside with rfl | later
      · exact low
      · exact lt_trans (above position later).2 low

theorem isStack_openBefore (bound : Nat) : IsStack level bound (openBefore level bound) := by
  induction bound with
  | zero => exact ⟨.nil, by simp [openBefore]⟩
  | succ bound ih =>
    refine ⟨List.pairwise_cons.mpr ⟨?_, ih.falling.sublist (List.dropWhile_sublist _)⟩, ?_⟩
    · intro position inside
      obtain ⟨member, small⟩ := (ih.mem_dropWhile_iff position).mp inside
      exact ⟨((ih.mem_iff position).mp member).1, small⟩
    · intro position
      rw [openBefore, List.mem_cons, ih.mem_dropWhile_iff, ih.mem_iff]
      constructor
      · rintro (rfl | ⟨⟨before, since⟩, small⟩)
        · exact ⟨Nat.lt_succ_self _, by omega⟩
        · refine ⟨Nat.lt_succ_of_lt before, ?_⟩
          intro later after last
          rcases Nat.eq_or_lt_of_le (Nat.le_of_lt_succ last) with rfl | earlier
          · exact small
          · exact since later after earlier
      · rintro ⟨before, since⟩
        rcases Nat.eq_or_lt_of_le (Nat.le_of_lt_succ before) with same | earlier
        · exact .inl same
        · refine .inr ⟨⟨earlier, ?_⟩, since bound earlier (Nat.lt_succ_self _)⟩
          intro later after last
          exact since later after (Nat.lt_succ_of_lt last)

theorem head_openBefore_eq_some_iff :
    ((openBefore level child).dropWhile fun earlier =>
      decide (level child ≤ level earlier)).head? = some parent ↔ IsParent level child parent := by
  have is : IsStack level child _ := isStack_openBefore child
  have member := is.mem_dropWhile_iff
  have falling := is.falling.sublist
    (List.dropWhile_sublist fun earlier => decide (level child ≤ level earlier))
  have nearest : ∀ position, IsParent level child position → position ∈
      (openBefore level child).dropWhile fun earlier => decide (level child ≤ level earlier) := by
    rintro position ⟨before, smaller, between⟩
    rw [member, is.mem_iff]
    exact ⟨⟨before, fun later after last => lt_of_lt_of_le smaller (between later after last)⟩,
      smaller⟩
  revert member falling nearest
  generalize (openBefore level child).dropWhile (fun earlier =>
    decide (level child ≤ level earlier)) = left
  intro member falling nearest
  cases left with
  | nil =>
    refine ⟨by simp, fun nested => ?_⟩
    exact absurd (nearest parent nested) List.not_mem_nil
  | cons top rest =>
    obtain ⟨inside, small⟩ := (member top).mp List.mem_cons_self
    obtain ⟨found, reached, nested⟩ := exists_parent ((is.mem_iff top).mp inside).1 small
    have same : found = top := by
      rcases List.mem_cons.mp (nearest found nested) with same | below
      · exact same
      · have lower := (List.pairwise_cons.mp falling).1 found below
        omega
    rw [List.head?_cons, Option.some_inj, ← same]
    constructor
    · rintro rfl
      exact nested
    · exact nested.unique

end stack

end Nesting
