import Mathlib.Algebra.GroupWithZero.Nat
import Mathlib.Algebra.Order.BigOperators.Group.List
import Mathlib.Algebra.Order.Group.Nat
import Std.Data.ExtTreeMap

/-! Counts by key, and sums of counts that bound each other. -/

namespace Tallies

variable {α κ : Type} [Ord κ] [Std.TransOrd κ] [Std.LawfulEqOrd κ] [DecidableEq κ]

def tally (counts : Std.ExtTreeMap κ Nat) (key : κ) : Nat := counts[key]?.getD 0

def bump (counts : Std.ExtTreeMap κ Nat) (key : κ) : Std.ExtTreeMap κ Nat :=
  counts.insert key (tally counts key + 1)

omit [Std.LawfulEqOrd κ] [DecidableEq κ] in
@[simp] theorem tally_empty (key : κ) : tally (∅ : Std.ExtTreeMap κ Nat) key = 0 := by
  simp [tally]

theorem tally_bump (counts : Std.ExtTreeMap κ Nat) (key wanted : κ) :
    tally (bump counts key) wanted = tally counts wanted + if key = wanted then 1 else 0 := by
  rw [tally, bump, Std.ExtTreeMap.getElem?_insert]
  by_cases same : key = wanted
  · subst same
    simp
  · simp [same, tally]

theorem sum_indicator (wanted : α → Bool) (items : List α) :
    (items.map fun item => if wanted item then 1 else 0).sum = items.countP wanted := by
  induction items with
  | nil => rfl
  | cons item rest ih =>
    rw [List.map_cons, List.sum_cons, ih, List.countP_cons, Nat.add_comm]

theorem sum_guarded (wanted : α → Bool) (weight : α → Nat) (items : List α) :
    (items.map fun item => if wanted item then weight item else 0).sum =
      ((items.filter wanted).map weight).sum := by
  induction items with
  | nil => rfl
  | cons item rest ih =>
    rw [List.map_cons, List.sum_cons, ih, List.filter_cons]
    split
    · rw [List.map_cons, List.sum_cons]
    · rw [Nat.zero_add]

theorem sum_flatMap {β : Type} (items : List α) (parts : α → List β) (weight : β → Nat) :
    ((items.flatMap parts).map weight).sum =
      (items.map fun item => ((parts item).map weight).sum).sum := by
  induction items with
  | nil => rfl
  | cons item rest ih =>
    rw [List.flatMap_cons, List.map_append, List.sum_append, ih, List.map_cons, List.sum_cons]

theorem sum_eq_sum_iff {items : List α} {small large : α → Nat}
    (below : ∀ item ∈ items, small item ≤ large item) :
    (items.map small).sum = (items.map large).sum ↔ ∀ item ∈ items, small item = large item := by
  induction items with
  | nil => simp
  | cons item rest ih =>
    rw [List.forall_mem_cons] at below
    have bounded := List.sum_le_sum below.2
    rw [List.forall_mem_cons, ← ih below.2]
    simp only [List.map_cons, List.sum_cons]
    constructor
    · intro same
      constructor <;> omega
    · rintro ⟨first, later⟩
      omega

end Tallies
