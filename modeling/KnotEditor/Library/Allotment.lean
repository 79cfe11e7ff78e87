import Mathlib.Algebra.BigOperators.Group.List.Basic
import Mathlib.Algebra.Order.BigOperators.Group.List
import Mathlib.Algebra.Order.Field.Basic
import Mathlib.Tactic.Linarith
import Mathlib.Tactic.Ring

/-! Shares of one length: narrowing them greedily towards their floors, and spreading a surplus
over some of them evenly. -/

namespace Allotment

variable {α β : Type} [Field α]

def total (shares : List (β × α)) : α := (shares.map Prod.snd).sum

@[simp]
theorem total_nil : total ([] : List (β × α)) = 0 := rfl

@[simp]
theorem total_cons (share : β × α) (shares : List (β × α)) :
    total (share :: shares) = share.2 + total shares := List.sum_cons

theorem total_filter_add (picked : β × α → Bool) (shares : List (β × α)) :
    total (shares.filter picked) + total (shares.filter fun share => !picked share) =
      total shares := by
  induction shares with
  | nil => simp
  | cons share shares ih =>
    by_cases kept : picked share = true
    · simp only [List.filter_cons, kept, if_true, Bool.not_true, Bool.false_eq_true, if_false,
        total_cons, ← ih]
      ring
    · rw [Bool.not_eq_true] at kept
      simp only [List.filter_cons, kept, Bool.false_eq_true, if_false, Bool.not_false, if_true,
        total_cons, ← ih]
      ring

theorem total_map_picked (picked : β × α → Bool) (change : β × α → β × α) (shares : List (β × α)) :
    total (shares.map fun share => if picked share then change share else share) =
      total ((shares.filter picked).map change) +
        total (shares.filter fun share => !picked share) := by
  induction shares with
  | nil => simp
  | cons share shares ih =>
    by_cases kept : picked share = true
    · simp only [List.map_cons, List.filter_cons, kept, if_true, Bool.not_true,
        Bool.false_eq_true, if_false, total_cons, ih]
      ring
    · rw [Bool.not_eq_true] at kept
      simp only [List.map_cons, List.filter_cons, kept, Bool.false_eq_true, if_false,
        Bool.not_false, if_true, total_cons, ih]
      ring

def spread (chosen : β → Bool) (surplus : α) (shares : List (β × α)) : List (β × α) :=
  let count := shares.countP fun share => chosen share.1
  shares.map fun share => if chosen share.1 then (share.1, share.2 + surplus / count) else share

section

variable {chosen : β → Bool} {surplus : α} {shares : List (β × α)}

theorem spread_items : (spread chosen surplus shares).map Prod.fst = shares.map Prod.fst := by
  rw [spread, List.map_map]
  refine List.map_congr_left ?_
  intro share _
  simp only [Function.comp]
  split
  · rfl
  · rfl

theorem total_map_add (chosen : β → Bool) (part : α) (shares : List (β × α)) :
    total (shares.map fun share => if chosen share.1 then (share.1, share.2 + part) else share) =
      total shares + (shares.countP fun share => chosen share.1) * part := by
  induction shares with
  | nil => simp
  | cons share shares ih =>
    obtain ⟨item, share⟩ := share
    rw [List.map_cons]
    by_cases picked : chosen item = true
    · simp only [picked, if_true, total_cons, ih, List.countP_cons, Nat.cast_add, Nat.cast_one]
      ring
    · rw [Bool.not_eq_true] at picked
      simp only [picked, Bool.false_eq_true, if_false, total_cons, ih, List.countP_cons,
        Nat.add_zero]
      ring

end

variable [LinearOrder α]

/-- Take the excess from the shares that may give way, one after the other, down to their floors.
What is left of the excess comes with the shares. -/
def narrow (may : β → Bool) (floor : β → α) : α → List (β × α) → α × List (β × α)
  | excess, [] => (excess, [])
  | excess, (item, share) :: rest =>
    let reduction := if may item then min (max excess 0) (max (share - floor item) 0) else 0
    let narrowed := narrow may floor (excess - reduction) rest
    (narrowed.1, (item, share - reduction) :: narrowed.2)

section

variable {may : β → Bool} {floor : β → α}

theorem narrow_items (excess : α) (shares : List (β × α)) :
    (narrow may floor excess shares).2.map Prod.fst = shares.map Prod.fst := by
  induction shares generalizing excess with
  | nil => rfl
  | cons share shares ih =>
    obtain ⟨item, share⟩ := share
    simp only [narrow, List.map_cons, ih]

theorem narrow_total (excess : α) (shares : List (β × α)) :
    total (narrow may floor excess shares).2 =
      total shares - (excess - (narrow may floor excess shares).1) := by
  induction shares generalizing excess with
  | nil => simp [narrow]
  | cons share shares ih =>
    obtain ⟨item, share⟩ := share
    simp only [narrow, total_cons, ih]
    ring

theorem narrow_others (may : β → Bool) (floor : β → α) (excess : α) (shares : List (β × α)) :
    ((narrow may floor excess shares).2.filter fun share => !may share.1) =
      shares.filter fun share => !may share.1 := by
  induction shares generalizing excess with
  | nil => rfl
  | cons share shares ih =>
    obtain ⟨item, share⟩ := share
    by_cases gives : may item = true
    · simp only [narrow, List.filter_cons, gives, Bool.not_true, Bool.false_eq_true, if_false, ih]
    · rw [Bool.not_eq_true] at gives
      simp only [narrow, List.filter_cons, gives, Bool.not_false, if_true, Bool.false_eq_true,
        if_false, sub_zero, ih]

theorem narrow_keeps {holds : β → α → Prop}
    (survives : ∀ item share reduction, holds item share → may item = true → 0 ≤ reduction →
      reduction ≤ max (share - floor item) 0 → holds item (share - reduction))
    {excess : α} {shares : List (β × α)} (each : ∀ share ∈ shares, holds share.1 share.2) :
    ∀ share ∈ (narrow may floor excess shares).2, holds share.1 share.2 := by
  induction shares generalizing excess with
  | nil => exact List.forall_mem_nil _
  | cons share shares ih =>
    obtain ⟨item, share⟩ := share
    obtain ⟨first, rest⟩ := List.forall_mem_cons.mp each
    simp only [narrow]
    refine List.forall_mem_cons.mpr ⟨?_, ih rest⟩
    by_cases gives : may item = true
    · simp only [gives, if_true]
      exact survives item share _ first gives (le_min (le_max_right _ _) (le_max_right _ _))
        (min_le_right _ _)
    · simpa [gives] using first

variable [IsStrictOrderedRing α]

theorem narrow_le (excess : α) (shares : List (β × α)) :
    (narrow may floor excess shares).1 ≤ excess := by
  induction shares generalizing excess with
  | nil => exact le_refl _
  | cons share shares ih =>
    obtain ⟨item, share⟩ := share
    simp only [narrow]
    refine (ih _).trans (sub_le_self _ ?_)
    split
    · exact le_min (le_max_right _ _) (le_max_right _ _)
    · exact le_refl _

theorem narrow_exhausted {excess : α} {shares : List (β × α)}
    (left : 0 < (narrow may floor excess shares).1) :
    ∀ share ∈ (narrow may floor excess shares).2, may share.1 = true →
      share.2 ≤ floor share.1 := by
  induction shares generalizing excess with
  | nil => exact List.forall_mem_nil _
  | cons share shares ih =>
    obtain ⟨item, share⟩ := share
    simp only [narrow] at left ⊢
    refine List.forall_mem_cons.mpr ⟨?_, ih left⟩
    intro gives
    have exceeding := left.trans_le (narrow_le _ shares)
    simp only [gives, if_true] at exceeding ⊢
    rcases min_choice (max excess 0) (max (share - floor item) 0) with whole | part
    · rw [whole] at exceeding
      have covered := le_max_left excess 0
      linarith
    · rw [part]
      have above := le_max_left (share - floor item) 0
      linarith

end

theorem total_le_sum [IsStrictOrderedRing α] (bound : β → α) {shares : List (β × α)}
    (each : ∀ share ∈ shares, share.2 ≤ bound share.1) :
    total shares ≤ ((shares.map Prod.fst).map bound).sum := by
  rw [total, List.map_map]
  exact List.sum_le_sum each

section

variable [IsStrictOrderedRing α] {chosen : β → Bool} {surplus : α} {shares : List (β × α)}

theorem spread_total (some_ : 0 < shares.countP fun share => chosen share.1) :
    total (spread chosen surplus shares) = total shares + surplus := by
  have count : ((shares.countP fun share => chosen share.1 : Nat) : α) ≠ 0 := by
    exact_mod_cast Nat.pos_iff_ne_zero.mp some_
  rw [spread, total_map_add, mul_div_cancel₀ _ count]

theorem spread_keeps {holds : β → α → Prop} (spare : 0 ≤ surplus)
    (survives : ∀ item share part, holds item share → chosen item = true → 0 ≤ part →
      holds item (share + part))
    (each : ∀ share ∈ shares, holds share.1 share.2) :
    ∀ share ∈ spread chosen surplus shares, holds share.1 share.2 := by
  intro share member
  obtain ⟨before, earlier, rfl⟩ := List.mem_map.mp member
  split
  next picked =>
    exact survives _ _ _ (each before earlier) picked (div_nonneg spare (Nat.cast_nonneg _))
  next => exact each before earlier

end

end Allotment
