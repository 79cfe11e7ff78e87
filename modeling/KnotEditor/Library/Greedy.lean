import Mathlib.Data.List.Induction

/-! Going through a list once and keeping what nothing kept before refuses. -/

namespace Greedy

variable {α : Type} (refuses : α → α → Bool)

def keep (kept : List α) (item : α) : List α :=
  if kept.any fun earlier => refuses earlier item then kept else kept ++ [item]

def select (items : List α) : List α := items.foldl (keep refuses) []

theorem select_concat (items : List α) (item : α) :
    select refuses (items ++ [item]) = keep refuses (select refuses items) item := by
  rw [select, List.foldl_append]
  rfl

theorem select_sublist (items : List α) : (select refuses items).Sublist items := by
  induction items using List.reverseRecOn with
  | nil => exact List.Sublist.refl _
  | append_singleton items item ih =>
    rw [select_concat, keep]
    split
    · exact ih.trans (List.sublist_append_left ..)
    · exact ih.append (List.Sublist.refl _)

theorem select_pairwise (items : List α) :
    (select refuses items).Pairwise fun earlier later => refuses earlier later = false := by
  induction items using List.reverseRecOn with
  | nil => exact List.Pairwise.nil
  | append_singleton items item ih =>
    rw [select_concat, keep]
    split
    · exact ih
    next accepted =>
      refine List.pairwise_append.mpr ⟨ih, List.pairwise_singleton .., ?_⟩
      intro earlier member later same
      rw [List.mem_singleton.mp same]
      by_contra refused
      exact accepted (List.any_eq_true.mpr ⟨earlier, member, by simpa using refused⟩)

theorem mem_select_or_refused {items : List α} {item : α} (member : item ∈ items) :
    item ∈ select refuses items ∨ ∃ kept ∈ select refuses items, refuses kept item = true := by
  induction items using List.reverseRecOn with
  | nil => cases member
  | append_singleton items last ih =>
    have grows : ∀ kept ∈ select refuses items, kept ∈ select refuses (items ++ [last]) := by
      intro kept present
      rw [select_concat, keep]
      split
      · exact present
      · exact List.mem_append_left _ present
    rcases List.mem_append.mp member with earlier | same
    · rcases ih earlier with present | ⟨kept, present, refused⟩
      · exact Or.inl (grows item present)
      · exact Or.inr ⟨kept, grows kept present, refused⟩
    · cases List.mem_singleton.mp same
      by_cases refused : (select refuses items).any fun earlier => refuses earlier item
      · obtain ⟨kept, present, refused⟩ := List.any_eq_true.mp refused
        exact Or.inr ⟨kept, grows kept present, refused⟩
      · left
        rw [select_concat, keep, if_neg refused]
        exact List.mem_append_right _ (List.mem_singleton_self _)

end Greedy
