import Mathlib.Data.List.Basic
import Std.Data.ExtTreeMap

/-! Indexes that one pass over a list builds: the positions of each key, and the position of the
item under a key that only one item has. -/

namespace PositionIndex

variable {α κ : Type} [DecidableEq κ] (key : α → κ)

theorem filterMap_positions (items all : List α) (start : Nat) (wanted : κ)
    (held : ∀ i : Nat, all[start + i]? = items[i]?) :
    ((items.zipIdx start).filter fun item => key item.1 = wanted).map (fun item => all[item.2]?) =
      (items.filter fun item => key item = wanted).map some := by
  induction items generalizing start with
  | nil => rfl
  | cons item rest ih =>
    have here : all[start]? = some item := by simpa using held 0
    have later := ih (start + 1) (by
      intro i
      have next := held (i + 1)
      rw [show start + 1 + i = start + (i + 1) by omega, next]
      rfl)
    rw [List.zipIdx_cons]
    by_cases same : key item = wanted
    · simp [same, here, later]
    · simp [same, later]

variable [Ord κ] [Std.TransOrd κ] [Std.LawfulEqOrd κ]

def note (index : Std.ExtTreeMap κ (List Nat)) (item : α × Nat) : Std.ExtTreeMap κ (List Nat) :=
  index.insert (key item.1) (index[key item.1]?.getD [] ++ [item.2])

def place (index : Std.ExtTreeMap κ Nat) (item : α × Nat) : Std.ExtTreeMap κ Nat :=
  index.insert (key item.1) item.2

theorem getElem?_note (index : Std.ExtTreeMap κ (List Nat)) (item : α × Nat) (wanted : κ) :
    (note key index item)[wanted]?.getD [] =
      index[wanted]?.getD [] ++ if key item.1 = wanted then [item.2] else [] := by
  rw [note, Std.ExtTreeMap.getElem?_insert]
  by_cases same : key item.1 = wanted
  · subst same
    simp
  · simp [same]

theorem getElem?_foldl_note (items : List (α × Nat)) (index : Std.ExtTreeMap κ (List Nat))
    (wanted : κ) :
    (items.foldl (note key) index)[wanted]?.getD [] =
      index[wanted]?.getD [] ++
        (items.filter fun item => key item.1 = wanted).map Prod.snd := by
  induction items generalizing index with
  | nil => simp
  | cons item rest ih =>
    rw [List.foldl_cons, ih, getElem?_note, List.append_assoc]
    by_cases same : key item.1 = wanted <;> simp [same]

theorem items_at_positions (items : List α) (wanted : κ) :
    ((items.zipIdx.foldl (note key) ∅)[wanted]?.getD []).map (fun i => items[i]?) =
      (items.filter fun item => key item = wanted).map some := by
  rw [getElem?_foldl_note, Std.ExtTreeMap.getElem?_empty, Option.getD_none, List.nil_append,
    List.map_map]
  exact filterMap_positions key items items 0 wanted (by simp)

theorem getElem?_foldl_place (items : List α) (start : Nat) (index : Std.ExtTreeMap κ Nat)
    (wanted : κ) (once : (items.map key).Nodup) (fresh : ∀ item ∈ items, index[key item]? = none)
    (i : Nat) :
    ((items.zipIdx start).foldl (place key) index)[wanted]? = some i ↔
      index[wanted]? = some i ∨
        ∃ item, start ≤ i ∧ items[i - start]? = some item ∧ key item = wanted := by
  induction items generalizing start index with
  | nil => simp
  | cons item rest ih =>
    rw [List.map_cons, List.nodup_cons] at once
    rw [List.zipIdx_cons, List.foldl_cons, ih (start + 1) _ once.2]
    · rw [place, Std.ExtTreeMap.getElem?_insert]
      by_cases same : key item = wanted
      · have none_ := fresh item List.mem_cons_self
        rw [same] at none_
        have later : ¬ ∃ other, start + 1 ≤ i ∧ rest[i - (start + 1)]? = some other ∧
            key other = wanted := by
          rintro ⟨other, _, found, again⟩
          apply once.1
          rw [same, ← again]
          exact List.mem_map_of_mem (List.mem_of_getElem? found)
        simp only [same, Std.LawfulEqOrd.compare_eq_iff_eq.mpr, if_true, later, or_false, none_,
          reduceCtorEq, false_or]
        constructor
        · intro here
          cases here
          exact ⟨item, Nat.le_refl _, by simp, same⟩
        · rintro ⟨other, above, found, again⟩
          by_cases first : i = start
          · rw [first]
          · obtain ⟨j, rfl⟩ : ∃ j, i = start + 1 + j := ⟨i - (start + 1), by omega⟩
            rw [show start + 1 + j - start = j + 1 by omega, List.getElem?_cons_succ] at found
            exact absurd ⟨other, by omega,
              by rwa [Nat.add_sub_cancel_left], again⟩ later
      · have differs : compare (key item) wanted ≠ .eq := by simpa using same
        rw [if_neg differs]
        refine or_congr_right ⟨?_, ?_⟩
        · rintro ⟨other, above, found, again⟩
          obtain ⟨j, rfl⟩ : ∃ j, i = start + 1 + j := ⟨i - (start + 1), by omega⟩
          rw [Nat.add_sub_cancel_left] at found
          refine ⟨other, by omega, ?_, again⟩
          rw [show start + 1 + j - start = j + 1 by omega, List.getElem?_cons_succ]
          exact found
        · rintro ⟨other, above, found, again⟩
          by_cases first : i = start
          · rw [first, Nat.sub_self, List.getElem?_cons_zero] at found
            cases found
            exact absurd again same
          · obtain ⟨j, rfl⟩ : ∃ j, i = start + 1 + j := ⟨i - (start + 1), by omega⟩
            rw [show start + 1 + j - start = j + 1 by omega, List.getElem?_cons_succ] at found
            exact ⟨other, by omega, by rwa [Nat.add_sub_cancel_left], again⟩
    · intro other member
      have differs : key item ≠ key other := by
        intro same
        exact once.1 (same ▸ List.mem_map_of_mem member)
      rw [place, Std.ExtTreeMap.getElem?_insert, if_neg (by simpa using differs)]
      exact fresh other (List.mem_cons_of_mem _ member)

theorem position_iff (items : List α) (wanted : κ) (once : (items.map key).Nodup) (i : Nat) :
    (items.zipIdx.foldl (place key) ∅)[wanted]? = some i ↔
      ∃ item, items[i]? = some item ∧ key item = wanted := by
  have placed := getElem?_foldl_place key items 0 ∅ wanted once (by simp) i
  simpa using placed

end PositionIndex
