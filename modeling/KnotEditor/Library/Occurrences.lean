import Mathlib.Data.List.Count
import Mathlib.Data.List.Nodup
import Mathlib.Logic.Function.Basic

/-! Items numbered by how many with the same key come before them. -/

namespace Occurrences

variable {ι κ : Type} [DecidableEq κ]

def number (key : ι → κ) (seen : κ → Nat) : List ι → List (ι × Nat)
  | [] => []
  | item :: items =>
    (item, seen (key item)) ::
      number key (Function.update seen (key item) (seen (key item) + 1)) items

variable {key : ι → κ}

theorem map_fst_number (seen : κ → Nat) (items : List ι) :
    (number key seen items).map Prod.fst = items := by
  induction items generalizing seen with
  | nil => rfl
  | cons item items ih => rw [number, List.map_cons, ih]

theorem getElem?_number (seen : κ → Nat) (items : List ι) (position : Nat) :
    (number key seen items)[position]? = items[position]?.map fun item =>
      (item, seen (key item) +
        (items.take position).countP fun earlier => key earlier = key item) := by
  induction items generalizing seen position with
  | nil => rfl
  | cons item items ih =>
    cases position with
    | zero => simp [number]
    | succ position =>
      rw [number, List.getElem?_cons_succ, List.getElem?_cons_succ, ih]
      refine Option.map_congr ?_
      intro other _
      rw [List.take_succ_cons, List.countP_cons]
      by_cases same : key item = key other
      · rw [same, Function.update_self, if_pos (decide_eq_true rfl), Nat.add_assoc,
          Nat.add_comm 1]
      · rw [Function.update_of_ne (Ne.symm same), if_neg (by simpa using same), Nat.add_zero]

theorem mem_number {seen : κ → Nat} {items : List ι} {item : ι} {times : Nat}
    (member : (item, times) ∈ number key seen items) : item ∈ items ∧ seen (key item) ≤ times := by
  obtain ⟨position, found⟩ := List.mem_iff_getElem?.mp member
  rw [getElem?_number] at found
  obtain ⟨other, known, same⟩ := Option.map_eq_some_iff.mp found
  cases same
  exact ⟨List.mem_of_getElem? known, Nat.le_add_right ..⟩

theorem nodup_number (key : ι → κ) (seen : κ → Nat) (items : List ι) :
    ((number key seen items).map fun entry => (key entry.1, entry.2)).Nodup := by
  induction items generalizing seen with
  | nil => exact List.nodup_nil
  | cons item items ih =>
    rw [number, List.map_cons]
    refine List.nodup_cons.mpr ⟨?_, ih _⟩
    intro again
    obtain ⟨⟨other, times⟩, member, same⟩ := List.mem_map.mp again
    obtain ⟨sameKey, sameTimes⟩ := Prod.mk.inj same
    have later := (mem_number member).2
    rw [sameKey, Function.update_self] at later
    simp only at sameTimes
    omega

theorem number_congr {other : ι → κ} {seen before : κ → Nat} {items : List ι}
    (sameKey : ∀ item ∈ items, key item = other item)
    (same : ∀ item ∈ items, seen (key item) = before (key item)) :
    number key seen items = number other before items := by
  induction items generalizing seen before with
  | nil => rfl
  | cons item items ih =>
    rw [List.forall_mem_cons] at sameKey same
    rw [number, number, ← sameKey.1, same.1]
    congr 1
    refine ih sameKey.2 ?_
    intro later member
    by_cases equal : key later = key item
    · rw [equal, Function.update_self, Function.update_self]
    · rw [Function.update_of_ne equal, Function.update_of_ne equal, same.2 later member]

theorem number_map {ν : Type} (change : ν → ι) (seen : κ → Nat) (items : List ν) :
    number key seen (items.map change) =
      (number (fun item => key (change item)) seen items).map fun entry =>
        (change entry.1, entry.2) := by
  induction items generalizing seen with
  | nil => rfl
  | cons item items ih => rw [List.map_cons, number, number, List.map_cons, ih]

theorem filter_number (keeps : κ → Bool) (seen : κ → Nat) (items : List ι) :
    (number key seen items).filter (fun entry => keeps (key entry.1)) =
      number key seen (items.filter fun item => keeps (key item)) := by
  induction items generalizing seen with
  | nil => rfl
  | cons item items ih =>
    simp only [number, List.filter_cons]
    split
    · rw [number, ih]
    next dropped =>
      rw [ih]
      refine number_congr (fun _ _ => rfl) ?_
      intro other member
      refine Function.update_of_ne ?_ _ _
      intro same
      exact dropped (same ▸ (List.mem_filter.mp member).2)

end Occurrences
