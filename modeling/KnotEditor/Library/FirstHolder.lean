import Std.Data.ExtTreeMap
import Mathlib.Data.List.Induction
import Mathlib.Order.Compare
import Mathlib.Order.Defs.LinearOrder

/-! An ordered table indexed by a feature of its values, the first key winning. -/

namespace FirstHolder

variable {κ α ι : Type} [Ord ι] [Std.TransOrd ι]

def index (feature : α → Option ι) (entries : List (κ × α)) : Std.ExtTreeMap ι κ :=
  entries.foldl (fun table entry =>
    match feature entry.2 with
    | some found => table.insertIfNew found entry.1
    | none => table) ∅

theorem index_append_singleton (feature : α → Option ι) (entries : List (κ × α))
    (entry : κ × α) :
    index feature (entries ++ [entry]) =
      match feature entry.2 with
      | some found => (index feature entries).insertIfNew found entry.1
      | none => index feature entries := by
  simp only [index, List.foldl_append, List.foldl_cons, List.foldl_nil]

variable [Std.LawfulEqOrd ι] [DecidableEq ι]

theorem getElem?_index (feature : α → Option ι) (entries : List (κ × α)) (wanted : ι) :
    (index feature entries)[wanted]? =
      (entries.find? fun entry => feature entry.2 = some wanted).map Prod.fst := by
  induction entries using List.reverseRecOn with
  | nil => simp [index]
  | append_singleton entries entry ih =>
    rw [index_append_singleton, List.find?_append, List.find?_singleton]
    cases attributed : feature entry.2 with
    | none => simp [ih]
    | some found =>
      simp only [Std.ExtTreeMap.getElem?_insertIfNew, Std.LawfulEqOrd.compare_eq_iff_eq,
        Option.some.injEq]
      by_cases same : found = wanted
      · subst same
        have held := Std.ExtTreeMap.mem_iff_isSome_getElem?
          (t := index feature entries) (a := found)
        cases before : entries.find? fun entry => feature entry.2 = some found with
        | none =>
          rw [before] at ih
          simp [held, ih]
        | some holder =>
          rw [before] at ih
          have taken : ¬ (found = found ∧ ¬ found ∈ index feature entries) := by
            rw [held, ih]
            simp
          rw [if_neg taken, ih]
          rfl
      · simp [same, ih]

section Ordered

variable [Ord κ] [Std.TransOrd κ] [Std.LawfulEqOrd κ]

/-- `key` is the first of the table whose value has the feature. -/
def IsFirst (feature : α → Option ι) (table : Std.ExtTreeMap κ α) (wanted : ι) (key : κ) :
    Prop :=
  table[key]?.bind feature = some wanted ∧
    ∀ other, table[other]?.bind feature = some wanted → (compare key other).isLE = true

omit [Ord ι] [Std.TransOrd ι] [Std.LawfulEqOrd ι] [DecidableEq ι] in
theorem bind_of_mem_toList (feature : α → Option ι) (table : Std.ExtTreeMap κ α) (wanted : ι)
    (key : κ) :
    table[key]?.bind feature = some wanted ↔
      ∃ value, (key, value) ∈ table.toList ∧ feature value = some wanted := by
  simp only [Option.bind_eq_some_iff, Std.ExtTreeMap.mem_toList_iff_getElem?_eq_some]

theorem getElem?_index_toList (feature : α → Option ι) (table : Std.ExtTreeMap κ α)
    (wanted : ι) (key : κ) :
    (index feature table.toList)[wanted]? = some key ↔ IsFirst feature table wanted key := by
  have ordered := Std.ExtTreeMap.ordered_keys_toList (t := table)
  rw [getElem?_index, Option.map_eq_some_iff]
  constructor
  · rintro ⟨⟨first, value⟩, found, same⟩
    cases same
    rcases List.find?_eq_some_iff_append.mp found with ⟨matched, before, after, shape, earlier⟩
    rw [shape] at ordered
    refine ⟨(bind_of_mem_toList feature table wanted first).mpr ⟨value, ?_, ?_⟩, ?_⟩
    · rw [shape]
      exact List.mem_append_right _ List.mem_cons_self
    · exact of_decide_eq_true matched
    · intro other holds
      rcases (bind_of_mem_toList feature table wanted other).mp holds with ⟨value', member, has⟩
      rw [shape] at member
      rcases List.mem_append.mp member with early | late
      · have unmatched := earlier _ early
        rw [has] at unmatched
        simp at unmatched
      · rcases List.mem_cons.mp late with here | later
        · cases here
          rw [show compare first first = .eq from Std.ReflCmp.compare_self]
          rfl
        · have less := (List.pairwise_cons.mp (List.pairwise_append.mp ordered).2.1).1 _ later
          rw [show compare first other = .lt from less]
          rfl
  · rintro ⟨holds, minimal⟩
    rcases (bind_of_mem_toList feature table wanted key).mp holds with ⟨value, member, has⟩
    cases found : table.toList.find? fun entry => feature entry.2 = some wanted with
    | none => exact absurd (decide_eq_true has) (List.find?_eq_none.mp found (key, value) member)
    | some entry =>
      refine ⟨entry, rfl, ?_⟩
      rcases List.find?_eq_some_iff_append.mp found with
        ⟨matched, before, after, shape, earlier⟩
      have first := minimal entry.1 ((bind_of_mem_toList feature table wanted entry.1).mpr
        ⟨entry.2, List.mem_of_find?_eq_some found, of_decide_eq_true matched⟩)
      rw [shape] at member ordered
      rcases List.mem_append.mp member with early | late
      · have unmatched := earlier _ early
        simp [has] at unmatched
      · rcases List.mem_cons.mp late with here | later
        · rw [← here]
        · have less := (List.pairwise_cons.mp (List.pairwise_append.mp ordered).2.1).1 _ later
          have swapped : compare key entry.1 = (compare entry.1 key).swap :=
            Std.OrientedCmp.eq_swap
          rw [swapped, show compare entry.1 key = .lt from less] at first
          cases first

omit [Ord ι] [Std.TransOrd ι] [Std.LawfulEqOrd ι] [DecidableEq ι] in
theorem isFirst_unique {feature : α → Option ι} {table : Std.ExtTreeMap κ α} {wanted : ι}
    {first second : κ} (one : IsFirst feature table wanted first)
    (two : IsFirst feature table wanted second) : first = second := by
  have forward := one.2 second two.1
  have backward := two.2 first one.1
  exact Std.LawfulEqOrd.compare_eq_iff_eq.mp (Std.OrientedCmp.isLE_antisymm forward backward)

theorem exists_isFirst (feature : α → Option ι) (table : Std.ExtTreeMap κ α) (wanted : ι)
    (held : ∃ key : κ, table[key]?.bind feature = some wanted) :
    ∃ key, IsFirst feature table wanted key := by
  rcases held with ⟨key, holds⟩
  rcases (bind_of_mem_toList feature table wanted key).mp holds with ⟨value, member, has⟩
  cases found : table.toList.find? fun entry => feature entry.2 = some wanted with
  | none => exact absurd (decide_eq_true has) (List.find?_eq_none.mp found (key, value) member)
  | some entry =>
    refine ⟨entry.1, (getElem?_index_toList feature table wanted entry.1).mp ?_⟩
    rw [getElem?_index, found, Option.map_some]

end Ordered

end FirstHolder
