import Mathlib.Data.List.Basic
import Mathlib.Data.List.Range
import Mathlib.Data.List.Pairwise

/-! Splicing edits into a list. Each edit replaces a stretch of places; one pass with a cursor over
edits that follow one another gives, place by place, what the edits say. -/

namespace Splices

structure Edit (α : Type) where
  start : Nat
  finish : Nat
  replacement : List α

variable {α : Type}

def Edit.covers (edit : Edit α) (place : Nat) : Bool :=
  decide (edit.start ≤ place ∧ place < edit.finish)

def Edit.Before (earlier later : Edit α) : Prop := earlier.finish ≤ later.start

def Edit.Within (edit : Edit α) (length : Nat) : Prop :=
  edit.start ≤ edit.finish ∧ edit.finish ≤ length

section

variable (base : List α)

def stretch (start finish : Nat) : List α := (base.take finish).drop start

def apply : List (Edit α) → Nat → Option (List α)
  | [], cursor => some (base.drop cursor)
  | edit :: rest, cursor =>
    if edit.start < cursor then none
    else
      (apply rest edit.finish).map fun output =>
        stretch base cursor edit.start ++ edit.replacement ++ output

/-- What is left at one place: the replacements that belong there, and the item itself unless an
edit covers it. -/
def cell (edits : List (Edit α)) (place : Nat) : List α :=
  ((edits.filter fun edit => edit.start == place).flatMap Edit.replacement) ++
    if edits.any fun edit => edit.covers place then [] else (base[place]?).toList

def spliced (edits : List (Edit α)) : List α :=
  (List.range (base.length + 1)).flatMap (cell base edits)

end

variable {base : List α} {edit : Edit α} {edits : List (Edit α)}

theorem stretch_eq_flatMap (start finish : Nat) :
    stretch base start finish =
      (List.range' start (finish - start)).flatMap fun place => (base[place]?).toList := by
  induction size : finish - start generalizing finish with
  | zero =>
    have short : finish ≤ start := by omega
    rw [stretch, List.drop_eq_nil_of_le (by simp; omega)]
    rfl
  | succ count ih =>
    obtain ⟨last, rfl⟩ : ∃ last, finish = last + 1 := ⟨finish - 1, by omega⟩
    have bound : last - start = count := by omega
    have place : start + count = last := by omega
    rw [List.range'_concat, List.flatMap_append, ← ih last bound]
    simp only [List.flatMap_cons, List.flatMap_nil, List.append_nil, Nat.one_mul, place]
    rw [stretch, stretch, List.take_add_one, List.drop_append, List.length_take]
    by_cases inside : last < base.length
    · rw [Nat.min_eq_left (by omega), Nat.sub_eq_zero_of_le (by omega), List.drop_zero]
    · rw [List.getElem?_eq_none (by omega)]
      simp

theorem drop_eq_flatMap (cursor : Nat) :
    base.drop cursor =
      (List.range' cursor (base.length + 1 - cursor)).flatMap fun place =>
        (base[place]?).toList := by
  rw [← stretch_eq_flatMap, stretch, List.take_of_length_le (by omega)]

theorem range'_split {start middle count : Nat} (lower : start ≤ middle)
    (upper : middle ≤ start + count) :
    List.range' start count =
      List.range' start (middle - start) ++ List.range' middle (start + count - middle) := by
  have parts := @List.range'_append start (middle - start) (start + count - middle) 1
  rw [Nat.one_mul, Nat.add_sub_cancel' lower] at parts
  rw [parts]
  congr 1
  omega

theorem stretch_append {start middle finish : Nat} (lower : start ≤ middle)
    (upper : middle ≤ finish) :
    stretch base start middle ++ stretch base middle finish = stretch base start finish := by
  rw [stretch_eq_flatMap, stretch_eq_flatMap, stretch_eq_flatMap, ← List.flatMap_append,
    @range'_split start middle (finish - start) lower (by omega),
    Nat.add_sub_cancel' (le_trans lower upper)]

theorem stretch_append_drop {start finish : Nat} (lower : start ≤ finish)
    (upper : finish ≤ base.length) :
    stretch base start finish ++ base.drop finish = base.drop start := by
  have rest : base.drop finish = stretch base finish base.length := by
    rw [stretch, List.take_length]
  have whole : base.drop start = stretch base start base.length := by
    rw [stretch, List.take_length]
  rw [rest, whole, stretch_append lower upper]

theorem stretch_self (place : Nat) : stretch base place place = [] := by
  rw [stretch_eq_flatMap, Nat.sub_self]
  rfl

theorem mem_stretch {start finish place : Nat} {item : α} (lower : start ≤ place)
    (upper : place < finish) (found : base[place]? = some item) :
    item ∈ stretch base start finish := by
  rw [stretch_eq_flatMap, List.mem_flatMap]
  refine ⟨place, List.mem_range'_1.mpr ⟨lower, by omega⟩, ?_⟩
  rw [found]
  exact List.mem_singleton_self item

theorem not_covers_of_lt {place : Nat} (early : place < edit.start) :
    edit.covers place = false := by
  simp only [Edit.covers, decide_eq_false_iff_not]
  omega

theorem cell_of_lt {place : Nat} (early : ∀ edit ∈ edits, place < edit.start) :
    cell base edits place = (base[place]?).toList := by
  have none_ : edits.filter (fun edit => edit.start == place) = [] := by
    rw [List.filter_eq_nil_iff]
    intro edit member same
    have later := early edit member
    rw [beq_iff_eq] at same
    omega
  have bare : (edits.any fun edit => edit.covers place) = false := by
    rw [List.any_eq_false]
    intro edit member
    rw [not_covers_of_lt (early edit member)]
    exact Bool.false_ne_true
  rw [cell, none_, bare]
  rfl

theorem cell_cons_of_ge {place : Nat} (past : edit.finish ≤ place) (apart : edit.start ≠ place) :
    cell base (edit :: edits) place = cell base edits place := by
  have uncovered : edit.covers place = false := by
    simp only [Edit.covers, decide_eq_false_iff_not]
    omega
  have elsewhere : (edit.start == place) = false := by
    rw [beq_eq_false_iff_ne]
    exact apart
  simp only [cell, List.filter_cons, elsewhere, Bool.false_eq_true, if_false, List.any_cons,
    uncovered, Bool.false_or]

theorem cell_cons_of_covers {place : Nat} (covered : edit.covers place = true)
    (later : ∀ other ∈ edits, place < other.start) :
    cell base (edit :: edits) place = if edit.start = place then edit.replacement else [] := by
  have none_ : edits.filter (fun other => other.start == place) = [] := by
    rw [List.filter_eq_nil_iff]
    intro other member same
    have after := later other member
    rw [beq_iff_eq] at same
    omega
  simp only [cell, List.filter_cons, none_, List.any_cons, covered, Bool.true_or, if_true,
    List.append_nil, beq_iff_eq]
  split <;> simp

theorem cell_cons_insertion (empty : edit.finish = edit.start) :
    cell base (edit :: edits) edit.start = edit.replacement ++ cell base edits edit.start := by
  have uncovered : edit.covers edit.start = false := by
    simp only [Edit.covers, decide_eq_false_iff_not]
    omega
  simp only [cell, List.filter_cons, beq_self_eq_true, if_true, List.flatMap_cons, List.any_cons,
    uncovered, Bool.false_or, List.append_assoc]

theorem flatMap_range'_congr {f g : Nat → List α} {start count : Nat}
    (same : ∀ place, start ≤ place → place < start + count → f place = g place) :
    (List.range' start count).flatMap f = (List.range' start count).flatMap g := by
  refine List.flatMap_congr fun place member => ?_
  rw [List.mem_range'_1] at member
  exact same place member.1 member.2

theorem flatMap_covered (within : edit.start < edit.finish)
    (later : ∀ other ∈ edits, edit.finish ≤ other.start) :
    (List.range' edit.start (edit.finish - edit.start)).flatMap (cell base (edit :: edits)) =
      edit.replacement := by
  obtain ⟨count, size⟩ : ∃ count, edit.finish - edit.start = count + 1 :=
    ⟨edit.finish - edit.start - 1, by omega⟩
  have inside (place : Nat) (lower : edit.start ≤ place) (upper : place < edit.finish) :
      cell base (edit :: edits) place =
        if edit.start = place then edit.replacement else [] := by
    refine cell_cons_of_covers ?_ fun other member => ?_
    · simp only [Edit.covers, decide_eq_true_eq]
      exact ⟨lower, upper⟩
    · have after := later other member
      omega
  have rest : (List.range' (edit.start + 1) count).flatMap (cell base (edit :: edits)) = [] := by
    rw [List.flatMap_eq_nil_iff]
    intro place member
    rw [List.mem_range'_1] at member
    rw [inside place (by omega) (by omega), if_neg (by omega)]
  rw [size, List.range'_succ, List.flatMap_cons, rest, List.append_nil,
    inside edit.start (le_refl _) within, if_pos rfl]

theorem apply_from {cursor : Nat} (ordered : edits.Pairwise Edit.Before)
    (within : ∀ edit ∈ edits, edit.Within base.length)
    (ahead : ∀ edit ∈ edits, cursor ≤ edit.start) (bounded : cursor ≤ base.length) :
    apply base edits cursor =
      some ((List.range' cursor (base.length + 1 - cursor)).flatMap (cell base edits)) := by
  induction edits generalizing cursor with
  | nil =>
    rw [apply, drop_eq_flatMap]
    refine congrArg some (flatMap_range'_congr fun place _ _ => ?_)
    exact (cell_of_lt (List.forall_mem_nil _)).symm
  | cons edit rest ih =>
    rw [List.pairwise_cons] at ordered
    rw [List.forall_mem_cons] at within ahead
    obtain ⟨lower, upper⟩ := within.1
    rw [apply, if_neg (Nat.not_lt.mpr ahead.1),
      ih ordered.2 within.2 ordered.1 upper, Option.map_some, stretch_eq_flatMap]
    refine congrArg some ?_
    rw [@range'_split cursor edit.start (base.length + 1 - cursor) ahead.1 (by omega),
      List.flatMap_append, List.append_assoc]
    have front : (List.range' cursor (edit.start - cursor)).flatMap
          (fun place => (base[place]?).toList) =
        (List.range' cursor (edit.start - cursor)).flatMap (cell base (edit :: rest)) := by
      refine flatMap_range'_congr fun place _ early => ?_
      refine (cell_of_lt ?_).symm
      rw [List.forall_mem_cons]
      refine ⟨by omega, fun other member => ?_⟩
      have after := ordered.1 other member
      rw [Edit.Before] at after
      omega
    rw [front]
    refine congrArg _ ?_
    have size : cursor + (base.length + 1 - cursor) - edit.start =
        base.length + 1 - edit.start := by omega
    rw [size]
    rcases Nat.lt_or_eq_of_le lower with replaces | inserts
    · rw [@range'_split edit.start edit.finish (base.length + 1 - edit.start) lower (by omega),
        List.flatMap_append, flatMap_covered replaces ordered.1]
      have remaining : edit.start + (base.length + 1 - edit.start) - edit.finish =
          base.length + 1 - edit.finish := by omega
      rw [remaining]
      refine congrArg _ (flatMap_range'_congr fun place past _ => ?_)
      exact (cell_cons_of_ge past (by omega)).symm
    · obtain ⟨count, size⟩ : ∃ count, base.length + 1 - edit.start = count + 1 :=
        ⟨base.length - edit.start, by omega⟩
      rw [← inserts, size, List.range'_succ, List.flatMap_cons, List.flatMap_cons,
        cell_cons_insertion inserts.symm, List.append_assoc]
      refine congrArg _ (congrArg _ (flatMap_range'_congr fun place past _ => ?_))
      exact (cell_cons_of_ge (by omega) (by omega)).symm

theorem apply_eq_spliced (ordered : edits.Pairwise Edit.Before)
    (within : ∀ edit ∈ edits, edit.Within base.length) :
    apply base edits 0 = some (spliced base edits) := by
  rw [apply_from ordered within (fun _ _ => Nat.zero_le _) (Nat.zero_le _), Nat.sub_zero, spliced,
    List.range_eq_range']

end Splices
