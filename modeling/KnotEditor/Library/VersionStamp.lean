import Mathlib.Data.List.Nodup

/-! Cells that each carry a number of their own and a revision: a stamp taken from one of them
matches a cell only where it was taken, and only until the cell changes. -/

namespace VersionStamp

structure Cell where
  number : Nat
  revision : Nat
  changes : Nat

structure Taken where
  index : Nat
  seen : Cell

structure Register where
  cells : List Cell
  taken : List Taken
  next : Nat

structure Advances (before after : Cell) : Prop where
  number : after.number = before.number
  revision : before.revision ≤ after.revision
  changes : before.changes ≤ after.changes
  marked : before.changes < after.changes → before.revision < after.revision

theorem advances_refl (cell : Cell) : Advances cell cell :=
  ⟨rfl, Nat.le_refl _, Nat.le_refl _, fun less => absurd less (Nat.lt_irrefl _)⟩

theorem advances_trans {first second third : Cell} (before : Advances first second)
    (after : Advances second third) : Advances first third := by
  refine ⟨after.number.trans before.number, Nat.le_trans before.revision after.revision,
    Nat.le_trans before.changes after.changes, ?_⟩
  intro changed
  by_cases early : first.changes < second.changes
  · exact Nat.lt_of_lt_of_le (before.marked early) after.revision
  · have late : second.changes < third.changes := by omega
    exact Nat.lt_of_le_of_lt before.revision (after.marked late)

inductive Step : Register → Register → Prop
  | skip (register : Register) {next : Nat} : register.next ≤ next →
      Step register { register with next := next }
  | create (register : Register) {number next : Nat} :
      register.next ≤ number → number < next →
      Step register { register with
        cells := register.cells ++ [⟨number, 0, 0⟩]
        next := next }
  | update (register : Register) {index : Nat} {before after : Cell} :
      register.cells[index]? = some before → Advances before after →
      Step register { register with cells := register.cells.set index after }
  | take (register : Register) {index : Nat} {cell : Cell} :
      register.cells[index]? = some cell →
      Step register { register with taken := register.taken ++ [⟨index, cell⟩] }

structure Sound (register : Register) : Prop where
  fresh : ∀ cell ∈ register.cells, cell.number < register.next
  apart : (register.cells.map Cell.number).Nodup
  later : ∀ taken ∈ register.taken, ∃ cell, register.cells[taken.index]? = some cell ∧
    Advances taken.seen cell

theorem sound_empty (next : Nat) : Sound ⟨[], [], next⟩ :=
  ⟨by simp, by simp, by simp⟩

theorem sound_step {before after : Register} (sound : Sound before) (step : Step before after) :
    Sound after := by
  cases step with
  | skip higher =>
    exact ⟨fun cell member => Nat.lt_of_lt_of_le (sound.fresh cell member) higher, sound.apart,
      sound.later⟩
  | @create number next unused higher =>
    refine ⟨?_, ?_, ?_⟩
    · intro cell member
      rcases List.mem_append.mp member with old | new
      · exact Nat.lt_trans (Nat.lt_of_lt_of_le (sound.fresh cell old) unused) higher
      · cases List.mem_singleton.mp new
        exact higher
    · rw [List.map_append, List.nodup_append]
      refine ⟨sound.apart, List.nodup_singleton _, ?_⟩
      intro left leftMember right rightMember
      rcases List.mem_map.mp leftMember with ⟨cell, old, rfl⟩
      cases List.mem_singleton.mp rightMember
      have below := sound.fresh cell old
      simp only
      omega
    · intro taken member
      rcases sound.later taken member with ⟨cell, found, advances⟩
      refine ⟨cell, ?_, advances⟩
      rw [List.getElem?_append_left (List.getElem?_eq_some_iff.mp found).choose]
      exact found
  | @update index old new found advances =>
    have bound : index < before.cells.length := (List.getElem?_eq_some_iff.mp found).choose
    have numbers : (before.cells.set index new).map Cell.number =
        before.cells.map Cell.number := by
      refine List.ext_getElem? fun position => ?_
      rw [List.getElem?_map, List.getElem?_map]
      by_cases same : index = position
      · subst same
        rw [List.getElem?_set_self bound, found, Option.map_some, Option.map_some,
          advances.number]
      · rw [List.getElem?_set_ne same]
    refine ⟨?_, numbers ▸ sound.apart, ?_⟩
    · intro cell member
      rcases List.mem_or_eq_of_mem_set member with kept | rfl
      · exact sound.fresh cell kept
      · rw [advances.number]
        exact sound.fresh old (List.mem_of_getElem? found)
    · intro taken member
      rcases sound.later taken member with ⟨cell, held, reached⟩
      by_cases same : index = taken.index
      · subst same
        rw [found] at held
        cases held
        exact ⟨new, List.getElem?_set_self bound, advances_trans reached advances⟩
      · refine ⟨cell, ?_, reached⟩
        rw [List.getElem?_set_ne same]
        exact held
  | @take index cell found =>
    refine ⟨sound.fresh, sound.apart, ?_⟩
    intro taken member
    rcases List.mem_append.mp member with old | new
    · exact sound.later taken old
    · cases List.mem_singleton.mp new
      exact ⟨cell, found, advances_refl cell⟩

theorem taken_current {register : Register} (sound : Sound register) {taken : Taken}
    (member : taken ∈ register.taken) {index : Nat} {cell : Cell}
    (found : register.cells[index]? = some cell) (number : cell.number = taken.seen.number)
    (revision : cell.revision = taken.seen.revision) :
    index = taken.index ∧ cell.changes = taken.seen.changes := by
  rcases sound.later taken member with ⟨current, held, advances⟩
  have bound : index < (register.cells.map Cell.number).length := by
    rw [List.length_map]
    exact (List.getElem?_eq_some_iff.mp found).choose
  have same : index = taken.index := by
    refine (List.getElem?_inj bound sound.apart).mp ?_
    rw [List.getElem?_map, List.getElem?_map, found, held, Option.map_some, Option.map_some,
      number, advances.number]
  subst same
  rw [found] at held
  cases held
  refine ⟨rfl, ?_⟩
  by_contra differs
  have changed := advances.marked (Nat.lt_of_le_of_ne advances.changes (Ne.symm differs))
  omega

end VersionStamp
