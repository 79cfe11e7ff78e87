import KnotEditor.Library.LinearExtension
import Mathlib.Data.List.Induction

/-! Replays whose output only grows: what each item adds depends on what came before it. Where the
items have keys of their own and what they add bears the key, an output says whose it is. -/

namespace Accumulations

variable {α β κ : Type}

theorem append_singleton_eq_iff {earlier front back : List α} {last item : α} :
    earlier ++ [last] = front ++ item :: back ↔
      (front = earlier ∧ item = last ∧ back = []) ∨
        ∃ rest, back = rest ++ [last] ∧ earlier = front ++ item :: rest := by
  constructor
  · intro split
    rcases List.eq_nil_or_concat back with rfl | ⟨rest, final, rfl⟩
    · obtain ⟨rfl, same⟩ := List.append_inj' split rfl
      cases same
      exact .inl ⟨rfl, rfl, rfl⟩
    · rw [List.concat_eq_append, ← List.cons_append, ← List.append_assoc] at split
      obtain ⟨before, same⟩ := List.append_inj' split rfl
      cases same
      exact .inr ⟨rest, by simp, before⟩
  · rintro (⟨rfl, rfl, rfl⟩ | ⟨rest, rfl, rfl⟩)
    · rfl
    · simp

theorem split_unique {key : α → κ} {front back otherFront otherBack : List α} {item other : α}
    (distinct : ((front ++ item :: back).map key).Nodup)
    (same : front ++ item :: back = otherFront ++ other :: otherBack)
    (own : key item = key other) : front = otherFront ∧ item = other ∧ back = otherBack := by
  have found : other ∈ front ++ item :: back := by
    rw [same]
    simp
  have items : item = other := List.inj_on_of_nodup_map distinct (by simp) found own
  subst items
  obtain ⟨apart, _⟩ := List.nodup_cons.mp (List.nodup_middle.mp distinct.of_map)
  rw [List.mem_append, not_or] at apart
  obtain ⟨fronts, _, backs⟩ := (List.append_cons_inj_of_notMem apart.1 apart.2).mp same
  exact ⟨fronts, rfl, backs⟩

structure Accumulates (output : List α → List β) (added : List α → α → List β) : Prop where
  starts : output [] = []
  grows : ∀ front item, output (front ++ [item]) = output front ++ added front item

namespace Accumulates

variable {output : List α → List β} {added : List α → α → List β} {items front back : List α}
variable {item : α} {found : β}

theorem mem_iff (accumulates : Accumulates output added) :
    found ∈ output items ↔
      ∃ front item back, items = front ++ item :: back ∧ found ∈ added front item := by
  induction items using List.reverseRecOn with
  | nil => simp [accumulates.starts]
  | append_singleton earlier last ih =>
    rw [accumulates.grows, List.mem_append, ih]
    constructor
    · rintro (⟨front, item, back, split, member⟩ | member)
      · exact ⟨front, item, back ++ [last], by simp [split], member⟩
      · exact ⟨earlier, last, [], rfl, member⟩
    · rintro ⟨front, item, back, split, member⟩
      rcases append_singleton_eq_iff.mp split with ⟨rfl, rfl, _⟩ | ⟨rest, _, before⟩
      · exact .inr member
      · exact .inl ⟨front, item, rest, before, member⟩

theorem append (accumulates : Accumulates output added) (front back : List α) :
    ∃ rest, output (front ++ back) = output front ++ rest := by
  induction back using List.reverseRecOn with
  | nil => exact ⟨[], by simp⟩
  | append_singleton earlier last ih =>
    obtain ⟨rest, grown⟩ := ih
    rw [← List.append_assoc, accumulates.grows, grown, List.append_assoc]
    exact ⟨_, rfl⟩

theorem mem_append_left (accumulates : Accumulates output added) (member : found ∈ output front) :
    found ∈ output (front ++ back) := by
  obtain ⟨rest, grown⟩ := accumulates.append front back
  rw [grown]
  exact List.mem_append_left rest member

section

variable {key : α → κ} {mark : β → κ}

theorem mem_turn_iff (accumulates : Accumulates output added)
    (marks : ∀ front item, ∀ found ∈ added front item, mark found = key item)
    (distinct : ((front ++ item :: back).map key).Nodup) :
    found ∈ output (front ++ item :: back) ∧ mark found = key item ↔ found ∈ added front item := by
  rw [accumulates.mem_iff]
  constructor
  · rintro ⟨⟨earlier, other, later, split, adds⟩, own⟩
    have signed := marks earlier other found adds
    obtain ⟨rfl, rfl, _⟩ := split_unique distinct split (own.symm.trans signed)
    exact adds
  · intro adds
    exact ⟨⟨front, item, back, rfl, adds⟩, marks front item found adds⟩

theorem mem_front (accumulates : Accumulates output added)
    (marks : ∀ front item, ∀ found ∈ added front item, mark found = key item)
    (distinct : ((front ++ back).map key).Nodup) (member : found ∈ output (front ++ back))
    (signed : ∃ item ∈ front, key item = mark found) : found ∈ output front := by
  obtain ⟨item, inFront, own⟩ := signed
  obtain ⟨before, after, rfl⟩ := List.append_of_mem inFront
  rw [List.append_assoc, List.cons_append] at distinct member
  exact accumulates.mem_iff.mpr ⟨before, item, after, rfl,
    (accumulates.mem_turn_iff marks distinct).mp ⟨member, own.symm⟩⟩

end

end Accumulates

end Accumulations

/-! A register with one slot for each writer. A write takes its own slot and empties every slot
whose value it replaces; what remains is what no later write took or replaced. -/

namespace SlotRegisters

variable {α Slot : Type} [DecidableEq Slot]

def write (slot : α → Slot) (replaces : α → α → Bool) (slots : Slot → Option α) (item : α) :
    Slot → Option α :=
  fun query =>
    if slot item = query then some item
    else (slots query).filter fun held => !replaces item held

def run (slot : α → Slot) (replaces : α → α → Bool) (items : List α) : Slot → Option α :=
  items.foldl (write slot replaces) fun _ => none

variable {slot : α → Slot} {replaces : α → α → Bool} {items others : List α}
variable {precedes : α → α → Prop}

theorem run_append_singleton (items : List α) (item : α) :
    run slot replaces (items ++ [item]) =
      write slot replaces (run slot replaces items) item := by
  simp [run]

theorem run_eq_some_iff (query : Slot) (held : α) :
    run slot replaces items query = some held ↔
      ∃ front back, items = front ++ held :: back ∧ slot held = query ∧
        ∀ later ∈ back, slot later ≠ query ∧ replaces later held = false := by
  induction items using List.reverseRecOn with
  | nil => simp [run]
  | append_singleton earlier last ih =>
    rw [run_append_singleton, write]
    constructor
    · intro read
      by_cases own : slot last = query
      · rw [if_pos own] at read
        cases read
        exact ⟨earlier, [], by simp, own, by simp⟩
      · rw [if_neg own, Option.filter_eq_some_iff] at read
        obtain ⟨front, back, split, same, survived⟩ := ih.mp read.1
        refine ⟨front, back ++ [last], by simp [split], same, ?_⟩
        intro later member
        rcases List.mem_append.mp member with inBack | isLast
        · exact survived later inBack
        · rw [List.mem_singleton] at isLast
          subst isLast
          exact ⟨own, by simpa using read.2⟩
    · rintro ⟨front, back, split, same, survived⟩
      rcases Accumulations.append_singleton_eq_iff.mp split with
        ⟨rfl, rfl, rfl⟩ | ⟨rest, rfl, before⟩
      · rw [if_pos same]
      · have unreplaced := survived last (by simp)
        rw [if_neg unreplaced.1, Option.filter_eq_some_iff]
        refine ⟨ih.mpr ⟨front, rest, before, same, ?_⟩, by simpa using unreplaced.2⟩
        intro later member
        exact survived later (by simp [member])

/-- Over a causal order the survivors are named without the order: nothing that follows them
takes their slot, and nothing replaces them. -/
theorem run_eq_some_iff_of_extension
    (extension : LinearExtensions.LinearExtension precedes items)
    (chained : ∀ first ∈ items, ∀ second ∈ items, slot first = slot second → first ≠ second →
      precedes first second ∨ precedes second first)
    (replacesEarlier : ∀ later ∈ items, ∀ held ∈ items, replaces later held = true →
      precedes held later)
    (query : Slot) (held : α) :
    run slot replaces items query = some held ↔
      held ∈ items ∧ slot held = query ∧ ∀ later ∈ items,
        ¬ (slot later = query ∧ precedes held later) ∧ replaces later held = false := by
  rw [run_eq_some_iff]
  constructor
  · rintro ⟨front, back, split, same, survived⟩
    subst split
    refine ⟨by simp, same, fun later member => ⟨?_, ?_⟩⟩
    · rintro ⟨own, after⟩
      exact (survived later (extension.mem_back member after)).1 own
    · by_contra replaced
      rw [Bool.not_eq_false] at replaced
      have after := replacesEarlier later member held (by simp) replaced
      rw [(survived later (extension.mem_back member after)).2] at replaced
      cases replaced
  · rintro ⟨member, same, survived⟩
    obtain ⟨front, back, split⟩ := List.append_of_mem member
    subst split
    refine ⟨front, back, rfl, same, fun later inBack => ⟨?_, (survived later (by simp [inBack])).2⟩⟩
    intro own
    have distinct : held ≠ later := by
      intro clash
      subst clash
      exact extension.notMem_back inBack
    rcases chained held (by simp) later (by simp [inBack]) (same.trans own.symm) distinct with
      after | before
    · exact (survived later (by simp [inBack])).1 ⟨own, after⟩
    · exact extension.notMem_front_of_mem_back inBack
        (extension.mem_front (by simp [inBack]) before)

end SlotRegisters
