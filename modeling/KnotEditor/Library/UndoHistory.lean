import Mathlib.Data.List.Basic

/-! An editing history as two stacks, the states before the current one and the ones undone, with
a mark on the saved state that moves along with them. -/

namespace UndoHistory

variable {α : Type}

/-- Both stacks have their newest entry first. The saved state is named by how many entries come
before it. -/
structure Stacks (α : Type) where
  past : List α
  future : List α
  saved : Option Nat

namespace Stacks

def empty : Stacks α := ⟨[], [], some 0⟩

def markSaved (pair : Stacks α) : Stacks α := { pair with saved := some pair.past.length }

def forgetSaved (pair : Stacks α) : Stacks α := { pair with saved := none }

/-- A new state follows the current one. What was undone is gone, the oldest entries give way to
the cap, and the mark goes with the state it is on. -/
def record (cap : Nat) (pair : Stacks α) (current : α) : Stacks α :=
  let past := current :: pair.past
  let dropped := past.length - cap
  { past := past.take cap
    future := []
    saved := pair.saved.bind fun position =>
      if dropped ≤ position ∧ position ≤ pair.past.length then some (position - dropped)
      else none }

def undo (pair : Stacks α) (current : α) : Option (α × Stacks α) :=
  match pair.past with
  | [] => none
  | entry :: rest => some (entry, { pair with past := rest, future := current :: pair.future })

def redo (pair : Stacks α) (current : α) : Option (α × Stacks α) :=
  match pair.future with
  | [] => none
  | entry :: rest => some (entry, { pair with past := current :: pair.past, future := rest })

def canUndo (pair : Stacks α) : Bool := !pair.past.isEmpty

def canRedo (pair : Stacks α) : Bool := !pair.future.isEmpty

def isDirty (pair : Stacks α) : Bool := decide (pair.saved ≠ some pair.past.length)

variable {pair next : Stacks α} {current entry : α}

theorem undo_redo (undone : pair.undo current = some (entry, next)) (other : α) :
    ∃ again, next.redo other = some (current, again) := by
  revert undone
  fun_cases undo pair current
  · intro undone
    cases undone
  · intro undone
    obtain ⟨rfl, rfl⟩ := Prod.ext_iff.mp (Option.some.inj undone)
    exact ⟨_, rfl⟩

end Stacks

structure Implementation (α : Type) where
  History : Type
  cap : Nat
  fresh : History
  clear : History → History
  markSaved : History → History
  forgetSaved : History → History
  record : History → α → History
  undo : History → α → Option (α × History)
  redo : History → α → Option (α × History)
  canUndo : History → Bool
  canRedo : History → Bool
  isDirty : History → Bool
  view : History → Stacks α
  past_fresh : (view fresh).past = []
  future_fresh : (view fresh).future = []
  past_clear : ∀ history, (view (clear history)).past = []
  future_clear : ∀ history, (view (clear history)).future = []
  view_markSaved : ∀ history, view (markSaved history) = (view history).markSaved
  view_forgetSaved : ∀ history, view (forgetSaved history) = (view history).forgetSaved
  view_record : ∀ history current,
    view (record history current) = (view history).record cap current
  view_undo : ∀ history current,
    (undo history current).map (Prod.map id view) = (view history).undo current
  view_redo : ∀ history current,
    (redo history current).map (Prod.map id view) = (view history).redo current
  canUndo_eq : ∀ history, canUndo history = (view history).canUndo
  canRedo_eq : ∀ history, canRedo history = (view history).canRedo
  isDirty_eq : ∀ history, isDirty history = (view history).isDirty

namespace Implementation

def ofStacks (α : Type) (cap : Nat) : Implementation α where
  History := Stacks α
  cap := cap
  fresh := Stacks.empty
  clear _ := Stacks.empty
  markSaved := Stacks.markSaved
  forgetSaved := Stacks.forgetSaved
  record := Stacks.record cap
  undo := Stacks.undo
  redo := Stacks.redo
  canUndo := Stacks.canUndo
  canRedo := Stacks.canRedo
  isDirty := Stacks.isDirty
  view := id
  past_fresh := rfl
  future_fresh := rfl
  past_clear _ := rfl
  future_clear _ := rfl
  view_markSaved _ := rfl
  view_forgetSaved _ := rfl
  view_record _ _ := rfl
  view_undo _ _ := by simp
  view_redo _ _ := by simp
  canUndo_eq _ := rfl
  canRedo_eq _ := rfl
  isDirty_eq _ := rfl

variable {implementation : Implementation α} {history next : implementation.History}
  {current entry : α}

theorem undo_view (undone : implementation.undo history current = some (entry, next)) :
    (implementation.view history).undo current = some (entry, implementation.view next) := by
  rw [← implementation.view_undo, undone]
  rfl

theorem redo_of_undo (undone : implementation.undo history current = some (entry, next))
    (other : α) : ∃ again, implementation.redo next other = some (current, again) := by
  obtain ⟨again, redone⟩ := Stacks.undo_redo (undo_view undone) other
  rw [← implementation.view_redo] at redone
  obtain ⟨⟨found, after⟩, redone, eq⟩ := Option.map_eq_some_iff.mp redone
  have same : found = current := congrArg Prod.fst eq
  exact ⟨after, same ▸ redone⟩

end Implementation

end UndoHistory
