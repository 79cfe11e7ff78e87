import KnotEditor.Desktop.RecipeHistory
import KnotEditor.Library.Run

/-! Undo and redo of recipe edits, in any session. -/

namespace KnotEditor.Desktop.Recipes

open UndoHistory

variable {host : SceneHost} {backstep : Implementation (RecipeAuthored host)}

namespace RecipeAuthored

variable {authored : RecipeAuthored host} {current : host.Material}

theorem restoreInto_selectedRelationship (authored : RecipeAuthored host)
    (current : host.Material) :
    (authored.restoreInto current).snapshot.selectedRelationship =
      current.snapshot.selectedRelationship ∨
    (authored.restoreInto current).snapshot.selectedRelationship = none := by
  rw [restoreInto]
  split
  · exact .inr rfl
  · exact .inl rfl

/-- Restoring what was current before an undo gives that material back, except that the selected
relationship may be gone. -/
theorem restoreInto_restoreInto (authored : RecipeAuthored host) (current : host.Material) :
    ∃ selected, (selected = current.snapshot.selectedRelationship ∨ selected = none) ∧
      (fromMaterial current).restoreInto (authored.restoreInto current) =
        current.withSelectedRelationship selected := by
  have later := (fromMaterial current).restoreInto_selectedRelationship
    (authored.restoreInto current)
  have sooner := authored.restoreInto_selectedRelationship current
  refine ⟨((fromMaterial current).restoreInto
    (authored.restoreInto current)).snapshot.selectedRelationship, ?_, rfl⟩
  rcases later with same | gone
  · rw [same]
    exact sooner
  · exact .inr gone

theorem differsAuthored_eq_false {before after : host.Material}
    (recipe : before.snapshot.recipe = after.snapshot.recipe)
    (shown : before.presentation = after.presentation)
    (numeric : ∀ presentation ∈ before.presentation, presentation.Numeric) :
    (fromMaterial before).differsAuthored (fromMaterial after) = false := by
  have same : (before.presentation == after.presentation) = true :=
    ProjectionRecipeMaterial.presentation_beq_iff.mpr ⟨shown, numeric⟩
  simp [differsAuthored, fromMaterial, recipe, same]

end RecipeAuthored

namespace RecipeHistory

variable {recipe next : RecipeHistory host backstep} {current restored : host.Material}
  {step : HistoryStep}

def backstepOf (recipe : RecipeHistory host backstep) (current : host.Material) :
    HistoryStep → Option (RecipeAuthored host × backstep.History)
  | .undo => backstep.undo recipe.history (.fromMaterial current)
  | .redo => backstep.redo recipe.history (.fromMaterial current)

theorem step_eq : recipe.step current step = match recipe.ensureSource current with
    | .error error => (recipe, .error error)
    | .ok () => match recipe.backstepOf current step with
        | none => (recipe, .ok none)
        | some (entry, history) => match (entry.restoreInto current).validate with
            | .error error => (recipe, .error error.text)
            | .ok () => ({ recipe with history := history },
                .ok (some (entry.restoreInto current))) := by
  cases step with
  | undo => rfl
  | redo => rfl

theorem step_of_backstepOf {entry : RecipeAuthored host} {history : backstep.History}
    (same : recipe.ensureSource current = .ok ())
    (taken : recipe.backstepOf current step = some (entry, history)) :
    (∃ error, (entry.restoreInto current).validate = .error error ∧
      recipe.step current step = (recipe, .error error.text)) ∨
    (entry.restoreInto current).validate = .ok () ∧ recipe.step current step =
      ({ recipe with history := history }, .ok (some (entry.restoreInto current))) := by
  cases valid : (entry.restoreInto current).validate with
  | error error =>
    exact .inl ⟨error, rfl, by simp only [step_eq, same, taken, valid]⟩
  | ok =>
    exact .inr ⟨rfl, by simp only [step_eq, same, taken, valid]⟩

theorem step_cases (recipe : RecipeHistory host backstep) (current : host.Material)
    (step : HistoryStep) :
    (∃ error, recipe.step current step = (recipe, .error error)) ∨
    recipe.step current step = (recipe, .ok none) ∨
    ∃ entry history, recipe.ensureSource current = .ok () ∧
      recipe.backstepOf current step = some (entry, history) ∧
      (entry.restoreInto current).validate = .ok () ∧
      recipe.step current step =
        ({ recipe with history := history }, .ok (some (entry.restoreInto current))) := by
  cases same : recipe.ensureSource current with
  | error error =>
    exact .inl ⟨error, by simp only [step_eq, same]⟩
  | ok =>
    cases taken : recipe.backstepOf current step with
    | none =>
      exact .inr (.inl (by simp only [step_eq, same, taken]))
    | some result =>
      obtain ⟨entry, history⟩ := result
      rcases step_of_backstepOf same taken with ⟨error, -, refused⟩ | ⟨valid, restored⟩
      · exact .inl ⟨error.text, refused⟩
      · exact .inr (.inr ⟨entry, history, rfl, rfl, valid, restored⟩)

theorem record_of_selection {before after : host.Material}
    (chosen : before.snapshot.recipe = after.snapshot.recipe)
    (shown : before.presentation = after.presentation)
    (numeric : ∀ presentation ∈ before.presentation, presentation.Numeric) :
    recipe.record before after = recipe := by
  fun_cases record recipe before after
  case case3 differs =>
    have same := RecipeAuthored.differsAuthored_eq_false chosen shown numeric
    exact absurd (same.symm.trans differs) Bool.false_ne_true
  all_goals rfl

end RecipeHistory

namespace RecipeState

variable {state : RecipeState host backstep} {current : host.Material} {step : HistoryStep}

theorem stepHistory_cases (state : RecipeState host backstep) (step : HistoryStep) :
    ((state.stepHistory step).1 = state ∧ (state.stepHistory step).2 ≠ .restored) ∨
    ∃ current entry history positions, state.material = some current ∧
      state.history.ensureSource current = .ok () ∧
      state.history.backstepOf current step = some (entry, history) ∧
      (entry.restoreInto current).scenePositions = .ok positions ∧
      state.stepHistory step = (⟨some (entry.restoreInto current),
        { state.history with history := history }, positions⟩, .restored) := by
  obtain ⟨material, recipe, shown⟩ := state
  cases material with
  | none => exact .inl (by simp [stepHistory])
  | some current =>
    rcases recipe.step_cases current step with
      ⟨error, refused⟩ | idle | ⟨entry, history, same, taken, valid, restored⟩
    · exact .inl (by simp [stepHistory, refused])
    · exact .inl (by simp [stepHistory, idle])
    · obtain ⟨positions, read⟩ := ProjectionRecipeMaterial.scenePositions_of_validate valid
      exact .inr ⟨current, entry, history, positions, rfl, same, taken, read,
        by simp [stepHistory, restored, read]⟩

theorem stepHistory_unrestored (unrestored : (state.stepHistory step).2 ≠ .restored) :
    (state.stepHistory step).1 = state := by
  rcases state.stepHistory_cases step with ⟨same, -⟩ | ⟨_, _, _, _, -, -, -, -, restored⟩
  · exact same
  · rw [restored] at unrestored
    exact absurd rfl unrestored

theorem installEdit_selection (opened : state.material = some current)
    (occurrence relationship : Option String) :
    (state.installEdit { current with snapshot := { current.snapshot with
      selectedOccurrence := occurrence
      selectedRelationship := relationship } }).history = state.history := by
  rw [installEdit]
  split
  next => rfl
  next positions read =>
    rw [opened]
    refine RecipeHistory.record_of_selection rfl rfl ?_
    intro presentation shown
    exact ProjectionRecipeMaterial.numeric_of_validate
      (ProjectionRecipeMaterial.scenePositions_eq_ok_iff.mp read).1 shown

theorem markRetained_other {retained : host.Material} (other : state.material ≠ some retained) :
    state.markRetained retained = state := by
  obtain ⟨material, recipe, shown⟩ := state
  cases material with
  | none => rfl
  | some current =>
    have unequal : ¬ (current == retained) = true := by
      intro same
      exact other (congrArg some (ProjectionRecipeMaterial.beq_iff.mp same).1)
    rw [markRetained]
    simp only [RecipeHistory.markRetained, if_neg unequal]

def Derived (state : RecipeState host backstep) : Prop :=
  ∀ material, state.material = some material → material.placed = .ok state.scenePositions

theorem derived_act (state : RecipeState host backstep) (action : RecipeAction host)
    (derived : state.Derived) : (state.act action).Derived := by
  have stepped : ∀ step, (state.stepHistory step).1.Derived := by
    intro step
    rcases state.stepHistory_cases step with
      ⟨same, -⟩ | ⟨_, entry, history, positions, -, -, -, read, eq⟩
    · rwa [same]
    · rw [eq]
      intro material opened
      cases Option.some.inj opened
      exact (ProjectionRecipeMaterial.scenePositions_eq_ok_iff.mp read).2
  cases action with
  | open_ material retained =>
    rw [act, open_]
    split
    next => exact derived
    next positions read =>
      intro opened eq
      cases Option.some.inj eq
      exact (ProjectionRecipeMaterial.scenePositions_eq_ok_iff.mp read).2
  | edit candidate =>
    rw [act, installEdit]
    split
    next => exact derived
    next positions read =>
      intro opened eq
      cases Option.some.inj eq
      exact (ProjectionRecipeMaterial.scenePositions_eq_ok_iff.mp read).2
  | select occurrence relationship =>
    intro material eq
    obtain ⟨before, opened, rfl⟩ := Option.map_eq_some_iff.mp eq
    exact derived before opened
  | undo => exact stepped .undo
  | redo => exact stepped .redo
  | receipt retained =>
    rw [act, markRetained]
    split
    next => exact derived
    next => exact derived

theorem derived_run (actions : List (RecipeAction host)) :
    (run actions : RecipeState host backstep).Derived := by
  have nothing : (start : RecipeState host backstep).Derived := by
    intro material opened
    cases opened
  exact Run.invariant_run (fun state action derived _ => derived_act state action derived) actions
    start nothing (Run.along_always (fun _ _ => trivial) actions start)

/-- A redo after an undo gives the material and its positions back, except that the selected
relationship may be gone. It is refused only if that material fails its check. -/
theorem redo_after_undo {undone : RecipeState host backstep} (derived : state.Derived)
    (opened : state.material = some current)
    (stepped : state.stepHistory .undo = (undone, .restored)) :
    ∃ selected, (selected = current.snapshot.selectedRelationship ∨ selected = none) ∧
      ((∃ error, (current.withSelectedRelationship selected).validate = .error error ∧
        undone.stepHistory .redo = (undone, .refused error.text)) ∨
      ∃ history, undone.stepHistory .redo =
        (⟨some (current.withSelectedRelationship selected), history, state.scenePositions⟩,
          .restored)) := by
  rcases state.stepHistory_cases .undo with
    ⟨-, unstepped⟩ | ⟨before, entry, history, positions, openedBefore, same, taken, -, eq⟩
  · rw [stepped] at unstepped
    exact absurd rfl unstepped
  · cases Option.some.inj (opened.symm.trans openedBefore)
    obtain ⟨rfl, -⟩ := Prod.ext_iff.mp (stepped.symm.trans eq)
    obtain ⟨selected, kept, back⟩ := entry.restoreInto_restoreInto current
    obtain ⟨again, redone⟩ := Implementation.redo_of_undo taken
      (.fromMaterial (entry.restoreInto current))
    let recipe : RecipeHistory host backstep := { state.history with history := history }
    have sameAgain : recipe.ensureSource (entry.restoreInto current) = .ok () := same
    have takenAgain : recipe.backstepOf (entry.restoreInto current) .redo =
        some (.fromMaterial current, again) := redone
    refine ⟨selected, kept, ?_⟩
    rcases RecipeHistory.step_of_backstepOf sameAgain takenAgain with
      ⟨error, invalid, refused⟩ | ⟨valid, restored⟩
    · rw [back] at invalid
      exact .inl ⟨error, invalid, by simp [stepHistory, recipe, refused]⟩
    · rw [back] at valid restored
      have placed : (current.withSelectedRelationship selected).placed =
          .ok state.scenePositions := derived current opened
      have read := ProjectionRecipeMaterial.scenePositions_eq_ok_iff.mpr ⟨valid, placed⟩
      refine .inr ⟨{ recipe with history := again }, ?_⟩
      simp [stepHistory, recipe, restored, read]

end RecipeState

/-- In every session, a redo right after an undo brings back the recipe, its presentation and its
positions; a step that is refused changes nothing; a selection is no step; and a receipt for
anything but the current material changes nothing. -/
theorem recipe_history_round_trip (host : SceneHost)
    (backstep : Implementation (RecipeAuthored host)) (actions : List (RecipeAction host)) :
    let state : RecipeState host backstep := RecipeState.run actions
    (∀ current undone, state.material = some current →
      state.stepHistory .undo = (undone, .restored) →
      ∃ selected, (selected = current.snapshot.selectedRelationship ∨ selected = none) ∧
        ((∃ error, (current.withSelectedRelationship selected).validate = .error error ∧
          undone.stepHistory .redo = (undone, .refused error.text)) ∨
        ∃ history, undone.stepHistory .redo =
          (⟨some (current.withSelectedRelationship selected), history, state.scenePositions⟩,
            .restored))) ∧
    (∀ step, (state.stepHistory step).2 ≠ .restored → (state.stepHistory step).1 = state) ∧
    (∀ occurrence relationship, (state.select occurrence relationship).history = state.history ∧
      ∀ current, state.material = some current →
        (state.installEdit { current with snapshot := { current.snapshot with
          selectedOccurrence := occurrence
          selectedRelationship := relationship } }).history = state.history) ∧
    ∀ retained, state.material ≠ some retained → state.markRetained retained = state := by
  intro state
  have derived : state.Derived := RecipeState.derived_run actions
  refine ⟨?_, fun step => RecipeState.stepHistory_unrestored, ?_, ?_⟩
  · intro current undone opened stepped
    exact RecipeState.redo_after_undo derived opened stepped
  · intro occurrence relationship
    exact ⟨rfl, fun current opened =>
      RecipeState.installEdit_selection opened occurrence relationship⟩
  · intro retained other
    exact RecipeState.markRetained_other other

def labelHost : SceneHost where
  Recipe := String
  Dataset := Unit
  Role := Unit
  Trace := Unit
  Base := Unit
  Positions := Unit
  noPositions := ()
  relationshipKind _ := none
  relationships _ := []
  occurrences _ := []
  jsonLength _ := .ok 0
  compile _ _ := .ok ()
  canonical _ _ := .ok ()
  traceLength _ := 0
  traceBase _ := ()
  validateSteps _ _ := .ok ()
  positions _ _ := ()

def labelled (label : String) : labelHost.Material :=
  ⟨⟨label, "selection", none, none⟩, (), [], none⟩

def relabelling : List (RecipeAction labelHost) :=
  [.open_ (labelled "first") true, .edit (labelled "second")]

theorem recipe_history_round_trip_labelled :
    let edited : RecipeState labelHost (Implementation.ofStacks _ 64) :=
      RecipeState.run relabelling
    let undone := (edited.stepHistory .undo).1
    undone.material = some (labelled "first") ∧
      (undone.stepHistory .redo).1.material = some (labelled "second") := by
  intro edited undone
  refine ⟨rfl, ?_⟩
  obtain ⟨selected, kept, back⟩ := (recipe_history_round_trip labelHost
    (Implementation.ofStacks _ 64) relabelling).1 (labelled "second") undone rfl rfl
  have none_ : selected = none := by
    rcases kept with same | gone
    · exact same
    · exact gone
  subst none_
  rcases back with ⟨error, invalid, -⟩ | ⟨history, redone⟩
  · cases invalid
  · rw [redone]
    rfl

end KnotEditor.Desktop.Recipes
