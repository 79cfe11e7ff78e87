import KnotEditor.Library.UndoHistory
import KnotEditor.RecipeMaterial

/-! Session-only undo for authored relationship recipes and scene presentation. The copied dataset
and its source anchors stay with the current material. -/

namespace KnotEditor.Desktop.Recipes

open UndoHistory (Implementation)

structure RecipeAuthored (host : SceneHost) where
  snapshot : RelationshipSnapshot host.Recipe
  presentation : Option host.Presentation

namespace RecipeAuthored

variable {host : SceneHost}

def fromMaterial (material : host.Material) : RecipeAuthored host :=
  ⟨material.snapshot, material.presentation⟩

def differsAuthored (authored other : RecipeAuthored host) : Bool :=
  decide (authored.snapshot.recipe ≠ other.snapshot.recipe) ||
    !(authored.presentation == other.presentation)

def discloses (recipe : host.Recipe) (dataset : host.Dataset) (id : String) : Bool :=
  (host.relationships dataset).any fun relation => relation.id == id &&
    (host.relationshipKind recipe).all fun kind => kind == relation.kind

def restoreInto (authored : RecipeAuthored host) (current : host.Material) : host.Material :=
  let recipe := authored.snapshot.recipe
  let hidden := current.snapshot.selectedRelationship.any fun id =>
    !discloses recipe current.dataset id
  { current with
    snapshot := { current.snapshot with
      recipe := recipe
      selectedRelationship := if hidden then none else current.snapshot.selectedRelationship }
    presentation := authored.presentation }

end RecipeAuthored

inductive HistoryStep
  | undo
  | redo

structure RecipeHistory (host : SceneHost) (backstep : Implementation (RecipeAuthored host)) where
  history : backstep.History
  dataset : Option host.Dataset
  anchors : Option (List RecipeSourceAnchor)

namespace RecipeHistory

variable {host : SceneHost} {backstep : Implementation (RecipeAuthored host)}

def default_ : RecipeHistory host backstep := ⟨backstep.fresh, none, none⟩

def reset (recipe : RecipeHistory host backstep) (material : host.Material) (retained : Bool) :
    RecipeHistory host backstep :=
  let cleared := backstep.clear recipe.history
  { history := if retained then backstep.markSaved cleared else backstep.forgetSaved cleared
    dataset := some material.dataset
    anchors := some material.anchors }

def record (recipe : RecipeHistory host backstep) (before after : host.Material) :
    RecipeHistory host backstep :=
  if before.dataset ≠ after.dataset ∨ before.anchors ≠ after.anchors then recipe
  else if recipe.dataset ≠ some before.dataset ∨ recipe.anchors ≠ some before.anchors then recipe
  else
    let previous := RecipeAuthored.fromMaterial before
    let next := RecipeAuthored.fromMaterial after
    if previous.differsAuthored next then
      { recipe with history := backstep.record recipe.history previous }
    else recipe

def ensureSource (recipe : RecipeHistory host backstep) (current : host.Material) :
    Except String Unit :=
  if recipe.dataset ≠ some current.dataset ∨ recipe.anchors ≠ some current.anchors then
    .error "Recipe history belongs to a different source material; reset it before undo or redo."
  else .ok ()

/-- What the history is afterwards, and the restored material, none when there is no step. The
candidate is checked before the step is consumed. -/
def step (recipe : RecipeHistory host backstep) (current : host.Material) (step : HistoryStep) :
    RecipeHistory host backstep × Except String (Option host.Material) :=
  match recipe.ensureSource current with
  | .error error => (recipe, .error error)
  | .ok () =>
    let authored := RecipeAuthored.fromMaterial current
    let restored := match step with
      | .undo => backstep.undo recipe.history authored
      | .redo => backstep.redo recipe.history authored
    match restored with
    | none => (recipe, .ok none)
    | some (restored, candidateHistory) =>
      let candidate := restored.restoreInto current
      match candidate.validate with
      | .error error => (recipe, .error error.text)
      | .ok () => ({ recipe with history := candidateHistory }, .ok (some candidate))

def undo (recipe : RecipeHistory host backstep) (current : host.Material) :
    RecipeHistory host backstep × Except String (Option host.Material) :=
  recipe.step current .undo

def redo (recipe : RecipeHistory host backstep) (current : host.Material) :
    RecipeHistory host backstep × Except String (Option host.Material) :=
  recipe.step current .redo

def markRetained (recipe : RecipeHistory host backstep) (current retained : host.Material) :
    RecipeHistory host backstep :=
  if current == retained then { recipe with history := backstep.markSaved recipe.history }
  else recipe

def canUndo (recipe : RecipeHistory host backstep) : Bool := backstep.canUndo recipe.history

def canRedo (recipe : RecipeHistory host backstep) : Bool := backstep.canRedo recipe.history

def isDirty (recipe : RecipeHistory host backstep) : Bool := backstep.isDirty recipe.history

end RecipeHistory

structure RecipeState (host : SceneHost) (backstep : Implementation (RecipeAuthored host)) where
  material : Option host.Material
  history : RecipeHistory host backstep
  scenePositions : host.Positions

inductive StepOutcome
  | idle
  | restored
  | refused (error : String)
  deriving DecidableEq

namespace RecipeState

variable {host : SceneHost} {backstep : Implementation (RecipeAuthored host)}

def start : RecipeState host backstep := ⟨none, RecipeHistory.default_, host.noPositions⟩

def open_ (state : RecipeState host backstep) (material : host.Material) (retained : Bool) :
    RecipeState host backstep :=
  match material.scenePositions with
  | .error _ => state
  | .ok positions =>
    { material := some material
      history := state.history.reset material retained
      scenePositions := positions }

def installEdit (state : RecipeState host backstep) (candidate : host.Material) :
    RecipeState host backstep :=
  match candidate.scenePositions with
  | .error _ => state
  | .ok positions =>
    { material := some candidate
      history := match state.material with
        | none => state.history
        | some before => state.history.record before candidate
      scenePositions := positions }

def select (state : RecipeState host backstep) (occurrence relationship : Option String) :
    RecipeState host backstep :=
  { state with material := state.material.map fun material =>
      { material with snapshot := { material.snapshot with
          selectedOccurrence := occurrence
          selectedRelationship := relationship } } }

def stepHistory (state : RecipeState host backstep) (step : HistoryStep) :
    RecipeState host backstep × StepOutcome :=
  match state.material with
  | none => (state, .idle)
  | some current =>
    match state.history.step current step with
    | (history, .ok (some material)) =>
      match material.scenePositions with
      -- The step is gone from the history by now.
      | .error error => ({ state with history := history }, .refused error.text)
      | .ok positions => (⟨some material, history, positions⟩, .restored)
    | (history, .ok none) => ({ state with history := history }, .idle)
    | (history, .error error) => ({ state with history := history }, .refused error)

def markRetained (state : RecipeState host backstep) (retained : host.Material) :
    RecipeState host backstep :=
  match state.material with
  | none => state
  | some current => { state with history := state.history.markRetained current retained }

end RecipeState

inductive RecipeAction (host : SceneHost)
  | open_ (material : host.Material) (retained : Bool)
  | edit (candidate : host.Material)
  | select (occurrence relationship : Option String)
  | undo
  | redo
  | receipt (retained : host.Material)

variable {host : SceneHost} {backstep : Implementation (RecipeAuthored host)}

def RecipeState.act (state : RecipeState host backstep) :
    RecipeAction host → RecipeState host backstep
  | .open_ material retained => state.open_ material retained
  | .edit candidate => state.installEdit candidate
  | .select occurrence relationship => state.select occurrence relationship
  | .undo => (state.stepHistory .undo).1
  | .redo => (state.stepHistory .redo).1
  | .receipt retained => state.markRetained retained

def RecipeState.run (actions : List (RecipeAction host)) : RecipeState host backstep :=
  actions.foldl RecipeState.act RecipeState.start

end KnotEditor.Desktop.Recipes
