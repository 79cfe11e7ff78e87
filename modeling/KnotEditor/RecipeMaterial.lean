import KnotEditor.Composition
import KnotEditor.Library.Fallible
import Mathlib.Data.Rat.Defs
import Mathlib.Algebra.Order.Ring.Rat

/-! Retained projection recipes: the copied input, the authored scene presentation, and their
checks. The recipe compiler and the scene traces belong to other crates and come in through
`SceneHost`. -/

namespace KnotEditor

open Composition

/-- An `f32`. The two zeros are equal and not told apart here. -/
inductive Single
  | nan
  | infinite (negative : Bool)
  | finite (value : ℚ)
  deriving DecidableEq

namespace Single

protected def beq : Single → Single → Bool
  | nan, _ => false
  | left, right => decide (left = right)

instance : BEq Single := ⟨Single.beq⟩

def isFinite : Single → Bool
  | finite _ => true
  | _ => false

def within (low high : ℚ) : Single → Bool
  | finite value => decide (low ≤ value ∧ value ≤ high)
  | _ => false

theorem beq_iff {left right : Single} : (left == right) = true ↔ left = right ∧ left ≠ nan := by
  cases left with
  | nan => simp [BEq.beq, Single.beq]
  | infinite negative => simp [BEq.beq, Single.beq]
  | finite value => simp [BEq.beq, Single.beq]

theorem ne_nan_of_isFinite {number : Single} (isFinite : number.isFinite = true) :
    number ≠ nan := by
  rintro rfl
  cases isFinite

end Single

structure RelationshipSnapshot (Recipe : Type) where
  recipe : Recipe
  sourceName : String
  selectedOccurrence : Option String
  selectedRelationship : Option String
  deriving DecidableEq

structure RecipeSourceAnchor where
  nodeId : String
  source : DocumentAnchor
  deriving DecidableEq

structure DisclosedRelationship where
  id : String
  kind : String

structure RecipeScenePresentation (Role Trace : Type) where
  version : UInt16
  overviewVisible : Bool
  backgroundVisible : Bool
  hiddenBackgroundCategories : List String
  foregroundOccurrences : List String
  motionRoles : List (String × Role)
  panX : Single
  panY : Single
  zoom : Single
  placementTrace : Option Trace

structure ProjectionRecipeMaterial (Recipe Dataset Role Trace : Type) where
  snapshot : RelationshipSnapshot Recipe
  dataset : Dataset
  anchors : List RecipeSourceAnchor
  presentation : Option (RecipeScenePresentation Role Trace)

/-- What a recipe's material takes from `serde_json`, the recipe compiler and the scene traces. -/
structure SceneHost where
  Recipe : Type
  Dataset : Type
  Role : Type
  Trace : Type
  Base : Type
  Positions : Type
  [recipeEq : DecidableEq Recipe]
  [datasetEq : DecidableEq Dataset]
  [roleEq : DecidableEq Role]
  [traceEq : DecidableEq Trace]
  [baseEq : DecidableEq Base]
  noPositions : Positions
  relationshipKind : Recipe → Option String
  relationships : Dataset → List DisclosedRelationship
  occurrences : Dataset → List String
  jsonLength : ProjectionRecipeMaterial Recipe Dataset Role Trace → Except String Nat
  compile : RelationshipSnapshot Recipe → Dataset → Except String Unit
  canonical : Dataset → List RecipeSourceAnchor → Except String Base
  traceLength : Trace → Nat
  traceBase : Trace → Base
  validateSteps : Base → Trace → Except CollectionError Unit
  positions : Base → Trace → Positions

namespace SceneHost

instance (host : SceneHost) : DecidableEq host.Recipe := host.recipeEq
instance (host : SceneHost) : DecidableEq host.Dataset := host.datasetEq
instance (host : SceneHost) : DecidableEq host.Role := host.roleEq
instance (host : SceneHost) : DecidableEq host.Trace := host.traceEq
instance (host : SceneHost) : DecidableEq host.Base := host.baseEq

abbrev Presentation (host : SceneHost) := RecipeScenePresentation host.Role host.Trace

abbrev Material (host : SceneHost) :=
  ProjectionRecipeMaterial host.Recipe host.Dataset host.Role host.Trace

end SceneHost

namespace RecipeScenePresentation

variable {Role Trace : Type} [DecidableEq Role] [DecidableEq Trace]

protected def beq (left right : RecipeScenePresentation Role Trace) : Bool :=
  left.version == right.version && left.overviewVisible == right.overviewVisible &&
    left.backgroundVisible == right.backgroundVisible &&
    left.hiddenBackgroundCategories == right.hiddenBackgroundCategories &&
    left.foregroundOccurrences == right.foregroundOccurrences &&
    decide (left.motionRoles = right.motionRoles) && left.panX == right.panX &&
    left.panY == right.panY && left.zoom == right.zoom &&
    decide (left.placementTrace = right.placementTrace)

instance : BEq (RecipeScenePresentation Role Trace) := ⟨RecipeScenePresentation.beq⟩

structure Numeric (presentation : RecipeScenePresentation Role Trace) : Prop where
  panX : presentation.panX ≠ .nan
  panY : presentation.panY ≠ .nan
  zoom : presentation.zoom ≠ .nan

theorem beq_iff {left right : RecipeScenePresentation Role Trace} :
    (left == right) = true ↔ left = right ∧ left.Numeric := by
  change left.beq right = true ↔ _
  simp only [RecipeScenePresentation.beq, Bool.and_eq_true, beq_iff_eq, decide_eq_true_eq,
    Single.beq_iff]
  constructor
  · rintro ⟨⟨⟨⟨⟨⟨⟨⟨⟨version, overview⟩, background⟩, categories⟩, foreground⟩, roles⟩, panX⟩, panY⟩,
      zoom⟩, trace⟩
    refine ⟨?_, panX.2, panY.2, zoom.2⟩
    cases left
    cases right
    simp only at version overview background categories foreground roles panX panY zoom trace
    rw [version, overview, background, categories, foreground, roles, panX.1, panY.1, zoom.1, trace]
  · rintro ⟨rfl, numeric⟩
    simp [numeric.panX, numeric.panY, numeric.zoom]

def validate (host : SceneHost) (presentation : host.Presentation) (dataset : host.Dataset) :
    Except CollectionError Unit := do
  if !(1 ≤ presentation.version && presentation.version ≤ 4) ||
      (presentation.version == 1 && !presentation.hiddenBackgroundCategories.isEmpty) ||
      (presentation.version < 3 && presentation.placementTrace.isSome) ||
      (presentation.version == 3 && presentation.placementTrace.isNone) ||
      (presentation.version < 4 && !presentation.motionRoles.isEmpty) ||
      (presentation.version == 4 && presentation.motionRoles.isEmpty) then
    .error (.invalid "unsupported recipe scene presentation version")
  if 256 < presentation.hiddenBackgroundCategories.length then
    .error (.invalid "too many recipe scene background categories")
  if presentation.hiddenBackgroundCategories.any fun category => category.isEmpty ||
      !(host.relationships dataset).any fun relationship => relationship.kind == category then
    .error (.invalid "recipe scene background category is invalid or undisclosed")
  if 256 < presentation.foregroundOccurrences.length ||
      presentation.foregroundOccurrences.any fun occurrence => occurrence.isEmpty ||
        !(host.occurrences dataset).contains occurrence then
    .error (.invalid "recipe scene foreground occurrence is invalid or undisclosed")
  if 256 < presentation.motionRoles.length ||
      presentation.motionRoles.any fun role => role.1.isEmpty ||
        !(host.occurrences dataset).contains role.1 then
    .error (.invalid "recipe scene motion role occurrence is invalid or undisclosed")
  if !presentation.panX.isFinite || !presentation.panY.isFinite ||
      !presentation.panX.within (-4) 4 || !presentation.panY.within (-4) 4 then
    .error (.invalid "recipe scene pan must be finite and within normalized bounds")
  if !presentation.zoom.isFinite || !presentation.zoom.within (1 / 4) 4 then
    .error (.invalid "recipe scene zoom must be finite and within bounds")

theorem numeric_of_validate {host : SceneHost} {presentation : host.Presentation}
    {dataset : host.Dataset} (valid : validate host presentation dataset = .ok ()) :
    presentation.Numeric := by
  simp only [validate, Fallible.refuse_eq_ok_iff] at valid
  obtain ⟨-, -, -, -, -, pan, zoom⟩ := valid
  simp only [Bool.or_eq_true, Bool.not_eq_eq_eq_not, Bool.not_true, not_or,
    Bool.not_eq_false] at pan
  obtain ⟨⟨⟨panX, panY⟩, -⟩, -⟩ := pan
  split at zoom
  next => cases zoom
  next bounded =>
    simp only [Bool.or_eq_true, Bool.not_eq_eq_eq_not, Bool.not_true, not_or,
      Bool.not_eq_false] at bounded
    exact ⟨Single.ne_nan_of_isFinite panX, Single.ne_nan_of_isFinite panY,
      Single.ne_nan_of_isFinite bounded.1⟩

end RecipeScenePresentation

namespace ProjectionRecipeMaterial

variable {host : SceneHost}

instance : BEq host.Material where
  beq left right := decide (left.snapshot = right.snapshot) &&
    decide (left.dataset = right.dataset) && decide (left.anchors = right.anchors) &&
    left.presentation == right.presentation

def withSelectedRelationship (material : host.Material) (selected : Option String) :
    host.Material :=
  { material with snapshot := { material.snapshot with selectedRelationship := selected } }

def validatePlacement (material : host.Material) (trace : host.Trace) :
    Except CollectionError Unit := do
  if 256 < host.traceLength trace then
    .error (.invalid "too many recipe scene placement steps")
  let base ← (host.canonical material.dataset material.anchors).mapError .invalid
  if host.traceBase trace ≠ base then
    .error (.invalid ("recipe scene placement belongs to different source material; " ++
      "reset scene presentation before rebinding"))
  host.validateSteps base trace

def validateAnchors (host : SceneHost) (dataset : host.Dataset) :
    List String → List RecipeSourceAnchor → Except CollectionError Unit
  | _, [] => .ok ()
  | seen, anchor :: rest => do
      if seen.contains anchor.nodeId || !(host.occurrences dataset).contains anchor.nodeId then
        .error (.invalid "recipe source anchor is duplicate or not disclosed")
      anchor.source.validateShape.mapError .anchor
      if anchor.source.sourceHash.isNone then
        .error (.invalid "recipe source anchor requires a full source hash")
      validateAnchors host dataset (anchor.nodeId :: seen) rest

def validatePresentation (material : host.Material) : Except CollectionError Unit :=
  match material.presentation with
  | none => .ok ()
  | some presentation => do
      RecipeScenePresentation.validate host presentation material.dataset
      match presentation.placementTrace with
      | none => .ok ()
      | some trace => material.validatePlacement trace

def validate (material : host.Material) : Except CollectionError Unit := do
  if 1024 < material.anchors.length then .error (.invalid "too many recipe source anchors")
  let bytes ← (host.jsonLength material).mapError .invalid
  if maxTextBytes < bytes then .error (.invalid "projection recipe material exceeds one MiB")
  (host.compile material.snapshot material.dataset).mapError fun issues =>
    .invalid s!"invalid projection recipe: {issues}"
  material.validatePresentation
  validateAnchors host material.dataset [] material.anchors

def placementTrace (material : host.Material) : Option host.Trace :=
  material.presentation.bind (·.placementTrace)

def placed (material : host.Material) : Except CollectionError host.Positions :=
  match material.placementTrace with
  | none => .ok host.noPositions
  | some trace => do
      let base ← (host.canonical material.dataset material.anchors).mapError .invalid
      return host.positions base trace

def scenePositions (material : host.Material) : Except CollectionError host.Positions := do
  material.validate
  material.placed

theorem validatePresentation_of_validate {material : host.Material}
    (valid : material.validate = .ok ()) : material.validatePresentation = .ok () := by
  simp only [validate, Fallible.refuse_eq_ok_iff, Fallible.bind_eq_ok_iff] at valid
  obtain ⟨-, _, -, -, _, -, _, presented, -⟩ := valid
  exact presented

theorem numeric_of_validate {material : host.Material} {presentation : host.Presentation}
    (valid : material.validate = .ok ()) (shown : material.presentation = some presentation) :
    presentation.Numeric := by
  have presented := validatePresentation_of_validate valid
  simp only [validatePresentation, shown, Fallible.then_eq_ok_iff] at presented
  exact RecipeScenePresentation.numeric_of_validate presented.1

theorem placed_of_validate {material : host.Material} (valid : material.validate = .ok ()) :
    ∃ positions, material.placed = .ok positions := by
  have presented := validatePresentation_of_validate valid
  rw [placed, placementTrace]
  cases shown : material.presentation with
  | none => exact ⟨_, rfl⟩
  | some presentation =>
    cases traced : presentation.placementTrace with
    | none => exact ⟨host.noPositions, by simp [traced]⟩
    | some trace =>
      simp only [validatePresentation, shown, traced, validatePlacement,
        Fallible.refuse_eq_ok_iff, Fallible.bind_eq_ok_iff] at presented
      obtain ⟨_, -, -, base, based, -⟩ := presented
      exact ⟨host.positions base trace, by simp [traced, based, bind, Except.bind, pure,
        Except.pure]⟩

theorem scenePositions_eq_ok_iff {material : host.Material} {positions : host.Positions} :
    material.scenePositions = .ok positions ↔
      material.validate = .ok () ∧ material.placed = .ok positions :=
  Fallible.then_eq_ok_iff

theorem scenePositions_of_validate {material : host.Material} (valid : material.validate = .ok ()) :
    ∃ positions, material.scenePositions = .ok positions := by
  obtain ⟨positions, placed⟩ := placed_of_validate valid
  exact ⟨positions, scenePositions_eq_ok_iff.mpr ⟨valid, placed⟩⟩

theorem presentation_beq_iff {left right : Option host.Presentation} :
    (left == right) = true ↔ left = right ∧ ∀ shown ∈ left, shown.Numeric := by
  cases left with
  | none => cases right <;> simp
  | some shown =>
    cases right with
    | none => simp
    | some other => simp [RecipeScenePresentation.beq_iff]

theorem beq_iff {left right : host.Material} :
    (left == right) = true ↔ left = right ∧ ∀ shown ∈ left.presentation, shown.Numeric := by
  change (decide _ && decide _ && decide _ && (left.presentation == right.presentation)) = true ↔ _
  simp only [Bool.and_eq_true, decide_eq_true_eq, presentation_beq_iff]
  constructor
  · rintro ⟨⟨⟨snapshot, dataset⟩, anchors⟩, shown, numeric⟩
    refine ⟨?_, numeric⟩
    cases left
    cases right
    simp only at snapshot dataset anchors shown
    rw [snapshot, dataset, anchors, shown]
  · rintro ⟨rfl, numeric⟩
    exact ⟨⟨⟨rfl, rfl⟩, rfl⟩, rfl, numeric⟩

end ProjectionRecipeMaterial

end KnotEditor
