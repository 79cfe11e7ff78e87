import KnotEditor.RecipeMaterial
import Mathlib.Data.List.Sort

/-! The scene canvas of a recipe: what it draws of the compiled relationships, the actions of its
controls, and the drag that places an occurrence. -/

namespace KnotEditor.Desktop.Canvas

structure CanvasRelationship extends DisclosedRelationship where
  label : String
  fromOccurrence : String
  toOccurrence : String

/-- The rounded camera arithmetic, the motion presets and the placement steps of other crates. -/
structure CanvasHost extends SceneHost where
  Slot : Type
  disclosed : Dataset → List CanvasRelationship
  relationships_eq : ∀ dataset,
    relationships dataset = (disclosed dataset).map CanvasRelationship.toDisclosedRelationship
  panned : Single → Single → Single
  zoomed : Single → Single → Single
  presetSlot : String → Except String Slot
  boundedSpringSlot : Except String Slot
  withDynamics : Recipe → Option Slot → Recipe
  position : Positions → String → Option (Single × Single)
  newTrace : Base → Except CollectionError Trace
  appended : Base → Trace → String → Single × Single → Except CollectionError Trace

abbrev CanvasHost.Material (host : CanvasHost) := host.toSceneHost.Material

abbrev CanvasHost.Presentation (host : CanvasHost) := host.toSceneHost.Presentation

variable {host : CanvasHost}

section presentations

variable {Role Trace : Type}

def defaultPresentation : RecipeScenePresentation Role Trace where
  version := 1
  overviewVisible := false
  backgroundVisible := true
  hiddenBackgroundCategories := []
  foregroundOccurrences := []
  motionRoles := []
  panX := .finite 0
  panY := .finite 0
  zoom := .finite 1
  placementTrace := none

def refreshVersion (presentation : RecipeScenePresentation Role Trace) :
    RecipeScenePresentation Role Trace :=
  { presentation with
    version :=
      if !presentation.motionRoles.isEmpty then 4
      else if presentation.placementTrace.isSome then 3
      else if !presentation.hiddenBackgroundCategories.isEmpty then 2
      else 1 }

/-- `BTreeSet::insert` on a set as the list of its elements in order. -/
def insertName (name : String) (names : List String) : List String :=
  if names.contains name then names else names.orderedInsert (· ≤ ·) name

def insertRole (id : String) (role : Role) (roles : List (String × Role)) :
    List (String × Role) :=
  (roles.filter fun other => other.1 != id).orderedInsert (fun one two => one.1 ≤ two.1) (id, role)

end presentations

def isPositive : Single → Bool
  | .finite value => decide (0 < value)
  | .infinite negative => !negative
  | .nan => false

def withinUnit (position : Single × Single) : Bool :=
  position.1.isFinite && position.2.isFinite && position.1.within 0 1 && position.2.within 0 1

def maxSteps : Nat := 256

def moveHidden : String := "recipe scene placement occurrence is hidden"

def traceOr (base : host.Base) (presentation : host.Presentation) :
    Except CollectionError host.Trace :=
  match presentation.placementTrace with
  | some trace => .ok trace
  | none => host.newTrace base

def moveSceneOccurrence (material : host.Material) (id : String) (position : Single × Single) :
    Except CollectionError (Option host.Material) := do
  material.validate
  if !withinUnit position then
    .error (.invalid "recipe scene placement must be finite and within normalized bounds")
  let base ← (host.canonical material.dataset material.anchors).mapError .invalid
  if !(host.occurrences material.dataset).contains id then
    .error (.invalid "recipe scene placement occurrence is not disclosed")
  let presentation := material.presentation.getD defaultPresentation
  let related := (host.disclosed material.dataset).any fun relation =>
    (host.relationshipKind material.snapshot.recipe).all (· == relation.kind) &&
      !presentation.hiddenBackgroundCategories.contains relation.kind &&
      (relation.fromOccurrence == id || relation.toOccurrence == id)
  let visible := presentation.overviewVisible &&
    (presentation.foregroundOccurrences.contains id || (presentation.backgroundVisible &&
      (presentation.hiddenBackgroundCategories.isEmpty || related)))
  if !visible then .error (.invalid moveHidden)
  let trace ← traceOr base presentation
  if host.position (host.positions base trace) id == some position then return none
  if maxSteps ≤ host.traceLength trace then
    .error (.invalid "too many recipe scene placement steps")
  let next ← host.appended base trace id position
  let candidate := { material with
    presentation := some (refreshVersion { presentation with placementTrace := some next }) }
  candidate.validate
  return some candidate

/-- `CompiledRelationshipProjection`: an item is known by its normalized centre. -/
structure Compiled where
  instanceByOccurrence : String → Option Nat
  items : List (Single × Single)
  labels : Nat → Option String
  relationships : List CanvasRelationship

structure SceneDrag (host : CanvasHost) where
  id : String
  before : host.Material
  preview : Option (Single × Single)

inductive SceneLayer
  | background
  | foreground

structure CanvasNode where
  id : String
  kind : SceneLayer
  position : Single × Single
  label : String
  key : Option String

structure CanvasRelation where
  id : String
  fromNode : String
  toNode : String
  kind : String
  label : String
  route : List (Single × Single)
  visible : Bool
  emphasized : Bool

structure Swatch where
  nodes : List CanvasNode
  relations : List CanvasRelation
  size : Nat × Nat
  label : String
  selected : Option String
  pan : Single × Single
  zoom : Single

def visibleOccurrenceIds (material : host.Material) (compiled : Compiled) : List String :=
  let presentation := material.presentation.getD defaultPresentation
  let relatedBackground :=
    if presentation.hiddenBackgroundCategories.isEmpty then []
    else (compiled.relationships.filter fun relation =>
      !presentation.hiddenBackgroundCategories.contains relation.kind).flatMap fun relation =>
        [relation.fromOccurrence, relation.toOccurrence]
  (host.occurrences material.dataset).filter fun id =>
    presentation.foregroundOccurrences.contains id || (presentation.backgroundVisible &&
      (presentation.hiddenBackgroundCategories.isEmpty || relatedBackground.contains id))

def swatchNodeVisible (material : host.Material) (compiled : Compiled) (id : String) : Bool :=
  (visibleOccurrenceIds material compiled).contains id

/-- A relation between two foreground occurrences, or a background one whose ends are visible. -/
def relationVisible (material : host.Material) (compiled : Compiled)
    (relation : CanvasRelationship) : Bool :=
  let presentation := material.presentation.getD defaultPresentation
  (presentation.foregroundOccurrences.contains relation.fromOccurrence &&
    presentation.foregroundOccurrences.contains relation.toOccurrence) ||
  (presentation.backgroundVisible &&
    !presentation.hiddenBackgroundCategories.contains relation.kind &&
    swatchNodeVisible material compiled relation.fromOccurrence &&
    swatchNodeVisible material compiled relation.toOccurrence)

def swatchRelationVisible (material : host.Material) (compiled : Compiled) (id : String) : Bool :=
  (compiled.relationships.find? fun relation => relation.id == id).any
    (relationVisible material compiled)

section swatch

variable (material : host.Material) (compiled : Compiled)
  (authored : String → Option (Single × Single)) (drag : Option (SceneDrag host))

def placeOf (id : String) : Option (Nat × (Single × Single)) := do
  let found ← compiled.instanceByOccurrence id
  let centre ← compiled.items[found]?
  let previewed := (drag.filter fun drag => drag.before == material && drag.id == id).bind
    (·.preview)
  return (found, ((previewed <|> authored id).getD centre))

def nodeOf (id : String) : Option CanvasNode := do
  let (found, position) ← placeOf material compiled authored drag id
  if !swatchNodeVisible material compiled id then none
  let presentation := material.presentation.getD defaultPresentation
  return {
    id
    kind := if presentation.foregroundOccurrences.contains id then .foreground else .background
    position
    label := s!"{(compiled.labels found).getD id} · {id}"
    key := some id }

def positionOf (id : String) : Option (Single × Single) :=
  if (host.occurrences material.dataset).contains id then
    (placeOf material compiled authored drag id).map Prod.snd
  else none

def relationOf (relation : CanvasRelationship) : Option CanvasRelation := do
  let start ← positionOf material compiled authored drag relation.fromOccurrence
  let finish ← positionOf material compiled authored drag relation.toOccurrence
  if !relationVisible material compiled relation then none
  return {
    id := relation.id
    fromNode := relation.fromOccurrence
    toNode := relation.toOccurrence
    kind := relation.kind
    label := relation.label
    route := [start, finish]
    visible := true
    emphasized := material.snapshot.selectedRelationship == some relation.id }

def swatchWithPreview : Swatch :=
  let presentation := material.presentation.getD defaultPresentation
  { nodes := (host.occurrences material.dataset).filterMap
      (nodeOf material compiled authored drag)
    relations := compiled.relationships.filterMap (relationOf material compiled authored drag)
    size := (220, 200)
    label := "Authored relationship scene"
    selected := material.snapshot.selectedOccurrence
    pan := (presentation.panX, presentation.panY)
    zoom := presentation.zoom }

end swatch

inductive SceneAction (host : CanvasHost)
  | overview (visible : Bool)
  | background (visible : Bool)
  | backgroundCategory (kind : String) (visible : Bool)
  | showAllBackgroundCategories
  | promoteSelected
  | demoteSelected
  | pan (dx dy : Single)
  | zoom (factor : Single)
  | fit
  | reset
  | moveOccurrence (id : String) (position : Single × Single)
  | selectOccurrence (id : String)
  | selectRelationship (id : String)
  | motionPreset (id : Option String)
  | motionBoundedSpring
  | motionRole (role : host.Role)
  | clearMotionRoles

section actions

variable (material : host.Material)

def present (change : host.Presentation → host.Presentation) : host.Material :=
  { material with presentation := some (change (material.presentation.getD defaultPresentation)) }

def selectedOr (refusal : String) : Except String String :=
  match material.snapshot.selectedOccurrence with
  | some id => .ok id
  | none => .error refusal

def initialForeground : Option String :=
  (material.snapshot.selectedOccurrence.filter (host.occurrences material.dataset).contains) <|>
    (host.occurrences material.dataset).head?

def withMotion (slot : Option host.Slot) : host.Material :=
  { material with snapshot := { material.snapshot with
      recipe := host.withDynamics material.snapshot.recipe slot } }

/-- `apply_action` until it compares its candidate with the material. -/
def candidateOf : SceneAction host → Except String host.Material
  | .selectOccurrence id => .ok { material with snapshot := { material.snapshot with
      selectedOccurrence := some id, selectedRelationship := none } }
  | .selectRelationship id =>
    match (host.disclosed material.dataset).find? fun relation => relation.id == id &&
        (host.relationshipKind material.snapshot.recipe).all (· == relation.kind) with
    | none => .error "The selected relationship is no longer disclosed."
    | some relation => .ok { material with snapshot := { material.snapshot with
        selectedRelationship := some id
        selectedOccurrence := some relation.fromOccurrence } }
  | .overview visible =>
    let first := if visible && material.presentation.isNone then initialForeground material
      else none
    .ok (present material fun presentation => { presentation with
      foregroundOccurrences := first.elim presentation.foregroundOccurrences
        (insertName · presentation.foregroundOccurrences)
      overviewVisible := visible })
  | .background visible =>
    .ok (present material fun presentation => { presentation with backgroundVisible := visible })
  | .backgroundCategory kind visible =>
    if !(host.relationships material.dataset).any fun relation => relation.kind == kind then
      .error "The background category is not disclosed by this recipe."
    else .ok (present material fun presentation => refreshVersion { presentation with
      hiddenBackgroundCategories :=
        if visible then presentation.hiddenBackgroundCategories.filter (· != kind)
        else insertName kind presentation.hiddenBackgroundCategories })
  | .showAllBackgroundCategories =>
    .ok (present material fun presentation =>
      refreshVersion { presentation with hiddenBackgroundCategories := [] })
  | .promoteSelected => do
    let selected ← selectedOr material "Select an occurrence before changing its scene layer."
    return present material fun presentation => { presentation with
      foregroundOccurrences := insertName selected presentation.foregroundOccurrences }
  | .demoteSelected => do
    let selected ← selectedOr material "Select an occurrence before changing its scene layer."
    return present material fun presentation => { presentation with
      foregroundOccurrences := presentation.foregroundOccurrences.filter (· != selected) }
  | .pan dx dy =>
    if !dx.isFinite || !dy.isFinite then .error "Scene pan values must be finite."
    else .ok (present material fun presentation => { presentation with
      panX := host.panned presentation.panX dx
      panY := host.panned presentation.panY dy })
  | .zoom factor =>
    if !factor.isFinite || !isPositive factor then
      .error "Scene zoom factor must be finite and positive."
    else .ok (present material fun presentation => { presentation with
      zoom := host.zoomed presentation.zoom factor })
  | .fit => .ok (present material fun presentation => { presentation with
      panX := .finite 0, panY := .finite 0, zoom := .finite 1 })
  | .reset => .ok { material with presentation := none }
  | .motionPreset none => .ok (withMotion material none)
  | .motionPreset (some id) => (host.presetSlot id).map fun slot => withMotion material (some slot)
  | .motionRole role => do
    let id ← selectedOr material "Select an occurrence before assigning a motion role."
    return present material fun presentation => refreshVersion { presentation with
      motionRoles := insertRole id role presentation.motionRoles }
  | .motionBoundedSpring =>
    host.boundedSpringSlot.map fun slot => withMotion material (some slot)
  | .clearMotionRoles => .ok { material with
      presentation := material.presentation.map fun presentation =>
        refreshVersion { presentation with motionRoles := [] } }
  | .moveOccurrence id position =>
    match moveSceneOccurrence material id position with
    | .error error => .error s!"Scene placement refused: {error.text}"
    | .ok moved => .ok (moved.getD material)

def applyAction (action : SceneAction host) : host.Material × Except String Bool :=
  match candidateOf material action with
  | .error error => (material, .error error)
  | .ok candidate =>
    if candidate == material then (material, .ok false)
    else match candidate.validate with
      | .error error => (material, .error s!"Scene presentation refused: {error.text}")
      | .ok () => (candidate, .ok true)

end actions

inductive DragPhase
  | down
  | move
  | up
  | cancel
  deriving DecidableEq

structure NodeDrag where
  id : String
  phase : DragPhase
  position : Single × Single

inductive CanvasEvent
  | activate (id : String)
  | relationActivate (id : String)
  | pan (dx dy : Single)
  | zoom (factor : Single)
  | drag (drag : NodeDrag)
  | expand

def applyCanvasEvent (material : host.Material) (compiled : Compiled) :
    CanvasEvent → host.Material × Except String Bool
  | .activate id =>
    if !swatchNodeVisible material compiled id then (material, .ok false)
    else applyAction material (.selectOccurrence id)
  | .relationActivate id =>
    if !swatchRelationVisible material compiled id then (material, .ok false)
    else applyAction material (.selectRelationship id)
  | .pan dx dy => applyAction material (.pan dx dy)
  | .zoom factor => applyAction material (.zoom factor)
  | .drag drag =>
    if drag.phase ≠ .up || !swatchNodeVisible material compiled drag.id then (material, .ok false)
    else applyAction material (.moveOccurrence drag.id drag.position)
  | .expand => (material, .ok false)

structure DragState (host : CanvasHost) where
  material : Option host.Material
  sceneDrag : Option (SceneDrag host) := none

def dragPhase (state : DragState host) (material : host.Material) (compiled : Compiled)
    (drag : NodeDrag) : DragState host × Except String (Option host.Material) :=
  let pending := state.sceneDrag.filter fun pending =>
    pending.id == drag.id && pending.before == material
  match drag.phase with
  | .cancel => ({ state with sceneDrag := none }, .ok none)
  | .down => ({ state with sceneDrag := some ⟨drag.id, material, none⟩ }, .ok none)
  | .move =>
    ({ state with
      sceneDrag := pending.map fun pending => { pending with preview := some drag.position } },
      .ok none)
  | .up =>
    -- A click or abandoned secondary press is not a placement edit.
    let edited := if pending.any fun pending => pending.preview.isSome then
        match applyCanvasEvent material compiled (.drag drag) with
        | (_, .error error) => .error error
        | (candidate, .ok changed) => .ok (if changed then some candidate else none)
      else .ok none
    ({ state with sceneDrag := none }, edited)

def handleDrag (state : DragState host) (compiled : Compiled) (drag : NodeDrag) :
    DragState host × Except String (Option host.Material) :=
  match state.material with
  | none => (state, .ok none)
  | some material =>
    if !withinUnit drag.position then
      ({ state with sceneDrag := none },
        .error "Scene placement requires finite normalized coordinates.")
    else if !(material.presentation.any (·.overviewVisible)) ||
        !swatchNodeVisible material compiled drag.id then
      ({ state with sceneDrag := none }, .ok none)
    else dragPhase state material compiled drag

inductive CanvasMoment (host : CanvasHost)
  | drag (compiled : Compiled) (drag : NodeDrag)
  | change (material : host.Material)
  | forget

def DragState.step (state : DragState host) : CanvasMoment host → DragState host
  | .drag compiled drag => (handleDrag state compiled drag).1
  | .change material => { state with material := some material }
  | .forget => { state with sceneDrag := none }

def DragState.run (state : DragState host) (moments : List (CanvasMoment host)) : DragState host :=
  moments.foldl DragState.step state

/-- An event that is not refused: its place is on the canvas, and its occurrence shown. -/
def Accepted (material : host.Material) (compiled : Compiled) (drag : NodeDrag) : Prop :=
  withinUnit drag.position = true ∧
    material.presentation.any (·.overviewVisible) = true ∧
    swatchNodeVisible material compiled drag.id = true

/-- The moments since an occurrence was pressed on this material, with the one they end on and
whether they hold a move: moves of that occurrence over an equal material, and other changes. -/
inductive Gesture (id : String) (before : host.Material) :
    List (CanvasMoment host) → host.Material → Bool → Prop
  | down {compiled : Compiled} {drag : NodeDrag} (same : drag.id = id)
      (phase : drag.phase = .down) (accepted : Accepted before compiled drag) :
      Gesture id before [.drag compiled drag] before false
  | move {log : List (CanvasMoment host)} {material : host.Material} {moved : Bool}
      {compiled : Compiled} {drag : NodeDrag} (gesture : Gesture id before log material moved)
      (same : drag.id = id) (phase : drag.phase = .move)
      (accepted : Accepted material compiled drag) (equal : (before == material) = true) :
      Gesture id before (log ++ [.drag compiled drag]) material true
  | change {log : List (CanvasMoment host)} {material : host.Material} {moved : Bool}
      (gesture : Gesture id before log material moved) (next : host.Material) :
      Gesture id before (log ++ [.change next]) next moved

/-- What placement steps are relied on for: a new trace places nothing, and a step one occurrence. -/
structure Places (host : CanvasHost) : Prop where
  none_ : ∀ id, host.position host.noPositions id = none
  newTrace : ∀ {base trace}, host.newTrace base = .ok trace →
    ∀ id, host.position (host.positions base trace) id = none
  appended : ∀ {base trace id position next}, host.appended base trace id position = .ok next →
    ∀ other, host.position (host.positions base next) other =
      if other = id then some position else host.position (host.positions base trace) other

structure Moves (material candidate : host.Material) (id : String)
    (position : Single × Single) : Prop where
  trace : ∃ trace, candidate = present material fun presentation =>
    refreshVersion { presentation with placementTrace := some trace }
  placed : ∃ before after, material.placed = .ok before ∧ candidate.placed = .ok after ∧
    ∀ other, host.position after other =
      if other = id then some position else host.position before other

section swatches

variable {material : host.Material} {compiled : Compiled} {id : String}
  {authored : String → Option (Single × Single)} {drag : Option (SceneDrag host)}
  {relation : CanvasRelationship}

def OneInstance (material : host.Material) (compiled : Compiled) : Prop :=
  ∀ id ∈ host.occurrences material.dataset,
    ∃ found centre, compiled.instanceByOccurrence id = some found ∧
      compiled.items[found]? = some centre

theorem foreground_of_validate (valid : material.validate = .ok ())
    (foreground : (material.presentation.getD defaultPresentation).foregroundOccurrences.contains
      id = true) : id ∈ host.occurrences material.dataset := by
  have presented := ProjectionRecipeMaterial.validatePresentation_of_validate valid
  cases shown : material.presentation with
  | none =>
    rw [shown] at foreground
    cases foreground
  | some presentation =>
    rw [shown, Option.getD_some] at foreground
    simp only [ProjectionRecipeMaterial.validatePresentation, shown,
      Fallible.then_eq_ok_iff, RecipeScenePresentation.validate,
      Fallible.refuse_eq_ok_iff] at presented
    obtain ⟨⟨-, -, -, disclosed, -⟩, -⟩ := presented
    by_contra missing
    simp only [Bool.or_eq_true, List.any_eq_true, not_or, not_exists, not_and] at disclosed
    exact (disclosed.2 id (List.contains_iff_mem.mp foreground)).2 (by simpa using missing)

theorem swatchNodeVisible_of_foreground (valid : material.validate = .ok ())
    (foreground : (material.presentation.getD defaultPresentation).foregroundOccurrences.contains
      id = true) : swatchNodeVisible material compiled id = true := by
  rw [swatchNodeVisible, List.contains_iff_mem, visibleOccurrenceIds, List.mem_filter]
  exact ⟨foreground_of_validate valid foreground, by rw [foreground, Bool.true_or]⟩

theorem occurrence_of_visible (visible : swatchNodeVisible material compiled id = true) :
    id ∈ host.occurrences material.dataset :=
  List.mem_of_mem_filter (List.contains_iff_mem.mp visible)

theorem ends_visible (valid : material.validate = .ok ())
    (visible : relationVisible material compiled relation = true) :
    swatchNodeVisible material compiled relation.fromOccurrence = true ∧
      swatchNodeVisible material compiled relation.toOccurrence = true := by
  simp only [relationVisible, Bool.or_eq_true, Bool.and_eq_true] at visible
  rcases visible with ⟨start, finish⟩ | ⟨⟨_, start⟩, finish⟩
  · exact ⟨swatchNodeVisible_of_foreground valid start,
      swatchNodeVisible_of_foreground valid finish⟩
  · exact ⟨start, finish⟩

theorem placeOf_isSome (placed : OneInstance material compiled)
    (occurrence : id ∈ host.occurrences material.dataset) :
    ∃ place, placeOf material compiled authored drag id = some place := by
  obtain ⟨found, centre, instanced, item⟩ := placed id occurrence
  exact ⟨_, by simp [placeOf, instanced, item]; rfl⟩

theorem positionOf_isSome (placed : OneInstance material compiled)
    (visible : swatchNodeVisible material compiled id = true) :
    ∃ position, positionOf material compiled authored drag id = some position := by
  have occurrence := occurrence_of_visible visible
  obtain ⟨place, there⟩ := placeOf_isSome placed occurrence
  refine ⟨place.2, ?_⟩
  rw [positionOf, if_pos (List.contains_iff_mem.mpr occurrence), there]
  rfl

theorem nodeOf_id {node : CanvasNode}
    (drawn : nodeOf material compiled authored drag id = some node) :
    node.id = id ∧ swatchNodeVisible material compiled id = true := by
  simp only [nodeOf, Option.bind_eq_bind, Option.bind_eq_some_iff] at drawn
  obtain ⟨place, _, drawn⟩ := drawn
  split at drawn
  · cases drawn
  next visible =>
    rw [Bool.not_eq_true, Bool.not_eq_false'] at visible
    cases drawn
    exact ⟨rfl, visible⟩

theorem node_drawn (placed : OneInstance material compiled)
    (visible : swatchNodeVisible material compiled id = true) :
    ∃ node ∈ (swatchWithPreview material compiled authored drag).nodes, node.id = id := by
  have occurrence := occurrence_of_visible visible
  obtain ⟨place, there⟩ := @placeOf_isSome _ _ _ _ authored drag placed occurrence
  have drawn : ∃ node, nodeOf material compiled authored drag id = some node := by
    simp [nodeOf, there, visible]
  obtain ⟨node, drawn⟩ := drawn
  exact ⟨node, List.mem_filterMap.mpr ⟨id, occurrence, drawn⟩, (nodeOf_id drawn).1⟩

theorem node_drawn_iff (placed : OneInstance material compiled) :
    (∃ node ∈ (swatchWithPreview material compiled authored drag).nodes, node.id = id) ↔
      swatchNodeVisible material compiled id = true := by
  constructor
  · rintro ⟨node, member, rfl⟩
    obtain ⟨other, _, drawn⟩ := List.mem_filterMap.mp member
    obtain ⟨same, visible⟩ := nodeOf_id drawn
    rw [same]
    exact visible
  · exact node_drawn placed

theorem relationOf_some {drawn : CanvasRelation}
    (found : relationOf material compiled authored drag relation = some drawn) :
    drawn.id = relation.id ∧ drawn.fromNode = relation.fromOccurrence ∧
      drawn.toNode = relation.toOccurrence ∧
      relationVisible material compiled relation = true := by
  simp only [relationOf, Option.bind_eq_bind, Option.bind_eq_some_iff] at found
  obtain ⟨start, _, finish, _, found⟩ := found
  split at found
  · cases found
  next visible =>
    rw [Bool.not_eq_true, Bool.not_eq_false'] at visible
    cases found
    exact ⟨rfl, rfl, rfl, visible⟩

theorem relation_drawn (valid : material.validate = .ok ()) (placed : OneInstance material compiled)
    (member : relation ∈ compiled.relationships)
    (visible : relationVisible material compiled relation = true) :
    ∃ drawn ∈ (swatchWithPreview material compiled authored drag).relations,
      drawn.id = relation.id := by
  obtain ⟨fromVisible, toVisible⟩ := ends_visible valid visible
  obtain ⟨start, from_⟩ := @positionOf_isSome _ _ _ _ authored drag placed fromVisible
  obtain ⟨finish, to_⟩ := @positionOf_isSome _ _ _ _ authored drag placed toVisible
  have found : ∃ drawn, relationOf material compiled authored drag relation = some drawn := by
    simp [relationOf, from_, to_, visible]
  obtain ⟨drawn, found⟩ := found
  exact ⟨drawn, List.mem_filterMap.mpr ⟨relation, member, found⟩, (relationOf_some found).1⟩

theorem find_of_nodup {relations : List CanvasRelationship}
    (distinct : (relations.map fun relation => relation.id).Nodup) (member : relation ∈ relations) :
    relations.find? (fun other => other.id == relation.id) = some relation := by
  induction relations with
  | nil => cases member
  | cons first rest ih =>
    rw [List.map_cons, List.nodup_cons] at distinct
    rcases List.mem_cons.mp member with rfl | later
    · rw [List.find?_cons_of_pos (by simp)]
    · rw [List.find?_cons_of_neg, ih distinct.2 later]
      intro same
      exact distinct.1 (List.mem_map.mpr ⟨relation, later, (beq_iff_eq.mp same).symm⟩)

theorem swatchRelationVisible_iff
    (distinct : (compiled.relationships.map fun relation => relation.id).Nodup) :
    swatchRelationVisible material compiled id = true ↔
      ∃ relation ∈ compiled.relationships, relation.id = id ∧
        relationVisible material compiled relation = true := by
  rw [swatchRelationVisible, Option.any_eq_true]
  constructor
  · rintro ⟨relation, found, visible⟩
    have same := List.find?_some found
    exact ⟨relation, List.mem_of_find?_eq_some found, beq_iff_eq.mp same, visible⟩
  · rintro ⟨relation, member, rfl, visible⟩
    exact ⟨relation, find_of_nodup distinct member, visible⟩

theorem relation_drawn_iff (valid : material.validate = .ok ())
    (placed : OneInstance material compiled)
    (distinct : (compiled.relationships.map fun relation => relation.id).Nodup) :
    (∃ drawn ∈ (swatchWithPreview material compiled authored drag).relations, drawn.id = id) ↔
      swatchRelationVisible material compiled id = true := by
  rw [swatchRelationVisible_iff distinct]
  constructor
  · rintro ⟨drawn, member, rfl⟩
    obtain ⟨relation, related, found⟩ := List.mem_filterMap.mp member
    obtain ⟨same, _, _, visible⟩ := relationOf_some found
    exact ⟨relation, related, same.symm, visible⟩
  · rintro ⟨relation, member, rfl, visible⟩
    exact relation_drawn valid placed member visible

end swatches

theorem applyAction_cases (material : host.Material) (action : SceneAction host) :
    ((applyAction material action).2 = .ok true →
      (applyAction material action).1.validate = .ok ()) ∧
      ((applyAction material action).2 ≠ .ok true → (applyAction material action).1 = material) := by
  rw [applyAction]
  split
  · exact ⟨fun failed => (by cases failed), fun _ => rfl⟩
  next candidate _ =>
    split
    · exact ⟨fun failed => (by cases failed), fun _ => rfl⟩
    · split
      · exact ⟨fun failed => (by cases failed), fun _ => rfl⟩
      next valid => exact ⟨fun _ => valid, fun refused => absurd rfl refused⟩

section drags

variable {material candidate : host.Material} {state : DragState host} {compiled : Compiled}
  {drag : NodeDrag} {pending : SceneDrag host}

theorem placed_eq {base : host.Base}
    (based : host.canonical material.dataset material.anchors = .ok base) :
    material.placed = .ok ((material.presentation.bind (·.placementTrace)).elim host.noPositions
      (host.positions base)) := by
  rw [ProjectionRecipeMaterial.placed, ProjectionRecipeMaterial.placementTrace]
  cases material.presentation.bind (·.placementTrace) with
  | none => rfl
  | some trace =>
    simp only [based, Except.mapError, Option.elim_some]
    rfl

theorem position_traceOr (places : Places host) {base : host.Base} {trace : host.Trace}
    (traced : traceOr base (material.presentation.getD defaultPresentation) = .ok trace)
    (other : String) : host.position (host.positions base trace) other =
      host.position ((material.presentation.bind (·.placementTrace)).elim host.noPositions
        (host.positions base)) other := by
  cases shown : material.presentation with
  | none =>
    rw [shown] at traced
    exact (places.newTrace traced other).trans (places.none_ other).symm
  | some presentation =>
    rw [shown, traceOr, Option.getD_some] at traced
    rw [Option.bind_some]
    cases held : presentation.placementTrace with
    | none =>
      rw [held] at traced
      exact (places.newTrace traced other).trans (places.none_ other).symm
    | some earlier =>
      rw [held] at traced
      obtain rfl := Except.ok.inj traced
      rfl

theorem moves_of_moveSceneOccurrence (places : Places host) {id : String}
    {position : Single × Single}
    (moved : moveSceneOccurrence material id position = .ok (some candidate)) :
    Moves material candidate id position := by
  simp only [moveSceneOccurrence, Fallible.refuse_eq_ok_iff, Fallible.bind_eq_ok_iff,
    Fallible.mapError_eq_ok_iff] at moved
  obtain ⟨_, _, _, base, canonical, _, _, trace, traced, moved⟩ := moved
  split at moved
  · cases moved
  · simp only [Fallible.refuse_eq_ok_iff, Fallible.bind_eq_ok_iff] at moved
    obtain ⟨_, next, appended, _, _, found⟩ := moved
    cases found
    refine ⟨⟨next, rfl⟩, _, _, placed_eq canonical, placed_eq canonical, fun other => ?_⟩
    rw [← position_traceOr places traced other]
    exact places.appended appended other

theorem moves_of_applyAction (places : Places host) {id : String} {position : Single × Single}
    (applied : applyAction material (.moveOccurrence id position) = (candidate, .ok true)) :
    Moves material candidate id position := by
  rw [applyAction, candidateOf] at applied
  cases moved : moveSceneOccurrence material id position with
  | error error =>
    rw [moved] at applied
    cases applied
  | ok outcome =>
    simp only [moved] at applied
    cases outcome with
    | none =>
      have valid : material.validate = .ok () := by
        simp only [moveSceneOccurrence, Fallible.then_eq_ok_iff] at moved
        exact moved.1
      have same : (material == material) = true :=
        ProjectionRecipeMaterial.beq_iff.mpr ⟨rfl, fun shown here =>
          ProjectionRecipeMaterial.numeric_of_validate valid here⟩
      rw [Option.getD_none, if_pos same] at applied
      cases applied
    | some next =>
      rw [Option.getD_some] at applied
      split at applied
      · cases applied
      · split at applied
        · cases applied
        · cases applied
          exact moves_of_moveSceneOccurrence places moved

theorem handleDrag_pending (held : (handleDrag state compiled drag).1.sceneDrag = some pending) :
    state.material = none ∨ ∃ material, state.material = some material ∧
      Accepted material compiled drag ∧
      (drag.phase = .down ∧ pending = ⟨drag.id, material, none⟩ ∨
        drag.phase = .move ∧ ∃ prior, state.sceneDrag = some prior ∧ prior.id = drag.id ∧
          (prior.before == material) = true ∧
          pending = { prior with preview := some drag.position }) := by
  rw [handleDrag] at held
  split at held
  next empty => exact .inl empty
  next material there =>
    refine .inr ⟨material, there, ?_⟩
    split at held
    · cases held
    next within =>
      split at held
      · cases held
      next shown =>
        rw [Bool.not_eq_true, Bool.not_eq_false'] at within
        simp only [Bool.or_eq_true, Bool.not_eq_true', not_or, Bool.not_eq_false] at shown
        refine ⟨⟨within, shown⟩, ?_⟩
        rw [dragPhase] at held
        dsimp only at held
        split at held
        · cases held
        next phase =>
          cases held
          exact .inl ⟨phase, rfl⟩
        next phase =>
          obtain ⟨prior, kept, rfl⟩ := Option.map_eq_some_iff.mp held
          obtain ⟨there, equal⟩ := Option.filter_eq_some_iff.mp kept
          rw [Bool.and_eq_true, beq_iff_eq] at equal
          exact .inr ⟨phase, prior, there, equal.1, equal.2, rfl⟩
        · cases held

theorem handleDrag_edit (edited : (handleDrag state compiled drag).2 = .ok (some candidate)) :
    ∃ material pending, state.material = some material ∧ Accepted material compiled drag ∧
      drag.phase = .up ∧ state.sceneDrag = some pending ∧ pending.id = drag.id ∧
      (pending.before == material) = true ∧ pending.preview.isSome = true ∧
      applyAction material (.moveOccurrence drag.id drag.position) = (candidate, .ok true) := by
  rw [handleDrag] at edited
  split at edited
  · cases edited
  next material there =>
    split at edited
    · cases edited
    next within =>
      split at edited
      · cases edited
      next shown =>
        rw [Bool.not_eq_true, Bool.not_eq_false'] at within
        simp only [Bool.or_eq_true, Bool.not_eq_true', not_or, Bool.not_eq_false] at shown
        rw [dragPhase] at edited
        dsimp only at edited
        split at edited
        · cases edited
        · cases edited
        · cases edited
        next phase =>
          dsimp only at edited
          split at edited
          next previewed =>
            rw [Option.any_eq_true] at previewed
            obtain ⟨pending, kept, preview⟩ := previewed
            obtain ⟨pressed, equal⟩ := Option.filter_eq_some_iff.mp kept
            rw [Bool.and_eq_true, beq_iff_eq] at equal
            refine ⟨material, pending, there, ⟨within, shown⟩, phase, pressed, equal.1, equal.2,
              preview, ?_⟩
            rw [applyCanvasEvent, if_neg (by simp [phase, shown.2])] at edited
            cases applied : applyAction material (.moveOccurrence drag.id drag.position) with
            | mk next result =>
              rw [applied] at edited
              cases result with
              | error error => cases edited
              | ok changed =>
                cases changed with
                | false => cases edited
                | true =>
                  cases edited
                  rfl
          next => cases edited

def Traced (start : DragState host) (moments : List (CanvasMoment host)) (state : DragState host) :
    Prop :=
  ∀ pending, state.sceneDrag = some pending → ∃ earlier log material, moments = earlier ++ log ∧
    (start.run earlier).material = some pending.before ∧ state.material = some material ∧
    Gesture pending.id pending.before log material pending.preview.isSome

theorem run_concat (start : DragState host) (moments : List (CanvasMoment host))
    (moment : CanvasMoment host) :
    start.run (moments ++ [moment]) = (start.run moments).step moment := by
  rw [DragState.run, List.foldl_append]
  rfl

theorem handleDrag_material (state : DragState host) (compiled : Compiled) (drag : NodeDrag) :
    (handleDrag state compiled drag).1.material = state.material := by
  rw [handleDrag]
  split
  · rfl
  · split
    · rfl
    · split
      · rfl
      · rw [dragPhase]
        dsimp only
        split <;> rfl

theorem Traced.step {start : DragState host} {moments : List (CanvasMoment host)}
    (traced : Traced start moments (start.run moments)) (moment : CanvasMoment host) :
    Traced start (moments ++ [moment]) ((start.run moments).step moment) := by
  intro pending held
  cases moment with
  | change next =>
    obtain ⟨earlier, log, material, rfl, pressed, _, gesture⟩ := traced pending held
    exact ⟨earlier, log ++ [.change next], next, List.append_assoc .., pressed, rfl,
      gesture.change next⟩
  | forget => cases held
  | drag compiled drag =>
    have there := handleDrag_material (start.run moments) compiled drag
    rcases handleDrag_pending held with empty | ⟨material, here, accepted, began | moved⟩
    · -- Without a material the drag is left alone, and none was pending.
      have kept : (start.run moments).sceneDrag = some pending := by
        simpa [DragState.step, handleDrag, empty] using held
      obtain ⟨_, _, _, _, _, some_, _⟩ := traced pending kept
      rw [empty] at some_
      cases some_
    · obtain ⟨phase, rfl⟩ := began
      exact ⟨moments, [.drag compiled drag], material, rfl, here, there.trans here,
        .down rfl phase accepted⟩
    · obtain ⟨phase, prior, pressed, same, equal, rfl⟩ := moved
      obtain ⟨earlier, log, other, rfl, began, ending, gesture⟩ := traced prior pressed
      rw [here, Option.some.injEq] at ending
      subst ending
      exact ⟨earlier, log ++ [.drag compiled drag], material, List.append_assoc .., began,
        there.trans here, gesture.move same.symm phase accepted equal⟩

theorem traced_run {start : DragState host} (idle : start.sceneDrag = none)
    (moments : List (CanvasMoment host)) : Traced start moments (start.run moments) := by
  induction moments using List.reverseRecOn with
  | nil =>
    intro pending held
    rw [DragState.run, List.foldl_nil, idle] at held
    cases held
  | append_singleton moments moment ih =>
    rw [run_concat]
    exact ih.step moment

end drags

/-- The canvas draws the relations and nodes it accepts, a refused action changes nothing, and a
drag edits the recipe at the end of a whole gesture only, by placing its own occurrence. -/
theorem scene_canvas_draws_what_it_accepts (places : Places host) :
    (∀ (material : host.Material) (compiled : Compiled)
      (authored : String → Option (Single × Single)) (drag : Option (SceneDrag host)),
      material.validate = .ok () → OneInstance material compiled →
      (compiled.relationships.map fun relation => relation.id).Nodup →
      let swatch := swatchWithPreview material compiled authored drag
      (∀ id, (∃ relation ∈ swatch.relations, relation.id = id) ↔
        swatchRelationVisible material compiled id = true) ∧
      (∀ id, (∃ node ∈ swatch.nodes, node.id = id) ↔
        swatchNodeVisible material compiled id = true) ∧
      ∀ relation ∈ swatch.relations, (∃ node ∈ swatch.nodes, node.id = relation.fromNode) ∧
        ∃ node ∈ swatch.nodes, node.id = relation.toNode) ∧
    (∀ (material : host.Material) (action : SceneAction host),
      ((applyAction material action).2 = .ok true →
        (applyAction material action).1.validate = .ok ()) ∧
      ((applyAction material action).2 ≠ .ok true →
        (applyAction material action).1 = material)) ∧
    ∀ (start : DragState host) (moments : List (CanvasMoment host)) (compiled : Compiled)
      (drag : NodeDrag) (candidate : host.Material), start.sceneDrag = none →
      (handleDrag (start.run moments) compiled drag).2 = .ok (some candidate) →
      drag.phase = .up ∧ ∃ earlier log before material, moments = earlier ++ log ∧
        (start.run earlier).material = some before ∧
        (start.run moments).material = some material ∧ (before == material) = true ∧
        Accepted material compiled drag ∧ Gesture drag.id before log material true ∧
        Moves material candidate drag.id drag.position := by
  refine ⟨fun material compiled authored drag valid placed distinct => ⟨fun id =>
    relation_drawn_iff valid placed distinct, fun id => node_drawn_iff placed,
    fun relation member => ?_⟩, fun material action => ?_, ?_⟩
  · obtain ⟨related, _, found⟩ := List.mem_filterMap.mp member
    obtain ⟨_, from_, to_, visible⟩ := relationOf_some found
    obtain ⟨fromVisible, toVisible⟩ := ends_visible valid visible
    rw [from_, to_]
    exact ⟨node_drawn placed fromVisible, node_drawn placed toVisible⟩
  · exact applyAction_cases material action
  · intro start moments compiled drag candidate idle edited
    obtain ⟨material, pending, here, accepted, phase, pressed, same, equal, previewed, applied⟩ :=
      handleDrag_edit edited
    obtain ⟨earlier, log, other, shape, began, ending, gesture⟩ :=
      traced_run idle moments pending pressed
    rw [here, Option.some.injEq] at ending
    subst ending
    rw [same, previewed] at gesture
    exact ⟨phase, earlier, log, pending.before, material, shape, began, here, equal, accepted,
      gesture, moves_of_applyAction places applied⟩

def pairHost : CanvasHost where
  Recipe := Unit
  Dataset := Unit
  Role := Unit
  Trace := List (String × (Single × Single))
  Base := Unit
  Positions := String → Option (Single × Single)
  noPositions _ := none
  relationshipKind _ := none
  relationships _ := [⟨"r", "cites"⟩]
  occurrences _ := ["a", "b"]
  jsonLength _ := .ok 0
  compile _ _ := .ok ()
  canonical _ _ := .ok ()
  traceLength := List.length
  traceBase _ := ()
  validateSteps _ _ := .ok ()
  positions _ trace id := (trace.find? fun step => step.1 == id).map Prod.snd
  Slot := Unit
  disclosed _ := [⟨⟨"r", "cites"⟩, "cites", "a", "b"⟩]
  relationships_eq _ := rfl
  panned _ delta := delta
  zoomed _ factor := factor
  presetSlot _ := .error "no presets"
  boundedSpringSlot := .ok ()
  withDynamics recipe _ := recipe
  position positions id := positions id
  newTrace _ := .ok []
  appended _ trace id position := .ok ((id, position) :: trace)

theorem places_pairHost : Places pairHost := by
  refine ⟨fun _ => rfl, fun {_ trace} created id => ?_,
    fun {_ trace id position next} added other => ?_⟩
  · obtain rfl := Except.ok.inj created
    rfl
  · obtain rfl := Except.ok.inj added
    by_cases same : other = id
    · rw [if_pos same, same]
      exact congrArg (Option.map Prod.snd) (List.find?_cons_of_pos (beq_self_eq_true id))
    · rw [if_neg same]
      exact congrArg (Option.map Prod.snd)
        (List.find?_cons_of_neg fun equal => same (beq_iff_eq.mp equal).symm)

def pairMaterial : pairHost.Material where
  snapshot := ⟨(), "pair", none, none⟩
  dataset := ()
  anchors := []
  presentation := none

def pairCompiled : Compiled where
  instanceByOccurrence id := if id = "a" then some 0 else some 1
  items := [(.finite 0, .finite 0), (.finite 1, .finite 1)]
  labels _ := none
  relationships := [⟨⟨"r", "cites"⟩, "cites", "a", "b"⟩]

theorem scene_canvas_draws_pair : pairMaterial.validate = .ok () ∧
    ∃ relation ∈ (swatchWithPreview pairMaterial pairCompiled (fun _ => none) none).relations,
      relation.id = "r" := by
  refine ⟨rfl, (((scene_canvas_draws_what_it_accepts places_pairHost).1 pairMaterial pairCompiled
    _ none rfl ?_ (by decide)).1 "r").mpr (by decide)⟩
  intro id member
  simp only [pairHost, pairMaterial, List.mem_cons, List.not_mem_nil, or_false] at member
  rcases member with rfl | rfl <;> exact ⟨_, _, rfl, rfl⟩

end KnotEditor.Desktop.Canvas
