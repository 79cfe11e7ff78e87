import KnotEditor.Composition
import KnotEditor.Readings.MetreAlignment

/-! The desktop's owner of one metre draft: the drag over its drawing, the copy that was retained,
and the reading it was started from. -/

namespace KnotEditor.Desktop.Metre

open KnotEditor.Composition KnotEditor.Readings

abbrev DocKey := Nat

structure SelectionSnapshot where
  key : DocKey
  address : String
  text : String
  start : Nat
  finish : Nat
  deriving DecidableEq

structure Desk where
  focusedKey : Option DocKey
  soundSelection : Option SelectionSnapshot
  sound : Option SoundReading
  cmudictEnabled : Bool
  current : SelectionSnapshot → Bool

structure Rect where
  x : Float32
  width : Float32

/-- The span edits, the scene compiler and the drawing of other crates, and the hash of a text. -/
structure MetreHost extends AlignmentHost where
  alphabet : Alphabet
  dictionary : Cmudict
  scenes : Readings.SceneHost
  hash : String → String
  Surface : Type
  create : AlignedScene Facts → Except String Surface
  replace : Surface → AlignedScene Facts → Except String Surface
  select : Surface → Option String → Surface
  selected : Surface → Option String
  dismissRetained : Surface → Surface
  pick : Surface → Float32 → Float32 → UInt32 → UInt32 → Option String
  occurrenceRect : Surface → String → UInt32 → UInt32 → Option Rect
  scenePoint : Surface → Float32 → Float32 → UInt32 → UInt32 → Option Float32

variable {host : MetreHost}

abbrev Draft (host : MetreHost) := MetreDraft host.toAlignmentHost

abbrev Scene (host : MetreHost) := AlignedScene host.Facts

structure Drag (host : MetreHost) where
  baseline : Scene host
  proposal : Proposal
  edit : Edit
  x : Float32
  ticksPerPixel : Float32
  size : Float32 × Float32
  pointer : Int32
  owner : DocKey

structure MetreState (host : MetreHost) where
  draft : Option (Draft host) := none
  surface : Option host.Surface := none
  input : Option (Scene host) := none
  revision : UInt64 := 0
  source : Option SelectionSnapshot := none
  reading : Option SoundReading := none
  anchor : Option DocumentAnchor := none
  drag : Option (Drag host) := none
  saved : Option String := none
  feet : UInt16 := 5
  positions : UInt16 := 2
  pairedRhyme : Bool := false
  notice : Option String := none
  closePending : Bool := false

def SelectionSnapshot.anchor (host : MetreHost) (selection : SelectionSnapshot) :
    Except String DocumentAnchor :=
  if (trim selection.address).isEmpty || maxLabelBytes < selection.address.utf8ByteSize then
    .error AnchorError.invalidAddress.text
  else
    match slice selection.text.toList selection.start selection.finish with
    | none => .error AnchorError.invalidRange.text
    | some quote =>
      let quote := String.ofList quote
      if quote.isEmpty || maxTextBytes < quote.utf8ByteSize then
        .error AnchorError.invalidRange.text
      else .ok {
        documentAddress := selection.address
        exactQuote := quote
        byteSpan := ⟨selection.start.toUInt64, selection.finish.toUInt64⟩
        sourceHash := some (host.hash selection.text) }

namespace MetreState

variable (metre : MetreState host)

def dirty : Bool :=
  metre.draft.any fun draft => decide (metre.saved ≠ some draft.scene.revision)

def markRetained (scene : Scene host) : MetreState host :=
  if metre.draft.any fun draft => decide (draft.scene = scene) then
    { metre with saved := some scene.revision }
  else metre

def current (desk : Desk) (key : DocKey) : Bool :=
  decide (desk.focusedKey = some key) && metre.source.all fun selection =>
    decide (selection.key = key) && desk.current selection && desk.cmudictEnabled &&
      decide (metre.reading = desk.sound)

def shown : Except String (Option (Scene host)) :=
  match metre.draft, metre.drag with
  | none, _ => .ok none
  | some draft, some drag => (draft.preview drag.proposal).map some
  | some draft, none => .ok (some draft.scene)

def refresh : MetreState host × Except String Unit :=
  match metre.shown with
  | .error error => (metre, .error error)
  | .ok none =>
    ({ metre with surface := none, input := none, revision := metre.revision + 1 }, .ok ())
  | .ok (some input) =>
    let selection := metre.surface.bind host.selected
    let drawn := match metre.surface with
      | some surface => host.replace surface input
      | none => host.create input
    match drawn with
    | .error error => (metre, .error error)
    | .ok surface =>
      let surface := if selection.isSome then host.select surface selection else surface
      ({ metre with
        surface := some surface
        input := some input
        revision := metre.revision + 1 }, .ok ())

def cancel : MetreState host := ({ metre with drag := none }).refresh.1

def selected : Option String := metre.surface.bind host.selected

def commit : MetreState host :=
  match metre.drag, metre.draft with
  | some drag, some draft =>
    let metre := { metre with drag := none }
    let metre :=
      if draft.scene = drag.baseline then
        let (draft, result) := draft.commit drag.proposal
        match result with
        | .error error => { metre with draft := some draft, notice := some error }
        | .ok () => { metre with draft := some draft }
      else metre
    metre.refresh.1
  | _, _ => ({ metre with drag := none }).refresh.1

def dirtyOpen : String := "Collect or discard the current metre draft before opening another"

def openCopy (scene : Scene host) (anchor : Option DocumentAnchor) :
    MetreState host × Except String Unit :=
  if metre.dirty then (metre, .error dirtyOpen)
  else match MetreDraft.new scene with
    | .error error => (metre, .error error)
    | .ok draft =>
      { metre with
        draft := some draft
        source := none
        reading := none
        anchor
        saved := some scene.revision
        drag := none
        notice := none }.refresh

/-- `line.rhyme_group = Some(format!("R{}", i / 2 + 1))` for every line. -/
def pairRhymes (grid : MetreGrid) : MetreGrid :=
  { grid with lines := grid.lines.zipIdx.map fun line =>
      { line.1 with rhymeGroup := some s!"R{line.2 / 2 + 1}" } }

def startDraft (desk : Desk) (key : DocKey) :
    Except String (Draft host × SelectionSnapshot × DocumentAnchor × SoundReading) := do
  let some selection := desk.soundSelection | .error "Analyze a selected passage in Sound first"
  if selection.key ≠ key ∨ desk.current selection = false ∨ desk.cmudictEnabled = false then
    .error "The source reading changed; analyze it again"
  let some reading := desk.sound | .error "Analyze sound first"
  let exported ← metreScene host.alphabet host.dictionary host.scenes selection.text.toList reading
    ⟨"knot.document", selection.address⟩ ⟨metre.feet, metre.positions, []⟩
  let grid := if metre.pairedRhyme then pairRhymes exported.facts else exported.facts
  let facts := host.metreGrid grid
  let revision ← if metre.pairedRhyme then host.revision exported.revision facts
    else .ok exported.revision
  let anchor ← selection.anchor host
  let draft ← MetreDraft.new
    ⟨exported.version, exported.source, revision, exported.title, facts⟩
  return (draft, selection, anchor, reading)

def start (desk : Desk) (key : DocKey) : MetreState host :=
  if metre.dirty then
    { metre with notice := some "Collect or discard this metre draft before starting another" }
  else match metre.startDraft desk key with
    | .error error => { metre with notice := some error }
    | .ok (draft, source, anchor, reading) =>
      { metre with
        draft := some draft
        source := some source
        reading := some reading
        anchor := some anchor
        saved := none
        drag := none
        notice := none }.refresh.1

def discard : MetreState host :=
  { metre with
    draft := none
    source := none
    reading := none
    anchor := none
    drag := none
    saved := none
    closePending := false
    notice := none }.refresh.1

def retain : MetreState host × Option (Scene host × Option DocumentAnchor) :=
  let metre := metre.cancel
  (metre, metre.draft.map fun draft => (draft.scene, metre.anchor))

end MetreState

inductive SceneSelection
  | select (key : String)
  | clear
  | dismissRetained

inductive PointerPhase
  | down
  | move
  | up
  | cancel
  deriving DecidableEq

structure PointerEvent where
  primary : Bool
  phase : PointerPhase
  pointerId : Int32
  place : Float32 × Float32
  size : Float32 × Float32

inductive MetreKey
  | escape
  | enter
  | arrowLeft
  | arrowRight
  | other
  deriving DecidableEq

structure KeyPress where
  key : MetreKey
  ctrl : Bool
  alt : Bool
  shift : Bool
  metaKey : Bool

namespace PointerEvent

variable (event : PointerEvent)

def finite : Bool :=
  event.place.1.isFinite && event.place.2.isFinite && event.size.1.isFinite &&
    event.size.2.isFinite && decide (0 < event.size.1) && decide (0 < event.size.2)

def pixels : UInt32 × UInt32 := (event.size.1.round.toUInt32, event.size.2.round.toUInt32)

def editOf (rect : Rect) : Edit :=
  let third := rect.width / 3
  let edge := if third < 8 then third else 8
  if event.place.1 ≤ rect.x + edge then .start
  else if rect.x + rect.width - edge ≤ event.place.1 then .finish
  else .move

end PointerEvent

namespace MetreState

variable (metre : MetreState host)

def selection (event : SceneSelection) : MetreState host :=
  let metre := metre.cancel
  { metre with
    surface := metre.surface.map fun surface =>
      match event with
      | .select key => host.select surface (some key)
      | .clear => host.select surface none
      | .dismissRetained => host.dismissRetained surface
    revision := metre.revision + 1 }

def grip (surface : host.Surface) (event : PointerEvent) : Option (String × Rect × Float32) := do
  let (width, height) := event.pixels
  let found ← host.pick surface event.place.1 event.place.2 width height
  let rect ← host.occurrenceRect surface found width height
  let one ← host.scenePoint surface 1 0 width height
  let zero ← host.scenePoint surface 0 0 width height
  return (found, rect, (one - zero) / 47)

def pointerDown (key : DocKey) (event : PointerEvent) : MetreState host :=
  let metre := metre.cancel
  match metre.surface with
  | none => metre
  | some surface =>
    let (width, height) := event.pixels
    let found := host.pick surface event.place.1 event.place.2 width height
    let metre := { metre with
      surface := some (host.select surface found)
      revision := metre.revision + 1 }
    let metre := match grip surface event, metre.draft with
      | some (found, rect, scale), some draft =>
        match draft.propose found (event.editOf rect) 0 with
        | .error _ => metre
        | .ok proposal => { metre with drag := some {
            baseline := draft.scene
            proposal
            edit := event.editOf rect
            x := event.place.1
            ticksPerPixel := scale
            size := event.size
            pointer := event.pointerId
            owner := key } }
      | _, _ => metre
    metre.refresh.1

def dragged (drag : Drag host) (key : DocKey) (event : PointerEvent) : Option (Drag host) :=
  if event.size.1 == drag.size.1 && event.size.2 == drag.size.2 && decide (drag.owner = key) then
    match metre.draft with
    | none => none
    | some draft =>
      if draft.scene = drag.baseline then
        let dx := event.place.1 - drag.x
        let delta := if dx.abs < 3 then 0 else dx * drag.ticksPerPixel
        match draft.propose drag.proposal.occurrence drag.edit delta with
        | .error _ => none
        | .ok proposal => some { drag with proposal }
      else none
  else none

def pointerMove (key : DocKey) (event : PointerEvent) : MetreState host :=
  match metre.drag with
  | none => metre.refresh.1
  | some drag =>
    if drag.pointer ≠ event.pointerId then metre
    else
      match metre.dragged drag key event with
      | none => ({ metre with drag := none }).refresh.1
      | some drag =>
        let metre := { metre with drag := some drag }
        (if event.phase = .up then metre.commit else metre).refresh.1

def pointer (desk : Desk) (key : DocKey) (event : PointerEvent) : MetreState host :=
  if event.primary = false then metre
  else if metre.current desk key = false then metre.cancel
  else if event.phase = .cancel then metre.cancel
  else if event.finite = false then metre.cancel
  else if event.phase = .down then metre.pointerDown key event
  else metre.pointerMove key event

def change (desk : Desk) (key : DocKey) (edit : Edit) (delta : Float32) : MetreState host :=
  if metre.current desk key = false then metre.cancel
  else
    let metre := metre.cancel
    match metre.selected, metre.draft with
    | some selected, some draft =>
      match draft.propose selected edit delta with
      | .error error => { metre with notice := some error }
      | .ok proposal =>
        let (draft, result) := draft.commit proposal
        let metre := { metre with draft := some draft }
        match result with
        | .error error => { metre with notice := some error }
        | .ok () => metre.refresh.1
    | _, _ => metre

def keypress (desk : Desk) (key : DocKey) (event : KeyPress) : MetreState host :=
  if metre.current desk key = false then metre.cancel
  else
    let edit := if event.alt then .start else if event.shift then .finish else .move
    match event.key with
    | .escape => if metre.drag.isSome then metre.cancel else metre
    | .enter => if metre.drag.isSome then metre.commit else metre
    | .arrowLeft => if event.ctrl || event.metaKey then metre else metre.change desk key edit (-1)
    | .arrowRight => if event.ctrl || event.metaKey then metre else metre.change desk key edit 1
    | .other => metre

def stepDraft (desk : Desk) (key : DocKey) (step : Draft host → Draft host) : MetreState host :=
  if metre.current desk key = false then metre
  else
    let metre := metre.cancel
    ({ metre with draft := metre.draft.map step }).refresh.1

end MetreState

inductive MetreEvent (host : MetreHost)
  | start (key : DocKey)
  | openCopy (scene : Scene host) (anchor : Option DocumentAnchor)
  | markRetained (scene : Scene host)
  | retain
  | discard
  | cancel
  | selection (event : SceneSelection)
  | pointer (key : DocKey) (event : PointerEvent)
  | keypress (key : DocKey) (event : KeyPress)
  | change (key : DocKey) (edit : Edit) (delta : Float32)
  | undo (key : DocKey)
  | redo (key : DocKey)
  | template (feet positions : UInt16) (pairedRhyme : Bool)
  | closePending (pending : Bool)

def MetreState.step (desk : Desk) (metre : MetreState host) : MetreEvent host → MetreState host
  | .start key => metre.start desk key
  | .openCopy scene anchor => (metre.openCopy scene anchor).1
  | .markRetained scene => metre.markRetained scene
  | .retain => metre.retain.1
  | .discard => metre.discard
  | .cancel => metre.cancel
  | .selection event => metre.selection event
  | .pointer key event => metre.pointer desk key event
  | .keypress key event => metre.keypress desk key event
  | .change key edit delta => metre.change desk key edit delta
  | .undo key => metre.stepDraft desk key MetreDraft.undo
  | .redo key => metre.stepDraft desk key MetreDraft.redo
  | .template feet positions pairedRhyme => { metre with feet, positions, pairedRhyme }
  | .closePending pending => { metre with closePending := pending }

end KnotEditor.Desktop.Metre
