import KnotEditor.Library.Allotment
import Mathlib.Algebra.Order.Ring.Rat
import Mathlib.Data.Rat.Defs

/-! Automatic, host-side presentation of narrow workspaces. The canonical tree of tiles is never
changed: its divider ratios return when room does. Widths are exact rationals. -/

namespace KnotEditor.Desktop.Collapse

abbrev TileId := Nat

inductive SplitAxis
  | row
  | column
  deriving DecidableEq

inductive TileTree
  | stack (tabs : List TileId)
  | split (axis : SplitAxis) (children : List (ℚ × TileTree))

@[elab_as_elim]
theorem TileTree.induct {holds : TileTree → Prop} (stack : ∀ tabs, holds (.stack tabs))
    (split : ∀ axis children, (∀ child ∈ children, holds child.2) → holds (.split axis children))
    (tree : TileTree) : holds tree :=
  @TileTree.rec holds (fun children => ∀ child ∈ children, holds child.2)
    (fun child => holds child.2) stack split (List.forall_mem_nil _)
    (fun _ _ first rest => List.forall_mem_cons.mpr ⟨first, rest⟩) (fun _ _ tree => tree) tree

mutual

def TileTree.tiles : TileTree → List TileId
  | .stack tabs => tabs
  | .split _ children => TileTree.allTiles children

def TileTree.allTiles : List (ℚ × TileTree) → List TileId
  | [] => []
  | (_, tree) :: rest => tree.tiles ++ TileTree.allTiles rest

end

inductive TileRole
  | document
  | reading
  | navigator
  | graph
  | metadata
  | site
  deriving DecidableEq

structure CollapsePreferences where
  readingMinWidth : UInt16
  railWidth : UInt16
  drawerBelow : UInt16

inductive Kind
  | source
  | navigator
  | reading
  deriving DecidableEq

structure Leaf where
  anchor : TileId
  kind : Kind
  label : String
  measure : ℚ
  canonical : ℚ
  collapsed : Bool
  open_ : Bool

structure DrawerGeometry where
  trigger : ℚ × ℚ × ℚ × ℚ
  panelSize : ℚ × ℚ
  bounds : ℚ × ℚ × ℚ × ℚ

structure CollapsedStack where
  label : String
  railWidth : ℚ
  open_ : Bool
  drawer : Option DrawerGeometry

structure StackPresentation where
  anchor : TileId
  minWidth : ℚ
  collapsed : Option CollapsedStack

structure SplitPresentation where
  path : List Nat
  fractions : List ℚ
  deriving DecidableEq

structure WorkbenchPresentation where
  returnFocus : Option TileId
  stacks_ : List StackPresentation
  splits : List SplitPresentation

def epsilon : ℚ := 1 / 2 ^ 23

def dividers (count : Nat) : ℚ := ((count - 1 : Nat) : ℚ)

def availableWidth (width : ℚ) (count : Nat) : ℚ := max (width - dividers count) 1

def totalFraction (children : List (ℚ × TileTree)) : ℚ :=
  (children.map fun child => max child.1 0).sum

def canonicalWidth (available total fraction : ℚ) : ℚ :=
  available * max fraction 0 / max total epsilon

def kindOf (role : TileId → Option TileRole) (tabs : List TileId) : Kind :=
  if tabs.any fun tile => role tile == some .document then .source
  else if tabs.any fun tile => role tile == some .navigator || role tile == some .site then
    .navigator
  else .reading

def wasOpen (previous : WorkbenchPresentation) (anchor : TileId) : Bool :=
  ((previous.stacks_.find? fun stack => stack.anchor == anchor).bind (·.collapsed)).any (·.open_)

section

variable (role : TileId → Option TileRole) (measure : TileId → ℚ)
  (previous : WorkbenchPresentation)

def collectStack (tabs : List TileId) (width : ℚ) : List Leaf :=
  match tabs with
  | [] => []
  | first :: _ =>
    let kind := kindOf role tabs
    [{ anchor := first
       kind := kind
       label := if kind = .navigator then "Navigator" else "Readings"
       measure := (tabs.map measure).foldl max 0
       canonical := width
       collapsed := false
       open_ := wasOpen previous first }]

mutual

def collect : TileTree → ℚ → List Leaf
  | .stack tabs, width => collectStack role measure previous tabs width
  | .split axis children, width =>
    let available := availableWidth width children.length
    let total := totalFraction children
    collectAll children axis width available total

def collectAll : List (ℚ × TileTree) → SplitAxis → ℚ → ℚ → ℚ → List Leaf
  | [], _, _, _, _ => []
  | (fraction, tree) :: rest, axis, width, available, total =>
    let childWidth := if axis = .row then canonicalWidth available total fraction else width
    collect tree childWidth ++ collectAll rest axis width available total

end

end

structure Panes where
  leaves : List Leaf
  rail : ℚ
  minimum : ℚ
  drawer : Bool

namespace Panes

variable (panes : Panes)

def leaf : TileTree → Option Leaf
  | .stack (first :: _) => panes.leaves.find? fun leaf => leaf.anchor == first
  | _ => none

mutual

def widthBy (leafWidth : Leaf → ℚ) : TileTree → ℚ
  | .stack tabs => ((panes.leaf (.stack tabs)).map leafWidth).getD 0
  | .split .row children => (widthsBy leafWidth children).sum + dividers children.length
  | .split .column children => (widthsBy leafWidth children).foldl max 0

def widthsBy (leafWidth : Leaf → ℚ) : List (ℚ × TileTree) → List ℚ
  | [] => []
  | (_, tree) :: rest => widthBy leafWidth tree :: widthsBy leafWidth rest

end

def required (tree : TileTree) : ℚ :=
  panes.widthBy (fun leaf =>
    if leaf.collapsed then panes.rail
    else if leaf.kind = .source then leaf.measure
    else panes.minimum) tree

def folded (leaf : Leaf) : Bool := leaf.collapsed && (!leaf.open_ || panes.drawer)

def leafMinimum (leaf : Leaf) : ℚ :=
  if panes.folded leaf then panes.rail
  else if leaf.kind = .source then leaf.measure
  else panes.minimum

def minimumWidth (tree : TileTree) : ℚ := panes.widthBy panes.leafMinimum tree

def hasSource (tree : TileTree) : Bool :=
  tree.tiles.any fun tile =>
    panes.leaves.any fun leaf => leaf.anchor == tile && leaf.kind == .source

def isRail (tree : TileTree) : Bool := (panes.leaf tree).any panes.folded

def isReading (tree : TileTree) : Bool :=
  (panes.leaf tree).any fun leaf => leaf.kind == .reading && !leaf.collapsed

abbrev Assigned := List ((ℚ × TileTree) × ℚ)

def start (available : ℚ) (children : List (ℚ × TileTree)) : Assigned :=
  let total := totalFraction children
  children.map fun child => (child,
    if panes.isRail child.2 then panes.rail
    else max (canonicalWidth available total child.1) (panes.minimumWidth child.2))

def narrow (excess : ℚ) (assigned : Assigned) : ℚ × Assigned :=
  Allotment.narrow (fun child => !panes.hasSource child.2)
    (fun child => panes.minimumWidth child.2) excess assigned

def sourceTotal (assigned : Assigned) : ℚ :=
  Allotment.total (assigned.filter fun child => panes.hasSource child.1.2)

def shrink (excess : ℚ) (assigned : Assigned) : Assigned :=
  if 0 < excess then
    let sourceTotal := panes.sourceTotal assigned
    assigned.map fun child =>
      if panes.hasSource child.1.2 then
        (child.1, max (child.2 - excess * child.2 / max sourceTotal 1) 1)
      else child
  else assigned

def spread (available : ℚ) (assigned : Assigned) : Assigned :=
  let spare := available - Allotment.total assigned
  if 0 < spare then
    if assigned.any fun child => panes.isReading child.1.2 then
      Allotment.spread (fun child => panes.isReading child.2) spare assigned
    else if assigned.any fun child => panes.hasSource child.1.2 then
      Allotment.spread (fun child => panes.hasSource child.2) spare assigned
    else assigned
  else assigned

def assign (width : ℚ) (children : List (ℚ × TileTree)) : Assigned :=
  let available := availableWidth width children.length
  let assigned := panes.start available children
  let narrowed := panes.narrow (Allotment.total assigned - available) assigned
  panes.spread available (panes.shrink narrowed.1 narrowed.2)

def fractions (assigned : Assigned) : List ℚ :=
  let sum := max (Allotment.total (assigned.filter fun child => !panes.isRail child.1.2)) 1
  assigned.map fun child => if panes.isRail child.1.2 then 0 else child.2 / sum

def childWidths (axis : SplitAxis) (children : List (ℚ × TileTree)) (width : ℚ) : List ℚ :=
  match axis with
  | .row => (panes.assign width children).map Prod.snd
  | .column => children.map fun _ => width

def emit (axis : SplitAxis) (children : List (ℚ × TileTree)) (width : ℚ) (path : List Nat) :
    List SplitPresentation :=
  match axis with
  | .column => []
  | .row =>
    let fractions := panes.fractions (panes.assign width children)
    if (fractions.zip children).any fun pair => decide (1 / 10000 < |pair.1 - pair.2.1|) then
      [{ path := path, fractions := fractions }]
    else []

mutual

def constrain : TileTree → ℚ → List Nat → List SplitPresentation
  | .stack _, _, _ => []
  | .split axis children, width, path =>
    panes.emit axis children width path ++
      constrainAll children (panes.childWidths axis children width) path 0

def constrainAll : List (ℚ × TileTree) → List ℚ → List Nat → Nat → List SplitPresentation
  | (_, tree) :: rest, width :: widths, path, index =>
    constrain tree width (path ++ [index]) ++ constrainAll rest widths path (index + 1)
  | _, _, _, _ => []

end

end Panes

def squeezed (leaves : List Leaf) : Bool :=
  leaves.any fun leaf => leaf.kind == .source && decide (leaf.canonical + 1 / 2 < leaf.measure)

def fold (leaves : List Leaf) (drawer : Bool) : List Leaf :=
  leaves.map fun leaf => { leaf with
    collapsed := leaf.kind == .navigator || (drawer && leaf.kind != .source) }

def foldReadings (leaves : List Leaf) : List Leaf :=
  leaves.map fun leaf => if leaf.kind = .reading then { leaf with collapsed := true } else leaf

def panesOf (tree : TileTree) (preferences : CollapsePreferences) (viewport frame : ℚ)
    (leaves : List Leaf) : Panes :=
  let rail : ℚ := preferences.railWidth.toNat
  let minimum : ℚ := preferences.readingMinWidth.toNat
  let drawer := decide (viewport < preferences.drawerBelow.toNat)
  let constrained := squeezed leaves || drawer
  let leaves := if constrained then fold leaves drawer else leaves
  let panes : Panes := ⟨leaves, rail, minimum, drawer⟩
  if constrained && decide (frame < panes.required tree) then
    { panes with leaves := foldReadings leaves }
  else panes

def Panes.stackPresentation (panes : Panes) (frame : ℚ × ℚ) (leaf : Leaf) : StackPresentation where
  anchor := leaf.anchor
  minWidth := 0
  collapsed :=
    if leaf.collapsed then
      some {
        label := leaf.label
        railWidth := panes.rail
        open_ := leaf.open_
        drawer :=
          if panes.drawer then
            some {
              trigger := (0, 0, panes.rail, 0)
              panelSize := (min panes.minimum (max frame.1 1), max frame.2 1)
              bounds := (0, 0, max frame.1 1, max frame.2 1) }
          else none }
    else none

def presentation (tree : TileTree) (preferences : CollapsePreferences) (viewport : ℚ × ℚ)
    (frame : ℚ × ℚ × ℚ × ℚ) (previous : WorkbenchPresentation) (source : Option TileId)
    (role : TileId → Option TileRole) (measure : TileId → ℚ) : WorkbenchPresentation :=
  let width := frame.2.2.1
  let leaves := collect role measure previous tree width
  let panes := panesOf tree preferences viewport.1 width leaves
  { returnFocus := source
    stacks_ := panes.leaves.map (panes.stackPresentation frame.2.2)
    splits :=
      if squeezed leaves || panes.drawer then panes.constrain tree width [] else [] }

end KnotEditor.Desktop.Collapse
