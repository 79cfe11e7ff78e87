import Std.Data.ExtTreeMap.Lemmas
import KnotEditor.PathText

/-! The desktop's open documents and the tiles that show them. The Workbench tree only presents
tiles, so an entry, its role and its tile are kept together here. -/

namespace KnotEditor.Desktop.Documents

abbrev DocKey := Nat
abbrev SiteKey := Nat
abbrev TileId := Nat

inductive DocIdentity
  | catalog (id : String)
  | path (path : FilePath)
  | scratch
  deriving DecidableEq

inductive ReadingKind
  | outline
  | preview
  | folded
  | readings
  | changes
  | links
  | submit
  deriving DecidableEq

inductive TileRole
  | document (key : DocKey)
  | reading (kind : ReadingKind) (pinned : Option DocKey)
  | navigator
  | graph
  | metadata (site : SiteKey) (page : String)
  | site (site : SiteKey)
  deriving DecidableEq

namespace TileRole

def isReading : TileRole → Bool
  | reading _ _ => true
  | _ => false

def isMetadata : TileRole → Bool
  | metadata _ _ => true
  | _ => false

def isLeft : TileRole → Bool
  | navigator | site _ => true
  | _ => false

end TileRole

structure Tile where
  id : TileId
  title : String
  deriving DecidableEq

/-- Stacks of tabs under splits. The shares of a split are left out: nothing here reads them. -/
inductive TileTree
  | stack (tabs : List Tile) (active : Nat)
  | split (children : List TileTree)

namespace TileTree

mutual

def tiles : TileTree → List Tile
  | stack tabs _ => tabs
  | split children => tilesOf children

def tilesOf : List TileTree → List Tile
  | [] => []
  | child :: rest => child.tiles ++ tilesOf rest

end

mutual

def activeTiles : TileTree → List TileId
  | stack tabs active => (tabs[active]?).toList.map Tile.id
  | split children => activeTilesOf children

def activeTilesOf : List TileTree → List TileId
  | [] => []
  | child :: rest => child.activeTiles ++ activeTilesOf rest

end

def ids (tree : TileTree) : List TileId := tree.tiles.map Tile.id

def find (tree : TileTree) (tile : TileId) : Option Tile :=
  tree.tiles.find? fun held => held.id == tile

end TileTree

inductive Edge
  | left
  | right
  deriving DecidableEq

structure Workbench where
  insertTabAfter : TileTree → TileId → Tile → Bool × TileTree
  splitBeside : TileTree → TileId → Edge → Tile → Bool × TileTree
  activated : TileTree → TileId → TileTree
  closed : TileTree → TileId → TileTree

structure Entry (D : Type) where
  identity : DocIdentity
  tile : TileId
  doc : D

structure DocumentWorkspace (D : Type) where
  entries : Std.ExtTreeMap DocKey (Entry D) compare
  roles : Std.ExtTreeMap TileId TileRole compare
  tree : TileTree
  focused : Option DocKey
  /-- The reading tile activated or opened last, whose stack the next reading joins. -/
  lastReading : Option TileId
  nextDoc : Nat
  nextTile : Nat

def u64Limit : Nat := 2 ^ 64

def graphTileId : TileId := 2 ^ 64 - 1

def attempt (target : Option TileId) (tree : TileTree) (edit : TileTree → TileId → Bool × TileTree) :
    Bool × TileTree :=
  match target with
  | some target => edit tree target
  | none => (false, tree)

def orElse (first : Bool × TileTree) (next : TileTree → Bool × TileTree) : Bool × TileTree :=
  if first.1 then first else next first.2

def placeBeside (workbench : Workbench) (beside reading left : Option TileId) (tree : TileTree)
    (tile : Tile) : Bool × TileTree :=
  orElse
    (orElse
      (attempt beside tree fun tree target => workbench.insertTabAfter tree target tile)
      (fun tree => attempt reading tree fun tree target =>
        workbench.splitBeside tree target .left tile))
    (fun tree => attempt left tree fun tree target => workbench.splitBeside tree target .right tile)

/-- Where nothing is placed yet, the empty frame takes the tile, or an unexpected survivor makes
room for it. -/
def settle (workbench : Workbench) (placed : Bool × TileTree) (tile : Tile) : TileTree :=
  if placed.1 then placed.2
  else
    match placed.2 with
    | .stack [] _ => .stack [tile] 0
    | tree =>
      let survivor := (tree.tiles.head?).map Tile.id
      let split := attempt survivor tree fun tree target =>
        workbench.splitBeside tree target .right tile
      if split.1 then split.2 else .stack [tile] 0

/-- Join the stack of `beside`, else take a stack next to `document`. -/
def joinOrSplit (workbench : Workbench) (beside document : Option TileId) (edge : Edge)
    (tree : TileTree) (tile : Tile) : Bool × TileTree :=
  orElse
    (attempt beside tree fun tree target => workbench.insertTabAfter tree target tile)
    (fun tree => attempt document tree fun tree target =>
      workbench.splitBeside tree target edge tile)

def joinFrame (placed : Bool × TileTree) (tile : Tile) : TileTree :=
  if placed.1 then placed.2
  else
    match placed.2 with
    | .stack tabs _ => .stack (tabs ++ [tile]) tabs.length
    | .split _ => .stack [tile] 0

namespace DocumentWorkspace

variable {D : Type}

def new : DocumentWorkspace D where
  entries := ∅
  roles := ∅
  tree := .stack [] 0
  focused := none
  lastReading := none
  nextDoc := 1
  nextTile := 1

variable (workbench : Workbench) (space : DocumentWorkspace D)

def firstEntry : Option DocKey := space.entries.keys.head?

def firstTile (wanted : TileId → TileRole → Bool) : Option TileId :=
  (space.roles.toList.find? fun entry => wanted entry.1 entry.2).map Prod.fst

def holds (tile : TileId) : Bool := (space.tree.find tile).isSome

def find (identity : DocIdentity) : Option DocKey :=
  if identity = .scratch then none
  else (space.entries.toList.find? fun entry => decide (entry.2.identity = identity)).map Prod.fst

def tileOf (key : DocKey) : Option TileId := (space.entries[key]?).map Entry.tile

def focus (key : DocKey) : DocumentWorkspace D :=
  match space.entries[key]? with
  | some entry =>
    { space with tree := workbench.activated space.tree entry.tile, focused := some key }
  | none => space

def activate (tile : TileId) : DocumentWorkspace D :=
  let space : DocumentWorkspace D := { space with tree := workbench.activated space.tree tile }
  match space.roles[tile]? with
  | some (.document key) => { space with focused := some key }
  | some (.reading _ _) => { space with lastReading := some tile }
  | _ => space

def setIdentity (key : DocKey) (identity : DocIdentity) : DocumentWorkspace D :=
  match space.entries[key]? with
  | some entry => { space with entries := space.entries.insert key { entry with identity } }
  | none => space

def setPinned (tile : TileId) (pinned : Option DocKey) : DocumentWorkspace D :=
  match space.roles[tile]? with
  | some (.reading kind _) => { space with roles := space.roles.insert tile (.reading kind pinned) }
  | _ => space

def readings : List (TileId × ReadingKind × Option DocKey) :=
  space.roles.toList.filterMap fun entry =>
    match entry.2 with
    | .reading kind pinned => some (entry.1, kind, pinned)
    | _ => none

def readingsPinnedTo (key : DocKey) : List TileId :=
  (space.readings.filter fun reading => decide (reading.2.2 = some key)).map Prod.fst

def navigator : Option TileId := space.firstTile fun _ role => decide (role = .navigator)

def graph : Option TileId := space.firstTile fun _ role => decide (role = .graph)

def siteTile (site : SiteKey) : Option TileId :=
  space.firstTile fun _ role => decide (role = .site site)

def metadataTile (site : SiteKey) (page : String) : Option TileId :=
  space.firstTile fun _ role => decide (role = .metadata site page)

def mintTile (title : String) (role : TileRole) : Tile × DocumentWorkspace D :=
  let id := if role = .graph then graphTileId else space.nextTile
  let nextTile := if role = .graph then space.nextTile else (space.nextTile + 1) % u64Limit
  ({ id, title }, { space with roles := space.roles.insert id role, nextTile })

def placeDocumentTile (tile : Tile) : DocumentWorkspace D :=
  let beside := (((space.focused.bind fun key => space.entries[key]?).map Entry.tile).or
    (space.firstEntry.bind space.tileOf)).or
      (space.graph.or (space.firstTile fun id role => role.isMetadata && space.holds id))
  let reading := space.firstTile fun id role => role.isReading && space.holds id
  let left := space.firstTile fun id role => role.isLeft && space.holds id
  let placed := placeBeside workbench beside reading left space.tree tile
  { space with tree := settle workbench placed tile }

def openLeft (title : String) (role : TileRole) : TileId × DocumentWorkspace D :=
  let besideLeft := (space.firstTile fun _ role => role.isLeft).filter space.holds
  let besideDocument := (space.focused.or space.firstEntry).bind space.tileOf
  let minted := space.mintTile title role
  let placed := joinOrSplit workbench besideLeft besideDocument .left space.tree minted.1
  (minted.1.id, { minted.2 with tree := joinFrame placed minted.1 })

def open_ (identity : DocIdentity) (title : String) (doc : D) :
    (DocKey × Bool) × DocumentWorkspace D :=
  match space.find identity with
  | some key => ((key, false), space.focus workbench key)
  | none =>
    let key := space.nextDoc
    let space : DocumentWorkspace D := { space with nextDoc := (space.nextDoc + 1) % u64Limit }
    let minted := space.mintTile title (.document key)
    let space := minted.2.placeDocumentTile workbench minted.1
    let entry := { identity, tile := minted.1.id, doc }
    let space : DocumentWorkspace D := { space with entries := space.entries.insert key entry }
    ((key, true), space.focus workbench key)

def openMetadata (site : SiteKey) (page title : String) : TileId × DocumentWorkspace D :=
  match space.metadataTile site page with
  | some tile => (tile, space.activate workbench tile)
  | none =>
    let minted := space.mintTile title (.metadata site page)
    let space := minted.2.placeDocumentTile workbench minted.1
    (minted.1.id, space.activate workbench minted.1.id)

def openReading (kind : ReadingKind) (pinned : Option DocKey) (title : String) :
    TileId × DocumentWorkspace D :=
  let besideReading := space.lastReading.filter space.holds
  let besideDocument := (space.focused.or space.firstEntry).bind space.tileOf
  let minted := space.mintTile title (.reading kind pinned)
  let placed := joinOrSplit workbench besideReading besideDocument .right space.tree minted.1
  (minted.1.id, { minted.2 with
    tree := workbench.activated (joinFrame placed minted.1) minted.1.id
    lastReading := some minted.1.id })

def openNavigator (title : String) : TileId × DocumentWorkspace D :=
  match space.navigator with
  | some tile => (tile, space)
  | none => space.openLeft workbench title .navigator

def openGraph (title : String) : TileId × DocumentWorkspace D :=
  match space.graph with
  | some tile => (tile, space.activate workbench tile)
  | none =>
    let minted := space.mintTile title .graph
    let space := minted.2.placeDocumentTile workbench minted.1
    (minted.1.id, space.activate workbench minted.1.id)

def openSiteTile (site : SiteKey) (title : String) : TileId × DocumentWorkspace D :=
  match space.siteTile site with
  | some tile => (tile, space.activate workbench tile)
  | none =>
    let opened := space.openLeft workbench title (.site site)
    (opened.1, opened.2.activate workbench opened.1)

def prepareLastDocumentClose (document : DocKey) (title : String) :
    Option TileId × DocumentWorkspace D :=
  if space.entries.size ≠ 1 ∨ document ∉ space.entries then (none, space)
  else
    match space.graph with
    | some graph => (some graph, space.activate workbench graph)
    | none =>
      match space.tileOf document with
      | none => (none, space)
      | some documentTile =>
        let minted := space.mintTile title .graph
        let inserted := workbench.insertTabAfter minted.2.tree documentTile minted.1
        let space : DocumentWorkspace D := { minted.2 with tree := inserted.2 }
        if inserted.1 then (some minted.1.id, space.activate workbench minted.1.id)
        else (none, { space with roles := space.roles.erase minted.1.id })

def removeTile (tile : TileId) : DocumentWorkspace D :=
  let space : DocumentWorkspace D := { space with
    roles := space.roles.erase tile
    tree := workbench.closed space.tree tile }
  if space.lastReading = some tile then
    { space with lastReading := (space.readings.map Prod.fst).getLast? }
  else space

def activeDocument : Option DocKey :=
  space.tree.activeTiles.findSome? fun tile : TileId =>
    match (space.roles[tile]? : Option TileRole) with
    | some (.document key) => some key
    | _ => none

def closeReading (tile : TileId) : DocumentWorkspace D :=
  match space.roles[tile]? with
  | some _ => space.removeTile workbench tile
  | none => space

def close (tile : TileId) : Option (DocKey × D) × DocumentWorkspace D :=
  match space.roles[tile]? with
  | none => (none, space)
  | some role =>
    let space := space.removeTile workbench tile
    match role with
    | .document key =>
      match space.entries[key]? with
      | none => (none, space)
      | some entry =>
        let space : DocumentWorkspace D := { space with entries := space.entries.erase key }
        let space := (space.readingsPinnedTo key).foldl (closeReading workbench) space
        let space : DocumentWorkspace D := if space.focused = some key then
            { space with focused := space.activeDocument.or space.firstEntry }
          else space
        (some (key, entry.doc), space)
    | _ => (none, space)

end DocumentWorkspace

end KnotEditor.Desktop.Documents
