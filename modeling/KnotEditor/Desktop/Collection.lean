import KnotEditor.Sync.Retention

/-! The composition collection of a window: material is retained at one chosen destination, by
workers that ask its port, and what the window shows is the list the last of them brought back. -/

namespace KnotEditor.Desktop

structure KnotPersonaDisplayV1 where
  stableId : String
  label : String
  deriving DecidableEq

inductive KnotRetainEncryptionV1
  | personalVaultV1
  | commonsDataV1
  deriving DecidableEq

structure KnotRetainTargetV1 where
  persona : KnotPersonaDisplayV1
  spaceId : Bytes32
  writer : Bytes32
  encryption : KnotRetainEncryptionV1
  deriving DecidableEq

structure CompositionReceipt where
  target : KnotRetainTargetV1
  itemId : String
  operation : Bytes32
  alreadyRetained : Bool
  deriving DecidableEq

structure CollectionHost extends RetentionHost where
  sceneRevision : composition.Scene → String
  scenePositions : composition.Recipe → Except String Unit
  toLowercase : String → String

abbrev CollectionHost.Scene (host : CollectionHost) : Type := host.composition.Scene

abbrev CollectionHost.Recipe (host : CollectionHost) : Type := host.composition.Recipe

structure RetainedCompositionItem (host : CollectionHost) where
  item : host.Item
  author : Bytes32
  receipt : CompositionReceipt
  organization : CollectionOrganization
  organizationRevision : Bytes32

variable {host : CollectionHost}

namespace RetainedCompositionItem

def order (left right : RetainedCompositionItem host) : Ordering :=
  (compare left.organization.collection right.organization.collection).then <|
    (compare left.organization.order.toInt right.organization.order.toInt).then <|
      (compare left.organization.label right.organization.label).then <|
        (compare left.author right.author).then (compare left.item.id right.item.id)

def sort (rows : List (RetainedCompositionItem host)) : List (RetainedCompositionItem host) :=
  rows.mergeSort fun left right => left.order right != .gt

def Receipted (target : KnotRetainTargetV1) (row : RetainedCompositionItem host) : Prop :=
  row.receipt.target = target ∧ row.receipt.itemId = row.item.id

instance (target : KnotRetainTargetV1) (row : RetainedCompositionItem host) :
    Decidable (row.Receipted target) := instDecidableAnd

def confirms (target : KnotRetainTargetV1) (item : host.Item)
    (row : RetainedCompositionItem host) : Bool :=
  decide (row.author = target.writer) && host.sameItem row.item item

def change (row : RetainedCompositionItem host) : OrganizeComposition where
  author := row.author
  itemId := row.item.id
  expectedRevision := row.organizationRevision
  organization := row.organization

def containsText (text search : String) : Bool :=
  text.toList.tails.any fun rest => search.toList.isPrefixOf rest

def isShown (row : RetainedCompositionItem host) (search : String) (showArchived : Bool) : Bool :=
  if row.organization.archived && !showArchived then false
  else
    let search := host.toLowercase (trim search)
    search.isEmpty ||
      ([row.organization.label, row.organization.collection, row.organization.authorNotes,
        row.item.text] ++ row.organization.tags).any fun text =>
          containsText (host.toLowercase text) search

end RetainedCompositionItem

/-! ### The readings that can be retained -/

structure MetreState (host : CollectionHost) where
  draft : Option host.Scene := none
  saved : Option String := none

namespace MetreState

variable (metre : MetreState host)

def dirty : Bool :=
  metre.draft.any fun scene => decide (metre.saved ≠ some (host.sceneRevision scene))

def markRetained (scene : host.Scene) : MetreState host :=
  if metre.draft.any fun draft => host.sameScene draft scene then
    { metre with saved := some (host.sceneRevision scene) }
  else metre

def markRow (row : RetainedCompositionItem host) : MetreState host :=
  match row.item.metreScene with
  | some scene => metre.markRetained scene
  | none => metre

def openCopy (scene : host.Scene) : Except String (MetreState host) :=
  if metre.dirty then
    .error "Collect or discard the current metre draft before opening another"
  else do
    host.composition.validateScene scene
    if host.composition.sceneIsMetreGrid scene then
      .ok { draft := some scene, saved := some (host.sceneRevision scene) }
    else .error "A metre reading is required"

end MetreState

inductive HistoryCall
  | record
  | undo
  | redo
  | clear
  | forgetSaved
  | markSaved
  deriving DecidableEq

structure RecipeState (host : CollectionHost) where
  material : Option host.Recipe := none
  history : List HistoryCall := []

namespace RecipeState

variable (recipe : RecipeState host)

def markRetained (retained : host.Recipe) : RecipeState host :=
  if recipe.material.any fun current => host.sameRecipe current retained then
    { recipe with history := recipe.history ++ [.markSaved] }
  else recipe

def markRow (row : RetainedCompositionItem host) : RecipeState host :=
  match row.item.projectionRecipe with
  | some material => recipe.markRetained material
  | none => recipe

def reset (material : host.Recipe) (retained : Bool) : RecipeState host where
  material := some material
  history := recipe.history ++ [.clear, if retained then .markSaved else .forgetSaved]

end RecipeState

/-! ### Workers -/

inductive WorkerPhase (host : CollectionHost)
  | opens
  | retains (item : host.Item) (rest : List host.Item)
  | organizes (change : OrganizeComposition)
  | lists
  | sent (result : Except String (List (RetainedCompositionItem host)))
  | received (result : Except String (List (RetainedCompositionItem host)))
  | gone

def WorkerPhase.calls : WorkerPhase host → Bool
  | opens | retains .. | organizes _ | lists => true
  | sent _ | received _ | gone => false

/-- What a call of a worker comes to. An error, a wrong receipt and a panic all leave open whether
the destination has stored the item. -/
inductive PortAnswer (host : CollectionHost)
  | opened (isFile : Bool) (result : Except String (List host.Item))
  | receipt (result : Except String CompositionReceipt)
  | listed (result : Except String (List (RetainedCompositionItem host)))
  | panicked
  | lost

structure CollectionWorker (host : CollectionHost) where
  target : KnotRetainTargetV1
  generation : UInt64
  items : List host.Item
  legacy : Bool
  path : Option String
  change : Option OrganizeComposition
  phase : WorkerPhase host

namespace CollectionWorker

variable (worker : CollectionWorker host)

def inFlight : Bool :=
  match worker.phase with
  | .received _ | .gone => false
  | _ => true

def next (change : Option OrganizeComposition) : List host.Item → WorkerPhase host
  | item :: rest => .retains item rest
  | [] => (change.map .organizes).getD .lists

def send (result : Except String (List (RetainedCompositionItem host))) : CollectionWorker host :=
  { worker with phase := .sent result }

def opened (isFile : Bool) (result : Except String (List host.Item)) : CollectionWorker host :=
  match worker.path with
  | none => worker.send (.error "No legacy collection path is configured.")
  | some _ =>
    if isFile then
      match result with
      | .error error => worker.send (.error error)
      | .ok items => { worker with phase := next worker.change items }
    else worker.send (.error "No legacy collection file exists.")

def retained (item : host.Item) (rest : List host.Item) :
    Except String CompositionReceipt → CollectionWorker host
  | .error error => worker.send (.error error)
  | .ok receipt =>
    if receipt.target ≠ worker.target ∨ receipt.itemId ≠ item.id then
      worker.send
        (.error "Retention receipt did not match the requested item and destination.")
    else { worker with phase := next worker.change rest }

def organized (change : OrganizeComposition) :
    Except String CompositionReceipt → CollectionWorker host
  | .error error => worker.send (.error error)
  | .ok receipt =>
    if receipt.target ≠ worker.target ∨ receipt.itemId ≠ change.itemId then
      worker.send
        (.error "Organization receipt did not match the requested item and destination.")
    else { worker with phase := .lists }

def listed : Except String (List (RetainedCompositionItem host)) → CollectionWorker host
  | .error error => worker.send (.error error)
  | .ok rows =>
    if rows.any fun row => !decide (row.Receipted worker.target) then
      worker.send (.error "Collection returned mismatched authority receipts.")
    else worker.send (.ok rows)

def answer : PortAnswer host → CollectionWorker host
  | .opened isFile result =>
    match worker.phase with
    | .opens => worker.opened isFile result
    | _ => worker
  | .receipt result =>
    match worker.phase with
    | .retains item rest => worker.retained item rest result
    | .organizes change => worker.organized change result
    | _ => worker
  | .listed result =>
    match worker.phase with
    | .lists => worker.listed result
    | _ => worker
  | .panicked =>
    if worker.phase.calls then
      worker.send (.error "Collection worker stopped; retention outcome is uncertain.")
    else worker
  | .lost => if worker.phase.calls then { worker with phase := .gone } else worker

end CollectionWorker

/-! ### The window's part -/

/-- The ports by the destination each is for, and the receiver by the worker that sends to it. -/
structure CompositionState (host : CollectionHost) where
  recipe : RecipeState host := {}
  metre : MetreState host := {}
  notice : Option String := none
  retained : List (RetainedCompositionItem host) := []
  collectionSearch : String := ""
  showArchived : Bool := false
  organizationEdit : Option (KnotRetainTargetV1 × OrganizeComposition) := none
  organizationLabel : String := ""
  organizationCollection : String := ""
  organizationNotes : String := ""
  organizationTags : String := ""
  organizationOrder : String := ""
  targets : List KnotRetainTargetV1 := []
  selectedTarget : Option Nat := none
  generation : UInt64 := 0
  receiver : Option Nat := none
  retryItems : List host.Item := []
  retryTarget : Option KnotRetainTargetV1 := none
  legacyPath : Option String := none

namespace CompositionState

variable (state : CompositionState host)

def busy : Bool := state.receiver.isSome

def target : Option KnotRetainTargetV1 :=
  state.selectedTarget.bind fun index => state.targets[index]?

def setTargets (targets : List KnotRetainTargetV1) : CompositionState host :=
  { state with
    generation := state.generation + 1
    targets := targets
    selectedTarget := none
    retained := []
    organizationEdit := none
    notice := some (if state.busy then
        "Destinations changed during retention. The previous destination may contain the item; " ++
          "choose it and refresh before retrying."
      else "Choose a persona and space in Collection before retaining material.") }

def crosses (target : KnotRetainTargetV1) (items : List host.Item) (legacy : Bool) : Bool :=
  (!items.isEmpty || legacy) && !state.retryItems.isEmpty &&
    (decide (state.retryTarget ≠ some target) || legacy ||
      decide (items.map CollectionItem.id ≠ state.retryItems.map CollectionItem.id))

def settleRetry : CompositionState host :=
  match state.retryTarget with
  | none => state
  | some target =>
    if state.target = some target then
      let waiting := state.retryItems.filter fun item =>
        !state.retained.any (RetainedCompositionItem.confirms target item)
      { state with
        retryItems := waiting
        retryTarget := if waiting.isEmpty then none else state.retryTarget }
    else state

def confirm (rows : List (RetainedCompositionItem host)) : CompositionState host :=
  let retained := RetainedCompositionItem.sort rows
  let shown := { state with
    retained := retained
    organizationEdit := none
    metre := retained.foldl MetreState.markRow state.metre
    recipe := retained.foldl RecipeState.markRow state.recipe }
  { shown.settleRetry with
    notice := some (s!"Confirmed {retained.length} retained items in the selected Knot mere. " ++
      "Legacy source files are never changed.") }

def unconfirmed (notice : String) : CompositionState host :=
  { state with retained := [], organizationEdit := none, notice := some notice }

def visible : List (RetainedCompositionItem host) :=
  state.retained.filter fun row => row.isShown state.collectionSearch state.showArchived

def startOrganizationEdit (change : OrganizeComposition) : CompositionState host :=
  if state.busy then state
  else
    match state.target with
    | none => state
    | some target =>
      { state with
        organizationLabel := change.organization.label
        organizationCollection := change.organization.collection
        organizationNotes := change.organization.authorNotes
        organizationTags := String.intercalate ", " change.organization.tags
        organizationOrder := toString change.organization.order.toInt
        organizationEdit := some (target, change) }

def decimal (digits : List Char) : Option Nat :=
  if digits.isEmpty || !digits.all Char.isDigit then none
  else some (digits.foldl (fun value digit => 10 * value + (digit.toNat - '0'.toNat)) 0)

def parseI64 (text : String) : Option Int64 := do
  let value : Int ← match text.toList with
    | '-' :: digits => (decimal digits).map fun value => -(value : Int)
    | '+' :: digits => (decimal digits).map Int.ofNat
    | digits => (decimal digits).map Int.ofNat
  if -(2 ^ 63) ≤ value ∧ value < 2 ^ 63 then some (Int64.ofInt value) else none

def splitTags (text : String) : List String :=
  ((text.toList.splitOn ',').map fun tag => trim (String.ofList tag)).filter fun tag => !tag.isEmpty

def typedOrganization (organization : CollectionOrganization) (order : Int64) :
    CollectionOrganization :=
  { organization with
    label := state.organizationLabel
    collection := state.organizationCollection
    authorNotes := state.organizationNotes
    tags := if state.organizationTags ≠ String.intercalate ", " organization.tags then
        splitTags state.organizationTags
      else organization.tags
    order := order }

def savedOrganization : Except (Option String) OrganizeComposition :=
  if state.busy then .error none
  else
    match state.organizationEdit with
    | none => .error none
    | some (target, change) =>
      if state.target ≠ some target then
        .error (some "Collection destination changed; reopen the item before editing.")
      else
        match parseI64 (trim state.organizationOrder) with
        | none => .error (some "Order must be a signed whole number.")
        | some order =>
          let organization := state.typedOrganization change.organization order
          match organization.validate with
          | .error error => .error (some error.text)
          | .ok () => .ok { change with organization := organization }

end CompositionState

/-- The window and the workers it has started, the first one first. `changes` is history, which
nothing reads: how often the destinations were replaced since the last of them started. -/
structure DesktopCollection (host : CollectionHost) where
  composition : CompositionState host := {}
  workers : List (CollectionWorker host) := []
  changes : Nat := 0

namespace DesktopCollection

variable (desk : DesktopCollection host)

def withState (state : CompositionState host) : DesktopCollection host :=
  { desk with composition := state }

def notify (notice : String) : DesktopCollection host :=
  desk.withState { desk.composition with notice := some notice }

def submitted (target : KnotRetainTargetV1) (items : List host.Item) (legacy : Bool)
    (change : Option OrganizeComposition) : CollectionWorker host where
  target := target
  generation := desk.composition.generation
  items := items
  legacy := legacy
  path := desk.composition.legacyPath
  change := change
  phase := if legacy then .opens else CollectionWorker.next change items

/-- `starts` says whether the host gives the worker a thread. -/
def requestOperation (items : List host.Item) (legacy : Bool)
    (change : Option OrganizeComposition) (starts : Bool) : DesktopCollection host :=
  if desk.composition.busy then
    desk.notify "A collection request is already in progress."
  else
    -- Old rows are not left confirmed by a destination that may be locked or revoked by now.
    let cleared := { desk.composition with retained := [] }
    match cleared.target with
    | none =>
      desk.withState { cleared with
        notice := some ("No collection destination selected. Choose a writable Knot mere " ++
          "persona and space in Collection; no plaintext fallback is written.") }
    | some target =>
      if cleared.crosses target items legacy then
        desk.withState { cleared with
          notice := some ("A previous collection request is still unconfirmed. Select its " ++
            "original destination and refresh or retry that same request before collecting " ++
            "new material.") }
      else
        let kept := if items.isEmpty then cleared else
          { cleared with retryItems := items, retryTarget := some target }
        if starts then
          { composition := { kept with
              receiver := some desk.workers.length
              notice := some "Checking the selected Knot mere…" }
            workers := desk.workers ++ [desk.submitted target items legacy change]
            changes := 0 }
        else
          desk.withState { kept with
            receiver := none
            notice := some "Collection worker could not start; nothing was submitted." }

def setTargets (targets : List KnotRetainTargetV1) : DesktopCollection host :=
  { desk with
    composition := desk.composition.setTargets targets
    changes := desk.changes + 1 }

def request (items : List host.Item) (legacy starts : Bool) : DesktopCollection host :=
  desk.requestOperation items legacy none starts

def requestOrganization (change : OrganizeComposition) (starts : Bool) : DesktopCollection host :=
  desk.requestOperation [] false (some change) starts

def selectTarget (index : Nat) (starts : Bool) : DesktopCollection host :=
  if desk.composition.busy then desk
  else
    (desk.withState { desk.composition with
      generation := desk.composition.generation + 1
      selectedTarget := some index
      organizationEdit := none
      retained := [] }).request [] false starts

def retry (starts : Bool) : DesktopCollection host :=
  if desk.composition.retryItems.isEmpty then desk
  else desk.request desk.composition.retryItems false starts

def archive (row : RetainedCompositionItem host) (starts : Bool) : DesktopCollection host :=
  if desk.composition.busy then desk
  else
    desk.requestOrganization { row.change with
      organization := { row.organization with archived := !row.organization.archived } } starts

def saveOrganizationEdit (starts : Bool) : DesktopCollection host :=
  match desk.composition.savedOrganization with
  | .ok change => desk.requestOrganization change starts
  | .error (some notice) => desk.notify notice
  | .error none => desk

def receive (index : Nat) (worker : CollectionWorker host)
    (result : Except String (List (RetainedCompositionItem host))) : DesktopCollection host :=
  { desk with
    composition := { desk.composition with receiver := none }
    workers := desk.workers.set index { worker with phase := .received result } }

def drain : DesktopCollection host :=
  match desk.composition.receiver with
  | none => desk
  | some index =>
    match desk.workers[index]? with
    | none => desk
    | some worker =>
      match worker.phase with
      | .sent result =>
        let received := desk.receive index worker result
        if worker.generation ≠ desk.composition.generation then received
        else
          match result with
          | .ok rows => received.withState (received.composition.confirm rows)
          | .error error =>
            received.withState (received.composition.unconfirmed
              (s!"Collection could not be confirmed: {error}. Refresh or retry the same " ++
                "request; no plaintext fallback was written."))
      | .gone =>
        desk.withState (CompositionState.unconfirmed
          { desk.composition with receiver := none }
          ("Collection worker disconnected; outcome is uncertain. Refresh the destination " ++
            "before retrying."))
      | _ => desk

def work (index : Nat) (answer : PortAnswer host) : DesktopCollection host :=
  match desk.workers[index]? with
  | none => desk
  | some worker => { desk with workers := desk.workers.set index (worker.answer answer) }

def openMetre (row : RetainedCompositionItem host) : DesktopCollection host :=
  match row.item.metreScene with
  | none => desk
  | some scene =>
    match desk.composition.metre.openCopy scene with
    | .ok metre => desk.withState { desk.composition with metre := metre }
    | .error error => desk.notify error

def reopenRecipe (row : RetainedCompositionItem host) : DesktopCollection host :=
  match row.item.projectionRecipe with
  | none => desk
  | some material =>
    match host.scenePositions material with
    | .ok () =>
      desk.withState { desk.composition with
        recipe := desk.composition.recipe.reset material true
        notice := some ("Retained recipe reopened against its copied disclosure. Source " ++
          "actions still require the exact original source; rebind explicitly to use a new " ++
          "reading.") }
    | .error error => desk.notify s!"Retained recipe refused: {error}"

end DesktopCollection

/-- What happens to the collection, in any order. A press on a row is by its place among the rows
shown; `edit` of the metre or the recipe is any work of its own editor on the draft. -/
inductive CollectionAction (host : CollectionHost)
  | setTargets (targets : List KnotRetainTargetV1)
  | selectTarget (index : Nat) (starts : Bool)
  | collect (item : host.Item) (starts : Bool)
  | retry (starts : Bool)
  | refresh (starts : Bool)
  | importLegacy (starts : Bool)
  | archive (row : Nat) (starts : Bool)
  | startOrganizationEdit (row : Nat)
  | typeOrganization (label collection notes tags order : String)
  | saveOrganizationEdit (starts : Bool)
  | cancelOrganizationEdit
  | typeSearch (search : String)
  | toggleArchived
  | drain
  | work (worker : Nat) (answer : PortAnswer host)
  | startMetre (scene : host.Scene)
  | editMetre (scene : host.Scene)
  | discardMetre
  | openMetre (row : Nat)
  | bindRecipe (material : host.Recipe)
  | recordRecipe (material : host.Recipe)
  | stepRecipe (material : host.Recipe) (redo : Bool)
  | reopenRecipe (row : Nat)

namespace DesktopCollection

def press (desk : DesktopCollection host) (row : Nat)
    (act : RetainedCompositionItem host → DesktopCollection host) : DesktopCollection host :=
  match desk.composition.visible[row]? with
  | some shown => act shown
  | none => desk

def step (desk : DesktopCollection host) : CollectionAction host → DesktopCollection host
  | .setTargets targets => desk.setTargets targets
  | .selectTarget index starts => desk.selectTarget index starts
  | .collect item starts => desk.request [item] false starts
  | .retry starts => desk.retry starts
  | .refresh starts => desk.request [] false starts
  | .importLegacy starts => desk.request [] true starts
  | .archive row starts => desk.press row fun shown => desk.archive shown starts
  | .startOrganizationEdit row => desk.press row fun shown =>
    desk.withState (desk.composition.startOrganizationEdit shown.change)
  | .typeOrganization label collection notes tags order =>
    desk.withState { desk.composition with
      organizationLabel := label
      organizationCollection := collection
      organizationNotes := notes
      organizationTags := tags
      organizationOrder := order }
  | .saveOrganizationEdit starts => desk.saveOrganizationEdit starts
  | .cancelOrganizationEdit =>
    desk.withState { desk.composition with organizationEdit := none }
  | .typeSearch search => desk.withState { desk.composition with collectionSearch := search }
  | .toggleArchived =>
    desk.withState { desk.composition with showArchived := !desk.composition.showArchived }
  | .drain => desk.drain
  | .work index answer => desk.work index answer
  | .startMetre scene =>
    if desk.composition.metre.dirty then desk
    else desk.withState { desk.composition with metre := { draft := some scene, saved := none } }
  | .editMetre scene =>
    desk.withState { desk.composition with
      metre := { desk.composition.metre with
        draft := desk.composition.metre.draft.map fun _ => scene } }
  | .discardMetre => desk.withState { desk.composition with metre := {} }
  | .openMetre row => desk.press row desk.openMetre
  | .bindRecipe material =>
    desk.withState { desk.composition with
      recipe := desk.composition.recipe.reset material false }
  | .recordRecipe material =>
    desk.withState { desk.composition with
      recipe := ⟨some material, desk.composition.recipe.history ++ [.record]⟩ }
  | .stepRecipe material redo =>
    desk.withState { desk.composition with
      recipe := ⟨some material,
        desk.composition.recipe.history ++ [if redo then .redo else .undo]⟩ }
  | .reopenRecipe row => desk.press row desk.reopenRecipe

def run (desk : DesktopCollection host) (actions : List (CollectionAction host)) :
    DesktopCollection host :=
  actions.foldl step desk

end DesktopCollection

def CompositionState.configured (host : CollectionHost) (legacyPath : Option String) :
    DesktopCollection host where
  composition := { legacyPath := legacyPath }

end KnotEditor.Desktop
