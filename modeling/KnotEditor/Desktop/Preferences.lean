import KnotEditor.Library.KeyedCollection
import KnotEditor.Text

/-! The preferences file of the standalone desktop and the handles its windows hold on it. The JSON
values, the theme choices and the fold records belong to other crates and are type variables. -/

namespace KnotEditor

inductive SourceFace
  | ibmPlexMono
  | systemMonospace
  deriving DecidableEq

inductive Measure
  | narrow
  | medium
  | wide
  | full
  deriving DecidableEq

structure Appearance (Theme : Type) where
  dark : Bool := false
  themeChoice : Option Theme := none
  highlight : Bool := true
  fontSize : UInt8 := 16
  sourceFace : SourceFace := .ibmPlexMono
  measure : Measure := .medium
  followHardWrap : Bool := true
  relaxed : Bool := true
  deriving DecidableEq

structure UnknownKeys (Json : Type) (known : List String) where
  keys : Std.ExtTreeMap String Json
  unknown : ∀ key ∈ known, keys[key]? = none
  deriving DecidableEq

def UnknownKeys.empty {Json : Type} {known : List String} : UnknownKeys Json known :=
  ⟨∅, fun _ _ => Std.ExtTreeMap.getElem?_empty⟩

def appearanceKeys : List String :=
  ["dark", "theme-choice", "highlight", "font-size", "source-face", "measure", "follow-hard-wrap",
    "wide", "relaxed"]

def collapseKeys : List String :=
  ["reading-min-width", "rail-width", "menu-below", "drawer-below", "status-below"]

def preferenceKeys : List String :=
  ["version", "appearance", "collapse", "graph_layout", "graph_folds", "recovery_days", "embedding",
    "context_navigation"]

structure StoredAppearance (Json Theme : Type) where
  known : Appearance Theme := {}
  other : UnknownKeys Json appearanceKeys := .empty
  deriving DecidableEq

structure CollapsePreferences (Json : Type) where
  readingMinWidth : UInt16 := 280
  railWidth : UInt16 := 28
  menuBelow : UInt16 := 1150
  drawerBelow : UInt16 := 500
  statusBelow : UInt16 := 700
  other : UnknownKeys Json collapseKeys := .empty
  deriving DecidableEq

structure DesktopPreferences (Json Theme Fold : Type) where
  version : UInt32
  appearance : StoredAppearance Json Theme
  collapse : CollapsePreferences Json
  graphLayout : String
  graphFolds : Std.ExtTreeMap String (List Fold)
  recoveryDays : UInt16
  embedding : Option Json
  contextNavigation : Option Json
  other : UnknownKeys Json preferenceKeys

section values

variable {Json Theme Fold : Type} {known : List String}

def clampByte (low high value : UInt8) : UInt8 :=
  if value < low then low else if high < value then high else value

def clampShort (low high value : UInt16) : UInt16 :=
  if value < low then low else if high < value then high else value

def Appearance.clamp (appearance : Appearance Theme) : Appearance Theme :=
  { appearance with fontSize := clampByte 12 24 appearance.fontSize }

def CollapsePreferences.normalize (collapse : CollapsePreferences Json) :
    CollapsePreferences Json where
  readingMinWidth := clampShort 120 1200 collapse.readingMinWidth
  railWidth := clampShort 24 64 collapse.railWidth
  menuBelow := clampShort 320 2400 collapse.menuBelow
  drawerBelow := clampShort 320 2400 collapse.drawerBelow
  statusBelow := clampShort 320 2400 collapse.statusBelow
  other := collapse.other

def DesktopPreferences.clamp (preferences : DesktopPreferences Json Theme Fold) :
    DesktopPreferences Json Theme Fold :=
  { preferences with
    recoveryDays := clampShort 1 90 preferences.recoveryDays
    collapse := preferences.collapse.normalize
    appearance := { preferences.appearance with known := preferences.appearance.known.clamp } }

theorem getElem?_fill {entries : List (String × Json)} {keys : Std.ExtTreeMap String Json}
    {key : String} (missing : keys[key]? = none) (apart : ∀ entry ∈ entries, entry.1 ≠ key) :
    (entries.foldl (fun filled entry => filled.insertIfNew entry.1 entry.2) keys)[key]? = none := by
  induction entries generalizing keys with
  | nil => exact missing
  | cons entry rest ih =>
    rw [List.forall_mem_cons] at apart
    refine ih ?_ apart.2
    rw [Std.ExtTreeMap.getElem?_insertIfNew, if_neg, missing]
    rintro ⟨same, _⟩
    exact apart.1 (Std.LawfulEqCmp.eq_of_compare same)

def UnknownKeys.fill (given saved : UnknownKeys Json known) : UnknownKeys Json known where
  keys := saved.keys.toList.foldl (fun filled entry => filled.insertIfNew entry.1 entry.2) given.keys
  unknown key member := by
    refine getElem?_fill (given.unknown key member) fun entry listed same => ?_
    have held := Std.ExtTreeMap.mem_toList_iff_getElem?_eq_some.mp listed
    rw [same, saved.unknown key member] at held
    cases held

def UnknownKeys.insert (object : UnknownKeys Json known) (key : String) (value : Json)
    (foreign : key ∉ known) : UnknownKeys Json known where
  keys := object.keys.insert key value
  unknown other member := by
    have apart : key ≠ other := by
      rintro rfl
      exact foreign member
    rw [KeyedCollections.getElem?_insert_of_ne _ apart]
    exact object.unknown other member

end values

/-- The serializer, with the newline `save` adds, and the default of another crate. `reread` is what
an option comes back as: a `null` reads as no value. -/
structure PreferencesHost (Json Theme Fold : Type) where
  Text : Type
  null : Json
  defaultLayout : String
  fromStr : Text → Except String (DesktopPreferences Json Theme Fold)
  toStringPretty : DesktopPreferences Json Theme Fold → Except String Text

inductive PreferencesFile (Text : Type)
  | missing
  | contents (text : Text)
  | refused (reason : String)

structure PreferencesFaults where
  read : Option String := none
  createDirectory : Option String := none
  write : Option String := none

section store

variable {Json Theme Fold : Type}

def PreferencesHost.default (host : PreferencesHost Json Theme Fold) :
    DesktopPreferences Json Theme Fold where
  version := 1
  appearance := {}
  collapse := {}
  graphLayout := host.defaultLayout
  graphFolds := ∅
  recoveryDays := 30
  embedding := none
  contextNavigation := none
  other := .empty

def PreferencesHost.load (host : PreferencesHost Json Theme Fold) (path : String)
    (file : PreferencesFile host.Text) (faults : PreferencesFaults) :
    Except String (DesktopPreferences Json Theme Fold) :=
  match faults.read, file with
  | some why, _ => .error s!"{path}: {why}"
  | none, .missing => .ok host.default
  | none, .refused why => .error s!"{path}: {why}"
  | none, .contents text =>
    match host.fromStr text with
    | .error why => .error s!"{path}: {why}"
    | .ok preferences => .ok preferences.clamp

def PreferencesHost.save (host : PreferencesHost Json Theme Fold) (path : String)
    (preferences : DesktopPreferences Json Theme Fold) (faults : PreferencesFaults) :
    Except String host.Text :=
  match faults.createDirectory with
  | some why => .error s!"{path}: {why}"
  | none =>
    match host.toStringPretty preferences with
    | .error why => .error s!"{path}: {why}"
    | .ok text =>
      match faults.write with
      | some why => .error s!"{path}: {why}"
      | none => .ok text

structure PreferencesStore (Json Theme Fold : Type) where
  path : String
  saved : DesktopPreferences Json Theme Fold
  unreadable : Option String

structure PreferencesAnswer (host : PreferencesHost Json Theme Fold) where
  answer : Except String Bool
  store : PreferencesStore Json Theme Fold
  file : PreferencesFile host.Text

namespace PreferencesStore

variable (host : PreferencesHost Json Theme Fold) (store : PreferencesStore Json Theme Fold)
variable (file : PreferencesFile host.Text) (faults : PreferencesFaults)

def open_ (path : String) : PreferencesStore Json Theme Fold :=
  match host.load path file faults with
  | .ok saved => ⟨path, saved, none⟩
  | .error why => ⟨path, host.default, some why⟩

def write (next : DesktopPreferences Json Theme Fold) : PreferencesAnswer host :=
  match host.save store.path next faults with
  | .error why => ⟨.error why, store, file⟩
  | .ok text => ⟨.ok true, { store with saved := next }, .contents text⟩

def commit (draft : Except String (Option (DesktopPreferences Json Theme Fold))) :
    PreferencesAnswer host :=
  match draft with
  | .error why => ⟨.error why, store, file⟩
  | .ok none => ⟨.ok false, store, file⟩
  | .ok (some next) => store.write host file faults next

def draftUnless (unchanged : Bool) (next : DesktopPreferences Json Theme Fold) :
    Except String (Option (DesktopPreferences Json Theme Fold)) :=
  if unchanged then .ok none
  else
    match store.unreadable with
    | some why => .error ("the preferences file could not be read (" ++ why ++
        "); reset it in Appearance to save again")
    | none => .ok (some next)

variable [DecidableEq Json] [DecidableEq Theme]

def appearanceDraft (appearance : Appearance Theme) :
    Except String (Option (DesktopPreferences Json Theme Fold)) :=
  store.draftUnless (decide (store.saved.appearance.known = appearance))
    { store.saved with appearance := { store.saved.appearance with known := appearance } }

def graphFoldsDraft (scope : String) (folds : List Fold) :
    Except String (Option (DesktopPreferences Json Theme Fold)) :=
  match store.unreadable with
  | some why => .error s!"preferences are unreadable: {why}"
  | none => .ok (some { store.saved with graphFolds := store.saved.graphFolds.insert scope folds })

def graphLayoutDraft (layout : String) :
    Except String (Option (DesktopPreferences Json Theme Fold)) :=
  store.draftUnless (decide (store.saved.graphLayout = layout))
    { store.saved with graphLayout := layout }

def filledCollapse (collapse : CollapsePreferences Json) : CollapsePreferences Json :=
  CollapsePreferences.normalize
    { collapse with other := collapse.other.fill store.saved.collapse.other }

def collapseDraft (collapse : CollapsePreferences Json) :
    Except String (Option (DesktopPreferences Json Theme Fold)) :=
  store.draftUnless (decide (store.saved.collapse = store.filledCollapse collapse))
    { store.saved with collapse := store.filledCollapse collapse }

def recoveryDaysDraft (days : UInt16) :
    Except String (Option (DesktopPreferences Json Theme Fold)) :=
  if days ≠ 7 ∧ days ≠ 30 ∧ days ≠ 90 then
    .error "recovery retention must be 7, 30, or 90 days"
  else
    store.draftUnless (decide (store.saved.recoveryDays = days))
      { store.saved with recoveryDays := days }

def contextNavigationDraft (navigation : Except String Json) :
    Except String (Option (DesktopPreferences Json Theme Fold)) :=
  match navigation with
  | .error why => .error why
  | .ok value =>
    store.draftUnless (decide (store.saved.contextNavigation = some value))
      { store.saved with contextNavigation := some value }

theorem workspaceForme_foreign : "workspace_forme" ∉ preferenceKeys := by decide

def saveWorkspaceForme (baseline : Option Json) (value : Json) : PreferencesAnswer host :=
  match store.unreadable with
  | some why => ⟨.error s!"Preferences could not be read: {why}", store, file⟩
  | none =>
    match host.load store.path file faults with
    | .error why => ⟨.error why, store, file⟩
    | .ok next =>
      if next.other.keys["workspace_forme"]? ≠ baseline then
        ⟨.error "The saved workspace changed elsewhere; discard this draft and unlock again",
          { store with saved := next }, file⟩
      else
        store.write host file faults
          { next with other := next.other.insert "workspace_forme" value workspaceForme_foreign }

def reset (appearance : Appearance Theme) : PreferencesAnswer host :=
  let next := { host.default with
    appearance := { host.default.appearance with known := appearance } }
  let written := store.write host file faults next
  match written.answer with
  | .error _ => written
  | .ok _ => { written with store := { written.store with unreadable := none } }

end PreferencesStore

inductive PreferencesCall (Json Theme Fold : Type)
  | appearance (appearance : Appearance Theme)
  | graphFolds (scope : String) (folds : List Fold)
  | graphLayout (layout : String)
  | collapse (collapse : CollapsePreferences Json)
  | recoveryDays (days : UInt16)
  | contextNavigation (navigation : Except String Json)
  | workspaceForme (baseline : Option Json) (value : Json)
  | reset (appearance : Appearance Theme)

variable [DecidableEq Json] [DecidableEq Theme]

namespace PreferencesStore

variable (store : PreferencesStore Json Theme Fold)

def draft : PreferencesCall Json Theme Fold →
    Except String (Option (DesktopPreferences Json Theme Fold))
  | .appearance appearance => store.appearanceDraft appearance
  | .graphFolds scope folds => store.graphFoldsDraft scope folds
  | .graphLayout layout => store.graphLayoutDraft layout
  | .collapse collapse => store.collapseDraft collapse
  | .recoveryDays days => store.recoveryDaysDraft days
  | .contextNavigation navigation => store.contextNavigationDraft navigation
  | .workspaceForme _ _ => .ok none
  | .reset _ => .ok none

def call (host : PreferencesHost Json Theme Fold) (file : PreferencesFile host.Text)
    (faults : PreferencesFaults) : PreferencesCall Json Theme Fold → PreferencesAnswer host
  | .workspaceForme baseline value => store.saveWorkspaceForme host file faults baseline value
  | .reset appearance => store.reset host file faults appearance
  | save => store.commit host file faults (store.draft save)

end PreferencesStore

structure PreferencesWorld (host : PreferencesHost Json Theme Fold) where
  path : String
  file : PreferencesFile host.Text
  handles : List (PreferencesStore Json Theme Fold) := []

inductive PreferencesAction (host : PreferencesHost Json Theme Fold)
  | open_ (faults : PreferencesFaults)
  | call (handle : Nat) (call : PreferencesCall Json Theme Fold) (faults : PreferencesFaults)
  | edit (file : PreferencesFile host.Text)

def PreferencesWorld.perform {host : PreferencesHost Json Theme Fold}
    (world : PreferencesWorld host) : PreferencesAction host → PreferencesWorld host
  | .open_ faults => { world with
      handles := world.handles ++ [PreferencesStore.open_ host world.file faults world.path] }
  | .call handle call faults =>
    match world.handles[handle]? with
    | none => world
    | some store =>
      let answered := store.call host world.file faults call
      { world with file := answered.file, handles := world.handles.set handle answered.store }
  | .edit file => { world with file }

end store

end KnotEditor
