import KnotEditor.Desktop.Preferences
import KnotEditor.Library.Run

/-! What saves through several handles do to each other. A save writes the whole file from the
handle's copy, so it keeps what else the file holds only where the copy is still what the file
holds; `save_workspace_forme` reads the file again and always keeps it. -/

namespace KnotEditor

section sections

variable {Json Theme Fold : Type}

inductive PreferencesSection
  | appearance
  | graphFolds
  | graphLayout
  | collapse
  | recoveryDays
  | contextNavigation
  | workspaceForme
  deriving DecidableEq

def UnknownKeys.erase {known : List String} (object : UnknownKeys Json known) (key : String) :
    UnknownKeys Json known where
  keys := object.keys.erase key
  unknown other member := by
    rw [Std.ExtTreeMap.getElem?_erase, object.unknown other member]
    exact ite_self none

/-- The preferences with one section taken out. The unknown keys inside a section stay. -/
def DesktopPreferences.without (preferences : DesktopPreferences Json Theme Fold) :
    PreferencesSection → DesktopPreferences Json Theme Fold
  | .appearance => { preferences with
      appearance := { preferences.appearance with known := {} } }
  | .graphFolds => { preferences with graphFolds := ∅ }
  | .graphLayout => { preferences with graphLayout := "" }
  | .collapse => { preferences with collapse := {} }
  | .recoveryDays => { preferences with recoveryDays := 0 }
  | .contextNavigation => { preferences with contextNavigation := none }
  | .workspaceForme => { preferences with other := preferences.other.erase "workspace_forme" }

def SameOutside (own : PreferencesSection) (before after : DesktopPreferences Json Theme Fold) :
    Prop :=
  after.without own = before.without own ∧ after.collapse.other = before.collapse.other

def PreferencesCall.section? : PreferencesCall Json Theme Fold → Option PreferencesSection
  | .appearance _ => some .appearance
  | .graphFolds _ _ => some .graphFolds
  | .graphLayout _ => some .graphLayout
  | .collapse _ => some .collapse
  | .recoveryDays _ => some .recoveryDays
  | .contextNavigation _ => some .contextNavigation
  | .workspaceForme _ _ => some .workspaceForme
  | .reset _ => none

/-- What an option with a `null` is read back as. -/
def DesktopPreferences.reread [DecidableEq Json] (null : Json)
    (preferences : DesktopPreferences Json Theme Fold) : DesktopPreferences Json Theme Fold :=
  { preferences with
    embedding := preferences.embedding.filter (· ≠ null)
    contextNavigation := preferences.contextNavigation.filter (· ≠ null) }

variable [DecidableEq Json]

/-- The serializer reads back what it wrote, and never reads a `null` as a value. -/
structure PreferencesHost.Documented (host : PreferencesHost Json Theme Fold) : Prop where
  readsBack : ∀ preferences text, host.toStringPretty preferences = .ok text →
    host.fromStr text = .ok (preferences.reread host.null)
  readsNoNull : ∀ text preferences, host.fromStr text = .ok preferences →
    preferences.reread host.null = preferences

def PreferencesHost.stored (host : PreferencesHost Json Theme Fold)
    (preferences : DesktopPreferences Json Theme Fold) : DesktopPreferences Json Theme Fold :=
  (preferences.reread host.null).clamp

end sections

section kept

variable {Json Theme Fold : Type} [DecidableEq Json] [DecidableEq Theme]

def PreferencesHost.holds (host : PreferencesHost Json Theme Fold) (path : String)
    (file : PreferencesFile host.Text) : Except String (DesktopPreferences Json Theme Fold) :=
  host.load path file {}

structure CallKeeps (host : PreferencesHost Json Theme Fold) (path : String)
    (call : PreferencesCall Json Theme Fold) (before : PreferencesFile host.Text)
    (answered : PreferencesAnswer host) : Prop where
  refused : ∀ why, answered.answer = .error why → answered.file = before
  malformed : ∀ own why, call.section? = some own → host.holds path before = .error why →
    answered.file = before
  others : ∀ own written held, call.section? = some own → answered.answer = .ok written →
    host.holds path before = .ok held →
      ∃ after, host.holds path answered.file = .ok after ∧ SameOutside own held after
  baseline : ∀ baseline value written, call = .workspaceForme baseline value →
    answered.answer = .ok written →
      ∃ held, host.holds path before = .ok held ∧ held.other.keys["workspace_forme"]? = baseline

def PreferencesStore.collapseKeysOf (store : PreferencesStore Json Theme Fold) :
    PreferencesCall Json Theme Fold → UnknownKeys Json collapseKeys
  | .collapse collapse => collapse.other.fill store.saved.collapse.other
  | _ => store.saved.collapse.other

def CopyCurrent (host : PreferencesHost Json Theme Fold) (path : String)
    (file : PreferencesFile host.Text) (store : PreferencesStore Json Theme Fold)
    (call : PreferencesCall Json Theme Fold) : Prop :=
  ∀ own, call.section? = some own → ∃ held, host.holds path file = .ok held ∧
    (host.stored store.saved).without own = held.without own ∧
    store.collapseKeysOf call = held.collapse.other

def WritesCurrent (host : PreferencesHost Json Theme Fold) (path : String)
    (file : PreferencesFile host.Text) (store : PreferencesStore Json Theme Fold)
    (faults : PreferencesFaults) (call : PreferencesCall Json Theme Fold) : Prop :=
  ∀ next text, store.draft call = .ok (some next) →
    host.save store.path next faults = .ok text → CopyCurrent host path file store call

end kept

section clamping

variable {Json Theme Fold : Type}

theorem clampByte_clampByte {low high : UInt8} (ordered : ¬ high < low) (value : UInt8) :
    clampByte low high (clampByte low high value) = clampByte low high value := by
  unfold clampByte
  split
  · simp
  · split
    · simp
    · simp [*]

theorem clampShort_clampShort {low high : UInt16} (ordered : ¬ high < low) (value : UInt16) :
    clampShort low high (clampShort low high value) = clampShort low high value := by
  unfold clampShort
  split
  · simp
  · split
    · simp
    · simp [*]

theorem normalize_normalize (collapse : CollapsePreferences Json) :
    collapse.normalize.normalize = collapse.normalize := by
  simp only [CollapsePreferences.normalize, CollapsePreferences.mk.injEq, and_true]
  exact ⟨clampShort_clampShort (by decide) _, clampShort_clampShort (by decide) _,
    clampShort_clampShort (by decide) _, clampShort_clampShort (by decide) _,
    clampShort_clampShort (by decide) _⟩

theorem clamp_clamp (appearance : Appearance Theme) :
    appearance.clamp.clamp = appearance.clamp := by
  simp only [Appearance.clamp, Appearance.mk.injEq, true_and, and_true]
  exact clampByte_clampByte (by decide) _

theorem clamp_preferences (preferences : DesktopPreferences Json Theme Fold) :
    preferences.clamp.clamp = preferences.clamp := by
  simp only [DesktopPreferences.clamp, normalize_normalize, clamp_clamp,
    clampShort_clampShort (show ¬ (90 : UInt16) < 1 by decide)]

variable {host : PreferencesHost Json Theme Fold} {path : String}

theorem holds_contents (text : host.Text) : host.holds path (.contents text) =
    match host.fromStr text with
    | .error why => .error s!"{path}: {why}"
    | .ok preferences => .ok preferences.clamp := rfl

variable [DecidableEq Json] {preferences : DesktopPreferences Json Theme Fold}

theorem reread_reread (null : Json) (preferences : DesktopPreferences Json Theme Fold) :
    (preferences.reread null).reread null = preferences.reread null := by
  simp [DesktopPreferences.reread, Option.filter_filter]

theorem stored_of_holds (documented : host.Documented) {file : PreferencesFile host.Text}
    (holds : host.holds path file = .ok preferences) : host.stored preferences = preferences := by
  cases file with
  | missing =>
    cases holds
    rfl
  | refused why => cases holds
  | contents text =>
    rw [holds_contents] at holds
    cases parsed : host.fromStr text with
    | error why =>
      rw [parsed] at holds
      cases holds
    | ok read =>
      rw [parsed] at holds
      cases holds
      have same : (read.reread host.null).clamp.clamp = read.clamp := by
        rw [documented.readsNoNull text read parsed, clamp_preferences]
      exact same

theorem holds_written (documented : host.Documented) {faults : PreferencesFaults} {text : host.Text}
    {own : String} (saved : host.save own preferences faults = .ok text) :
    host.holds path (.contents text) = .ok (host.stored preferences) := by
  rw [PreferencesHost.save] at saved
  split at saved
  · cases saved
  · split at saved
    · cases saved
    · rename_i written printed
      split at saved
      · cases saved
      · cases saved
        rw [holds_contents, documented.readsBack preferences text printed]
        rfl

end clamping

section calls

variable {Json Theme Fold : Type}
variable {host : PreferencesHost Json Theme Fold} {path : String}
variable {file : PreferencesFile host.Text} {store : PreferencesStore Json Theme Fold}
variable {faults : PreferencesFaults} {call : PreferencesCall Json Theme Fold}
variable {own : PreferencesSection} {next : DesktopPreferences Json Theme Fold}

theorem draftUnless_eq {unchanged : Bool} {drafted : DesktopPreferences Json Theme Fold}
    (draft : store.draftUnless unchanged drafted = .ok (some next)) : next = drafted := by
  rw [PreferencesStore.draftUnless] at draft
  split at draft
  · cases draft
  · split at draft
    · cases draft
    · cases draft
      rfl

theorem callKeeps_unchanged (answered : PreferencesAnswer host) (same : answered.file = file)
    (unformed : ∀ baseline value, call ≠ .workspaceForme baseline value) :
    CallKeeps host path call file answered where
  refused _ _ := same
  malformed _ _ _ _ := same
  others _ _ held _ _ holds := ⟨held, same ▸ holds, rfl, rfl⟩
  baseline baseline value _ formed _ := absurd formed (unformed baseline value)

theorem write_eq_of_error {why : String} (failed : host.save store.path next faults = .error why) :
    store.write host file faults next = ⟨.error why, store, file⟩ := by
  rw [PreferencesStore.write, failed]

theorem write_eq_of_ok {text : host.Text} (written : host.save store.path next faults = .ok text) :
    store.write host file faults next =
      ⟨.ok true, { store with saved := next }, .contents text⟩ := by
  rw [PreferencesStore.write, written]

theorem erase_insert {known : List String} (object : UnknownKeys Json known) (key : String)
    (value : Json) (foreign : key ∉ known) :
    (object.insert key value foreign).erase key = object.erase key := by
  obtain ⟨keys, unknown⟩ := object
  simp only [UnknownKeys.insert, UnknownKeys.erase, UnknownKeys.mk.injEq]
  refine Std.ExtTreeMap.ext_getElem? fun other => ?_
  rw [Std.ExtTreeMap.getElem?_erase, Std.ExtTreeMap.getElem?_erase]
  by_cases same : compare key other = .eq
  · rw [if_pos same, if_pos same]
  · rw [if_neg same, if_neg same, Std.ExtTreeMap.getElem?_insert, if_neg same]

theorem load_eq_holds {held : DesktopPreferences Json Theme Fold} {own : String}
    (loaded : host.load own file faults = .ok held) : host.holds path file = .ok held := by
  obtain ⟨read, createDirectory, write⟩ := faults
  cases read with
  | some why => cases loaded
  | none =>
    cases file with
    | missing => exact loaded
    | refused why => cases loaded
    | contents text =>
      rw [holds_contents]
      cases parsed : host.fromStr text with
      | error why =>
        simp only [PreferencesHost.load, parsed] at loaded
        cases loaded
      | ok preferences =>
        simp only [PreferencesHost.load, parsed] at loaded
        exact loaded

theorem reset_keeps (appearance : Appearance Theme) :
    CallKeeps host path (.reset appearance) file (store.reset host file faults appearance) := by
  refine ⟨?_, fun _ _ about => (by cases about), fun _ _ _ about => (by cases about),
    fun _ _ _ formed => (by cases formed)⟩
  intro why failed
  unfold PreferencesStore.reset at failed ⊢
  simp only at failed ⊢
  cases saved : host.save store.path { host.default with
      appearance := { host.default.appearance with known := appearance } } faults with
  | error why => rw [write_eq_of_error saved]
  | ok text =>
    rw [write_eq_of_ok saved] at failed
    cases failed

variable [DecidableEq Json]

theorem workspaceForme_keeps (documented : host.Documented) (baseline : Option Json) (value : Json) :
    CallKeeps host path (.workspaceForme baseline value) file
      (store.saveWorkspaceForme host file faults baseline value) := by
  have refused (why : String) (left : PreferencesStore Json Theme Fold) :
      CallKeeps host path (.workspaceForme baseline value) file ⟨.error why, left, file⟩ :=
    ⟨fun _ _ => rfl, fun _ _ _ _ => rfl, fun _ _ _ _ ok => (by cases ok),
      fun _ _ _ _ ok => (by cases ok)⟩
  unfold PreferencesStore.saveWorkspaceForme
  split
  · exact refused _ _
  · split
    · exact refused _ _
    next held loaded =>
      have holds : host.holds path file = .ok held := load_eq_holds loaded
      split
      · exact refused _ _
      next same =>
        rw [not_not] at same
        cases saved : host.save store.path { held with
            other := held.other.insert "workspace_forme" value
              PreferencesStore.workspaceForme_foreign } faults with
        | error why =>
          rw [write_eq_of_error saved]
          exact refused why store
        | ok text =>
          rw [write_eq_of_ok saved]
          have written := @holds_written _ _ _ _ path _ _ documented _ _ _ saved
          refine ⟨fun _ failed => (by cases failed), ?_, ?_, ?_⟩
          · intro own why _ broken
            rw [holds] at broken
            cases broken
          · intro own ok other about _ read
            cases holds.symm.trans read
            cases about
            have kept := stored_of_holds documented holds
            refine ⟨_, written, ?_, congrArg (fun held => held.collapse.other) kept⟩
            have outside := congrArg (fun held => held.without .workspaceForme) kept
            refine Eq.trans ?_ outside
            simp only [PreferencesHost.stored, DesktopPreferences.reread,
              DesktopPreferences.clamp, DesktopPreferences.without, erase_insert]
          · intro other otherValue _ formed _
            cases formed
            exact ⟨held, holds, same⟩

variable [DecidableEq Theme]

theorem draft_outside (host : PreferencesHost Json Theme Fold) (draft : store.draft call = .ok (some next))
    (about : call.section? = some own) :
    (host.stored next).without own = (host.stored store.saved).without own ∧
      next.collapse.other = store.collapseKeysOf call := by
  cases call with
  | appearance appearance =>
    cases about
    cases draftUnless_eq draft
    exact ⟨rfl, rfl⟩
  | graphFolds scope folds =>
    cases about
    rw [PreferencesStore.draft, PreferencesStore.graphFoldsDraft] at draft
    split at draft
    · cases draft
    · cases draft
      exact ⟨rfl, rfl⟩
  | graphLayout layout =>
    cases about
    cases draftUnless_eq draft
    exact ⟨rfl, rfl⟩
  | collapse collapse =>
    cases about
    cases draftUnless_eq draft
    exact ⟨rfl, rfl⟩
  | recoveryDays days =>
    cases about
    rw [PreferencesStore.draft, PreferencesStore.recoveryDaysDraft] at draft
    split at draft
    · cases draft
    · cases draftUnless_eq draft
      exact ⟨rfl, rfl⟩
  | contextNavigation navigation =>
    cases about
    cases navigation with
    | error why => cases draft
    | ok value =>
      cases draftUnless_eq draft
      exact ⟨rfl, rfl⟩
  | workspaceForme baseline value => cases draft
  | reset appearance => cases draft

theorem commit_keeps_iff (documented : host.Documented)
    (unformed : ∀ baseline value, call ≠ .workspaceForme baseline value) :
    CallKeeps host path call file (store.commit host file faults (store.draft call)) ↔
      WritesCurrent host path file store faults call := by
  cases draft : store.draft call with
  | error why =>
    refine iff_of_true (callKeeps_unchanged _ rfl unformed) fun next text made _ => ?_
    rw [draft] at made
    cases made
  | ok drafted =>
    cases drafted with
    | none =>
      refine iff_of_true (callKeeps_unchanged _ rfl unformed) fun next text made _ => ?_
      rw [draft] at made
      cases made
    | some next =>
      cases saved : host.save store.path next faults with
      | error why =>
        simp only [PreferencesStore.commit, write_eq_of_error saved]
        refine iff_of_true (callKeeps_unchanged _ rfl unformed) fun other text made wrote => ?_
        cases draft.symm.trans made
        rw [saved] at wrote
        cases wrote
      | ok text =>
        simp only [PreferencesStore.commit, write_eq_of_ok saved]
        have holds : host.holds path (.contents text) = .ok (host.stored next) :=
          holds_written documented saved
        constructor
        · intro kept other otherText made wrote own about
          cases draft.symm.trans made
          obtain ⟨outside, keys⟩ := draft_outside host draft about
          cases found : host.holds path file with
          | error why =>
            have same : PreferencesFile.contents text = file :=
              kept.malformed own why about found
            rw [← same, holds] at found
            cases found
          | ok held =>
            obtain ⟨after, read, same⟩ := kept.others own true held about rfl found
            cases holds.symm.trans read
            exact ⟨held, rfl, outside.symm.trans same.1, keys.symm.trans same.2⟩
        · intro current
          refine ⟨fun _ failed => (by cases failed), ?_, ?_, ?_⟩
          · intro own why about broken
            obtain ⟨held, read, _⟩ := current next text draft saved own about
            rw [broken] at read
            cases read
          · intro own written held about _ read
            obtain ⟨other, readToo, same, keys⟩ := current next text draft saved own about
            cases read.symm.trans readToo
            obtain ⟨outside, filled⟩ := draft_outside host draft about
            exact ⟨_, holds, outside.trans same, filled.trans keys⟩
          · intro baseline value _ formed
            exact absurd formed (unformed baseline value)

theorem call_keeps_iff (documented : host.Documented) :
    CallKeeps host path call file (store.call host file faults call) ↔
      WritesCurrent host path file store faults call := by
  cases call with
  | workspaceForme baseline value =>
    exact iff_of_true (workspaceForme_keeps documented baseline value)
      fun _ _ made _ => (by cases made)
  | reset appearance => exact iff_of_true (reset_keeps appearance) fun _ _ made _ => (by cases made)
  | appearance appearance => exact commit_keeps_iff documented fun _ _ same => (by cases same)
  | graphFolds scope folds => exact commit_keeps_iff documented fun _ _ same => (by cases same)
  | graphLayout layout => exact commit_keeps_iff documented fun _ _ same => (by cases same)
  | collapse collapse => exact commit_keeps_iff documented fun _ _ same => (by cases same)
  | recoveryDays days => exact commit_keeps_iff documented fun _ _ same => (by cases same)
  | contextNavigation navigation =>
    exact commit_keeps_iff documented fun _ _ same => (by cases same)

end calls

section runs

variable {Json Theme Fold : Type} [DecidableEq Json] [DecidableEq Theme]

def PreferencesWorld.Keeps {host : PreferencesHost Json Theme Fold} (world : PreferencesWorld host) :
    PreferencesAction host → Prop
  | .call handle call faults => ∀ store, world.handles[handle]? = some store →
      CallKeeps host world.path call world.file (store.call host world.file faults call)
  | _ => True

def PreferencesWorld.Current {host : PreferencesHost Json Theme Fold}
    (world : PreferencesWorld host) : PreferencesAction host → Prop
  | .call handle call faults => ∀ store, world.handles[handle]? = some store →
      WritesCurrent host world.path world.file store faults call
  | _ => True

/-- Over every interleaving of handles and outside edits, the calls keep the rest of the file
exactly if each save that writes from its copy does so while the copy is current. -/
theorem saves_keep_the_rest_iff (host : PreferencesHost Json Theme Fold)
    (documented : host.Documented) (start : PreferencesWorld host)
    (actions : List (PreferencesAction host)) :
    Run.Along PreferencesWorld.perform PreferencesWorld.Keeps start actions ↔
      Run.Along PreferencesWorld.perform PreferencesWorld.Current start actions := by
  refine @Run.along_iff _ _ _ _ _ (fun _ => True) (fun _ _ _ _ => trivial) ?_ actions start trivial
  intro world action _
  cases action with
  | open_ faults => exact Iff.rfl
  | edit file => exact Iff.rfl
  | call handle call faults =>
    exact forall₂_congr fun store found => call_keeps_iff documented

end runs

section plain

abbrev PlainPreferences := DesktopPreferences Nat Unit Unit

/-- A file as the preferences in it, or `none` where it is no JSON. -/
def PreferencesHost.plain : PreferencesHost Nat Unit Unit where
  Text := Option PlainPreferences
  null := 0
  defaultLayout := "grid"
  fromStr
    | none => .error "expected value at line 1 column 1"
    | some preferences => .ok (preferences.reread 0)
  toStringPretty preferences := .ok (some preferences)

theorem plain_documented : PreferencesHost.plain.Documented where
  readsBack preferences text printed := by
    cases printed
    rfl
  readsNoNull text preferences parsed := by
    cases text with
    | none => cases parsed
    | some written =>
      cases parsed
      exact reread_reread 0 written

def plainWorld : PreferencesWorld .plain := ⟨"preferences.json", .missing, []⟩

/-- The second window writes its own copy over what the first one saved. -/
theorem a_stale_copy_undoes_another_save :
    ¬ ∀ (start : PreferencesWorld PreferencesHost.plain) actions,
      Run.Along PreferencesWorld.perform PreferencesWorld.Keeps start actions := by
  intro always
  have along := always plainWorld
    [.open_ {}, .open_ {}, .call 0 (.graphLayout "tree") {}, .call 1 (.recoveryDays 7) {}]
  have kept := along.2.2.2.1 (PreferencesStore.open_ .plain .missing {} "preferences.json") rfl
  obtain ⟨after, read, same, _⟩ := kept.others .recoveryDays true _ rfl rfl rfl
  cases read
  have layout : "grid" = "tree" := congrArg DesktopPreferences.graphLayout same
  exact absurd layout (by decide)

/-- A save through a handle that has just read the file. -/
theorem saves_keep_the_rest_iff_fresh :
    Run.Along PreferencesWorld.perform PreferencesWorld.Keeps plainWorld
      [.open_ {}, .call 0 (.graphLayout "tree") {}] := by
  refine (saves_keep_the_rest_iff .plain plain_documented plainWorld _).mpr
    ⟨trivial, fun store found => ?_, trivial⟩
  cases found
  intro next text draft saved own about
  cases about
  exact ⟨PreferencesHost.plain.default, rfl, rfl, rfl⟩

end plain

end KnotEditor
