import KnotEditor.Document.SaveGuard

/-! One file operation fails inside a call: what a save that reports the failure leaves behind, and
what the same call does once nothing fails any more. -/

namespace KnotEditor.Document

open FileTree

inductive FileOperation
  | ownCanonical
  | targetCanonical
  | metadata
  | inspected
  | read
  | create (nonce : Nat)
  | write (piece : ByteArray)
  | sync
  | targetMetadata
  | permissions
  | rename
  | link
  | remove
  | resolved
  | address
  | openedAgain
  | readAgain
  | inspectedAgain

namespace FileOperation

def failing (error : IoError) : FileOperation → EditorFaults
  | .ownCanonical => { ownCanonical := some error }
  | .targetCanonical => { targetCanonical := some error }
  | .metadata => { metadata := some error }
  | .inspected => { inspected := some error }
  | .read => { read := some error }
  | .create nonce => { create := fun tried => if tried = nonce then some error else none }
  | .write piece => { write := some (error, piece) }
  | .sync => { sync := some error }
  | .targetMetadata => { targetMetadata := some error }
  | .permissions => { permissions := some error }
  | .rename => { rename := some error }
  | .link => { link := some error }
  | .remove => { remove := some error }
  | .resolved => { resolved := some error }
  | .address => { address := some error }
  | .openedAgain => { observed := { opened := some error } }
  | .readAgain => { observed := { read := some error } }
  | .inspectedAgain => { observed := { inspected := some error } }

def looksAgain : FileOperation → Bool
  | .openedAgain | .readAgain | .inspectedAgain => true
  | _ => false

def followsLink : FileOperation → Bool
  | .resolved | .address => true
  | operation => operation.looksAgain

end FileOperation

def reservedTemporary (host : EditorHost) (disk : Disk) (path : FilePath) : Option FilePath :=
  path.parent.bind fun parent => ((List.range 128).map (temporaryPath host parent)).find?
    fun candidate => (disk.entry (disk.place candidate)).isNone

namespace Editor

structure SaveReady (disk : Disk) (editor : Editor) (path : FilePath) (baseline : FileBaseline) :
    Prop where
  filed : editor.path = some path
  dirty : editor.isDirty = true
  based : editor.baseline = some baseline
  found : ∃ spot, disk.find path = some (spot, baseline.handle)
  bytes : (disk.file baseline.handle).bytes = baseline.bytes
  writable : (disk.file baseline.handle).readOnly = false

def Replaces (host : EditorHost) (disk : Disk) (editor : Editor) : Prop :=
  ∃ path baseline, SaveReady disk editor path baseline ∧
    baseline.bytes ≠ editor.editor.source.toUTF8 ∧ (reservedTemporary host disk path).isSome

def Creates (host : EditorHost) (disk : Disk) (target : FilePath) : Prop :=
  disk.entry (disk.place target) = none ∧ (reservedTemporary host disk target).isSome

def Fits (editor : Editor) (target : FilePath) : Prop :=
  ∃ format, formatOfPath target = some format ∧ editable format = true ∧
    (nativeSource editor.format || nativeSource format → editor.format = format)

end Editor

section Temporaries

variable {host : EditorHost} {disk after : Disk} {path temporary : FilePath} {faults : EditorFaults}

theorem reserveTemporary_quiet (host : EditorHost) (disk : Disk) (parent : FilePath)
    (nonces : List Nat) :
    reserveTemporary host disk parent (fun _ => none) nonces =
      match (nonces.map (temporaryPath host parent)).find?
          fun candidate => (disk.entry (disk.place candidate)).isNone with
      | some temporary => (.ok (temporary, disk.next), disk.create temporary ⟨.empty, false⟩)
      | none => (.error .unreserved, disk) := by
  induction nonces with
  | nil => rfl
  | cons nonce rest ih =>
    rw [reserveTemporary, List.map_cons]
    cases held : disk.entry (disk.place (temporaryPath host parent nonce)) with
    | some entry => simp [held, ih]
    | none => simp [held]

theorem createSiblingTemporary_quiet
    (reserved : reservedTemporary host disk path = some temporary) :
    createSiblingTemporary host disk path (fun _ => none) =
      (.ok (temporary, disk.next), disk.create temporary ⟨.empty, false⟩) := by
  obtain ⟨parent, above, found⟩ := Option.bind_eq_some_iff.mp reserved
  rw [createSiblingTemporary, above]
  simp only [reserveTemporary_quiet, found]

theorem reservedTemporary_of_created {made : FilePath × Nat}
    (created : createSiblingTemporary host disk path (fun _ => none) = (.ok made, after)) :
    reservedTemporary host disk path = some made.1 := by
  rw [createSiblingTemporary] at created
  split at created
  · cases created
  next parent above =>
    rw [reserveTemporary_quiet] at created
    rw [reservedTemporary, above, Option.bind_some]
    split at created
    next found =>
      cases created
      exact found
    · cases created

theorem free_of_reserved (reserved : reservedTemporary host disk path = some temporary) :
    disk.entry (disk.place temporary) = none := by
  obtain ⟨parent, _, found⟩ := Option.bind_eq_some_iff.mp reserved
  simpa using List.find?_some found

theorem restored_discard {file : StoredFile} (free : disk.entry (disk.place temporary) = none) :
    Restored disk (discard (disk.create temporary file) temporary none) :=
  restored_remove_create disk temporary file free

structure Steady (faults : EditorFaults) : Prop where
  write : faults.write = none
  sync : faults.sync = none
  permissions : faults.permissions = none
  rename : faults.rename = none
  link : faults.link = none

theorem fillTemporary_steady (steady : Steady faults) (contents : ByteArray) :
    fillTemporary (disk.create temporary ⟨.empty, false⟩) disk.next contents faults =
      (.ok (), disk.create temporary ⟨contents, false⟩) := by
  rw [fillTemporary, steady.write, steady.sync]
  simp only [write_create]

theorem replaceBytesAtomically_steady (steady : Steady faults) (contents : ByteArray)
    (made : createSiblingTemporary host disk path faults.create =
      (.ok (temporary, disk.next), disk.create temporary ⟨.empty, false⟩)) :
    ∃ readOnly, replaceBytesAtomically host disk path contents faults =
      (.ok (), (disk.create temporary ⟨contents, readOnly⟩).rename temporary path) := by
  rw [replaceBytesAtomically, made]
  simp only [fillTemporary_steady steady, steady.rename]
  rw [copyPermissions, steady.permissions]
  cases locate (disk.create temporary ⟨contents, false⟩) path faults.targetMetadata with
  | error error => exact ⟨false, rfl⟩
  | ok found =>
    exact ⟨((disk.create temporary ⟨contents, false⟩).file found.2).readOnly,
      by simp only [write_create, file_create]⟩

theorem replaceBytesAtomically_failed {contents : ByteArray} {error : IoError}
    (failed : replaceBytesAtomically host disk path contents faults = (.error error, after)) :
    after = disk ∨ ¬ Steady faults ∧ ∃ temporary file,
      disk.entry (disk.place temporary) = none ∧
        after = discard (disk.create temporary file) temporary faults.remove := by
  rcases createSiblingTemporary_spec host disk path faults.create with
    ⟨error, made⟩ | ⟨temporary, free, made⟩
  · rw [replaceBytesAtomically, made] at failed
    cases failed
    exact .inl rfl
  · refine .inr ⟨?_, ?_⟩
    · intro steady
      obtain ⟨readOnly, done⟩ := replaceBytesAtomically_steady steady _ made
      rw [done] at failed
      cases failed
    · rw [replaceBytesAtomically, made] at failed
      rcases fillTemporary_spec disk temporary ⟨.empty, false⟩ contents faults with
        ⟨error, part, filled⟩ | filled
      · simp only [filled] at failed
        cases failed
        exact ⟨temporary, part, free, rfl⟩
      · rcases copyPermissions_spec disk path temporary ⟨contents, false⟩ faults with
          ⟨result, readOnly, copied⟩
        simp only [filled, copied] at failed
        refine ⟨temporary, ⟨contents, readOnly⟩, free, ?_⟩
        cases result with
        | error error =>
          cases failed
          rfl
        | ok done =>
          cases renamed : faults.rename with
          | some error =>
            simp only [renamed] at failed
            cases failed
            rfl
          | none =>
            simp only [renamed] at failed
            cases failed

theorem restored_of_failed {contents : ByteArray} {error : IoError}
    (tidy : faults.remove = none ∨ Steady faults)
    (failed : replaceBytesAtomically host disk path contents faults = (.error error, after)) :
    Restored disk after := by
  rcases replaceBytesAtomically_failed failed with rfl | ⟨unsteady, temporary, file, free, rfl⟩
  · exact restored_refl _
  · rcases tidy with kept | steady
    · rw [kept]
      exact restored_discard free
    · exact absurd steady unsteady

theorem replaceBytesAtomically_done {contents : ByteArray} {done : Unit}
    (replaced : replaceBytesAtomically host disk path contents faults = (.ok done, after)) :
    ∃ temporary readOnly, disk.entry (disk.place temporary) = none ∧
      createSiblingTemporary host disk path faults.create =
        (.ok (temporary, disk.next), disk.create temporary ⟨.empty, false⟩) ∧
      after = (disk.create temporary ⟨contents, readOnly⟩).rename temporary path := by
  rcases createSiblingTemporary_spec host disk path faults.create with
    ⟨error, made⟩ | ⟨temporary, free, made⟩
  · rw [replaceBytesAtomically, made] at replaced
    cases replaced
  · rw [replaceBytesAtomically, made] at replaced
    rcases fillTemporary_spec disk temporary ⟨.empty, false⟩ contents faults with
      ⟨error, part, filled⟩ | filled
    · simp only [filled] at replaced
      cases replaced
    · rcases copyPermissions_spec disk path temporary ⟨contents, false⟩ faults with
        ⟨result, readOnly, copied⟩
      simp only [filled, copied] at replaced
      refine ⟨temporary, readOnly, free, made, ?_⟩
      cases result with
      | error error => cases replaced
      | ok done =>
        cases renamed : faults.rename with
        | some error =>
          simp only [renamed] at replaced
          cases replaced
        | none =>
          simp only [renamed] at replaced
          cases replaced
          rfl

theorem createBytesNew_failed {contents : ByteArray} {error : String}
    (failed : createBytesNew host disk path contents faults = (.error error, after)) :
    after = disk ∨ ∃ temporary file, disk.entry (disk.place temporary) = none ∧
      after = discard (disk.create temporary file) temporary faults.remove ∧
        (Steady faults → ((disk.create temporary file).entry (disk.place path)).isSome) ∧
          ∃ inode next, createSiblingTemporary host disk path faults.create =
            (.ok (temporary, inode), next) := by
  rcases createSiblingTemporary_spec host disk path faults.create with
    ⟨error, made⟩ | ⟨temporary, free, made⟩
  · rw [createBytesNew, made] at failed
    cases failed
    exact .inl rfl
  · refine .inr ⟨temporary, ?_⟩
    rw [createBytesNew, made] at failed
    rcases fillTemporary_spec disk temporary ⟨.empty, false⟩ contents faults with
      ⟨error, part, filled⟩ | filled
    · have unsteady : ¬ Steady faults := by
        intro steady
        rw [fillTemporary_steady steady] at filled
        cases filled
      simp only [filled] at failed
      cases failed
      exact ⟨part, free, rfl, fun steady => absurd steady unsteady, _, _, made⟩
    · simp only [filled] at failed
      cases linked : faults.link with
      | some error =>
        simp only [linked] at failed
        cases failed
        refine ⟨⟨contents, false⟩, free, rfl, ?_, _, _, made⟩
        intro steady
        rw [steady.link] at linked
        cases linked
      | none =>
        simp only [linked] at failed
        split at failed
        next taken =>
          cases failed
          exact ⟨⟨contents, false⟩, free, rfl, fun _ => taken, _, _, made⟩
        · cases failed

theorem createBytesNew_made {contents : ByteArray} {done : Unit}
    (made : createBytesNew host disk path contents faults = (.ok done, after)) :
    disk.entry (disk.place path) = none ∧ after.place = disk.place ∧
      after.find path = some (disk.place path, disk.next) ∧
        (after.file disk.next).bytes = contents ∧
          ∃ temporary next,
            createSiblingTemporary host disk path faults.create = (.ok temporary, next) := by
  rcases createSiblingTemporary_spec host disk path faults.create with
    ⟨error, reserved⟩ | ⟨temporary, free, reserved⟩
  · rw [createBytesNew, reserved] at made
    cases made
  · rw [createBytesNew, reserved] at made
    rcases fillTemporary_spec disk temporary ⟨.empty, false⟩ contents faults with
      ⟨error, part, filled⟩ | filled
    · simp only [filled] at made
      cases made
    · simp only [filled] at made
      split at made
      · cases made
      · split at made
        · cases made
        next untaken =>
          cases made
          have apart : disk.place temporary ≠ disk.place path := by
            intro same
            refine untaken ?_
            rw [create, ← same]
            simp only [Function.update_self]
            rfl
          have unnamed : disk.entry (disk.place path) = none := by
            rw [create] at untaken
            simp only [Function.update_of_ne apart.symm] at untaken
            simpa using untaken
          have linked := find_link_create disk temporary path ⟨contents, false⟩
          have held :
              ((disk.create temporary ⟨contents, false⟩).file disk.next).bytes = contents :=
            congrArg StoredFile.bytes (file_create disk temporary ⟨contents, false⟩)
          unfold discard
          split
          · exact ⟨unnamed, rfl, linked, held, _, _, reserved⟩
          · refine ⟨unnamed, rfl, ?_, held, _, _, reserved⟩
            exact find_remove_of_entry _ apart (entry_of_follow linked)

theorem createBytesNew_quiet (steady : Steady faults) (calm : faults.create = fun _ => none)
    (contents : ByteArray) (unnamed : disk.entry (disk.place path) = none)
    (reserved : reservedTemporary host disk path = some temporary)
    (apart : disk.place temporary ≠ disk.place path) :
    ∃ after, createBytesNew host disk path contents faults = (.ok (), after) := by
  rw [createBytesNew, calm, createSiblingTemporary_quiet reserved]
  simp only [fillTemporary_steady steady, steady.link]
  have untaken : ((disk.create temporary ⟨contents, false⟩).entry (disk.place path)) = none :=
    (Function.update_of_ne apart.symm _ _).trans unnamed
  rw [show (disk.create temporary ⟨contents, false⟩).place path = disk.place path from rfl, untaken]
  exact ⟨_, rfl⟩

end Temporaries

section Guarded

variable {host : EditorHost} {disk after : Disk} {editor : Editor} {path : FilePath}
  {baseline : FileBaseline} {faults : EditorFaults}

theorem locate_quiet {found : FilePath × Nat} (led : disk.find path = some found) :
    locate disk path none = .ok found := by
  simp only [locate, led]

theorem observe_quiet {spot : FilePath} {inode : Nat} (led : disk.find path = some (spot, inode)) :
    FileBaseline.observe host disk path {} = .ok ⟨(disk.file inode).bytes, inode⟩ := by
  rw [FileBaseline.observe, locate_quiet led]

open Editor

structure Unhindered (faults : EditorFaults) : Prop where
  metadata : faults.metadata = none
  inspected : faults.inspected = none
  read : faults.read = none

theorem checkSave_of_ready (host : EditorHost) (ready : SaveReady disk editor path baseline)
    (unhindered : Unhindered faults) :
    editor.checkSave host disk faults = .ok (some (path, baseline)) := by
  obtain ⟨spot, found⟩ := ready.found
  simp [checkSave, ready.filed, ready.dirty, ready.based, unhindered.metadata,
    locate_quiet found, ready.writable, FileBaseline.stillMatches, unhindered.inspected,
    unhindered.read, ready.bytes]

theorem ready_of_checkSave
    (checked : editor.checkSave host disk faults = .ok (some (path, baseline))) :
    SaveReady disk editor path baseline := by
  rcases checkSave_cases checked with ⟨absent, _⟩ | ⟨other, held, same, dirty, filed, based, seen⟩
  · cases absent
  · cases same
    obtain ⟨seenBaseline, spot, _, seenBased, found, bytes⟩ := seen
    rw [based, Option.some.injEq] at seenBased
    subst seenBased
    refine ⟨filed, dirty, based, ⟨spot, found⟩, bytes, ?_⟩
    simp only [checkSave, filed, dirty, based, Bool.not_true, Bool.false_eq_true, if_false]
      at checked
    cases located : locate disk path faults.metadata with
    | error error =>
      simp only [located] at checked
      split at checked <;> cases checked
    | ok here =>
      have same : here = (spot, baseline.handle) :=
        Option.some.inj ((locate_eq_ok located).symm.trans found)
      simp only [located, same] at checked
      cases readOnly : (disk.file baseline.handle).readOnly with
      | false => rfl
      | true => simp [readOnly] at checked

theorem checkSave_none (checked : editor.checkSave host disk faults = .ok none) :
    editor.isDirty = false := by
  rcases checkSave_cases checked with ⟨_, clean⟩ | ⟨path, baseline, absent, _⟩
  · exact clean
  · cases absent

theorem Editor.SaveReady.restored (restored : Restored disk after)
    (ready : SaveReady disk editor path baseline) : SaveReady after editor path baseline := by
  obtain ⟨spot, found⟩ := ready.found
  have same := restored.files _ (lt_next_of_find found)
  exact ⟨ready.filed, ready.dirty, ready.based, ⟨spot, (restored.find path).trans found⟩,
    same ▸ ready.bytes, same ▸ ready.writable⟩

theorem reservedTemporary_restored (restored : Restored disk after) (path : FilePath) :
    reservedTemporary host after path = reservedTemporary host disk path := by
  rw [reservedTemporary, reservedTemporary, restored.entry, restored.place]

theorem replaced_file {temporary : FilePath} {found : FilePath × Nat} (file : StoredFile)
    (free : disk.entry (disk.place temporary) = none) (led : disk.find path = some found) :
    ((disk.create temporary file).rename temporary path).find path =
        some (disk.place path, disk.next) ∧
      ((disk.create temporary file).rename temporary path).file disk.next = file := by
  have apart : disk.place temporary ≠ disk.place path := by
    intro same
    have taken := isSome_entry_of_find led
    rw [← same, free] at taken
    cases taken
  refine ⟨find_rename_create disk temporary path file apart, ?_⟩
  have moved : (disk.create temporary file).rename temporary path =
      ((disk.create temporary file).hardLink temporary path).remove temporary := if_neg apart
  rw [moved]
  exact file_create disk temporary file

theorem saveGuarded_failed {error : KnotEditorSaveError}
    (tidy : faults.remove = none ∨ Steady faults)
    (failed : (editor.saveGuarded host disk faults).1 = .error error) :
    (editor.saveGuarded host disk faults).2.1 = editor ∧
      (Restored disk (editor.saveGuarded host disk faults).2.2 ∨
        faults.observed ≠ {} ∧ ∃ path baseline temporary next,
          SaveReady disk editor path baseline ∧
            baseline.bytes ≠ editor.editor.source.toUTF8 ∧
              createSiblingTemporary host disk path faults.create = (.ok temporary, next)) := by
  cases checked : editor.checkSave host disk faults with
  | error error =>
    simp only [saveGuarded, checked]
    exact ⟨trivial, .inl (restored_refl disk)⟩
  | ok target =>
    cases target with
    | none =>
      simp only [saveGuarded, checked] at failed
      cases failed
    | some target =>
      obtain ⟨path, baseline⟩ := target
      have ready := ready_of_checkSave checked
      by_cases same : baseline.bytes = editor.editor.source.toUTF8
      · simp only [saveGuarded, checked, writeIfDistinct, if_pos same] at failed ⊢
        split
        · exact ⟨rfl, .inl (restored_refl disk)⟩
        next observed =>
          simp only [observed] at failed
          split
          · exact ⟨rfl, .inl (restored_refl disk)⟩
          next equal =>
            rw [if_neg equal] at failed
            cases failed
      · rcases replaced : replaceBytesAtomically host disk path editor.editor.source.toUTF8
          faults with ⟨result, after⟩
        cases result with
        | error error =>
          have outcome : editor.saveGuarded host disk faults = (.error (.failed
              s!"could not write {host.display path}: {error.text}"), editor, after) := by
            simp only [saveGuarded, checked, writeIfDistinct, if_neg same, replaced]
          rw [outcome]
          exact ⟨rfl, .inl (restored_of_failed tidy replaced)⟩
        | ok done =>
          obtain ⟨temporary, readOnly, free, made, renamed⟩ :=
            replaceBytesAtomically_done replaced
          have unsaved : ∃ path baseline temporary next,
              SaveReady disk editor path baseline ∧
                baseline.bytes ≠ editor.editor.source.toUTF8 ∧
                  createSiblingTemporary host disk path faults.create =
                    (.ok temporary, next) := ⟨path, baseline, _, _, ready, same, made⟩
          obtain ⟨spot, found⟩ := ready.found
          obtain ⟨led, held⟩ :=
            replaced_file ⟨editor.editor.source.toUTF8, readOnly⟩ free found
          rw [← renamed] at led held
          cases observed : FileBaseline.observe host after path faults.observed with
          | error error =>
            have outcome : editor.saveGuarded host disk faults =
                (.error (.failed error), editor, after) := by
              simp only [saveGuarded, checked, writeIfDistinct, if_neg same, replaced,
                observed]
            rw [outcome]
            refine ⟨rfl, .inr ⟨?_, unsaved⟩⟩
            intro quiet
            rw [quiet, observe_quiet led] at observed
            cases observed
          | ok updated =>
            obtain ⟨again, relocated, bytes⟩ := observe_eq_ok observed
            have number := Option.some.inj (relocated.symm.trans led)
            rw [Prod.mk.injEq] at number
            rw [number.2, held] at bytes
            simp only [saveGuarded, checked, writeIfDistinct, if_neg same, replaced,
              observed, ← bytes, ne_eq, not_true, if_false] at failed
            cases failed

def Saves (host : EditorHost) (disk : Disk) (editor : Editor) : Prop :=
  editor.path.isSome ∧ (editor.isDirty = true → ∃ path baseline,
    SaveReady disk editor path baseline ∧ (baseline.bytes = editor.editor.source.toUTF8 ∨
      (reservedTemporary host disk path).isSome))

theorem Saves.restored (restored : Restored disk after) (saves : Saves host disk editor) :
    Saves host after editor := by
  refine ⟨saves.1, ?_⟩
  intro dirty
  obtain ⟨path, baseline, ready, rest⟩ := saves.2 dirty
  exact ⟨path, baseline, ready.restored restored, by rwa [reservedTemporary_restored restored]⟩

theorem steady_quiet : Steady {} := ⟨rfl, rfl, rfl, rfl, rfl⟩

theorem unhindered_quiet : Unhindered {} := ⟨rfl, rfl, rfl⟩

theorem replaceBytesAtomically_reserved {temporary : FilePath} {found : FilePath × Nat}
    (contents : ByteArray) (steady : Steady faults) (calm : faults.create = fun _ => none)
    (reserved : reservedTemporary host disk path = some temporary)
    (led : disk.find path = some found) :
    ∃ after readOnly, replaceBytesAtomically host disk path contents faults = (.ok (), after) ∧
      after.find path = some (disk.place path, disk.next) ∧
        after.file disk.next = ⟨contents, readOnly⟩ := by
  obtain ⟨readOnly, done⟩ := replaceBytesAtomically_steady steady contents
    (calm ▸ createSiblingTemporary_quiet reserved)
  exact ⟨_, readOnly, done, replaced_file ⟨contents, readOnly⟩ (free_of_reserved reserved) led⟩

theorem saveGuarded_isOk_iff :
    (editor.saveGuarded host disk {}).1.isOk = true ↔ Saves host disk editor := by
  constructor
  · intro works
    cases checked : editor.checkSave host disk {} with
    | error error => simp [saveGuarded, checked, Except.isOk, Except.toBool] at works
    | ok target =>
      have filed : editor.path.isSome := by
        cases absent : editor.path with
        | none => simp [checkSave, absent] at checked
        | some path => rfl
      refine ⟨filed, ?_⟩
      intro dirty
      cases target with
      | none => rw [checkSave_none checked] at dirty; cases dirty
      | some target =>
        obtain ⟨path, baseline⟩ := target
        refine ⟨path, baseline, ready_of_checkSave checked, ?_⟩
        by_cases same : baseline.bytes = editor.editor.source.toUTF8
        · exact .inl same
        · rcases replaced : replaceBytesAtomically host disk path editor.editor.source.toUTF8
            {} with ⟨result, after⟩
          cases result with
          | error error =>
            simp only [saveGuarded, checked, writeIfDistinct, if_neg same, replaced] at works
            cases works
          | ok done =>
            obtain ⟨temporary, readOnly, free, made, _⟩ :=
              replaceBytesAtomically_done replaced
            exact .inr (reservedTemporary_of_created made ▸ rfl)
  · rintro ⟨filed, saves⟩
    cases dirty : editor.isDirty with
    | false =>
      obtain ⟨path, filed⟩ := Option.isSome_iff_exists.mp filed
      simp [saveGuarded, checkSave, filed, dirty, Except.isOk, Except.toBool]
    | true =>
      obtain ⟨path, baseline, ready, rest⟩ := saves dirty
      have checked := checkSave_of_ready host ready unhindered_quiet
      obtain ⟨spot, found⟩ := ready.found
      by_cases same : baseline.bytes = editor.editor.source.toUTF8
      · have equal := ready.bytes.trans same
        simp only [saveGuarded, checked, writeIfDistinct, if_pos same, observe_quiet found,
          equal, ne_eq, not_true, if_false]
        rfl
      · obtain ⟨temporary, reserved⟩ := Option.isSome_iff_exists.mp (rest.resolve_left same)
        obtain ⟨after, readOnly, replaced, led, held⟩ := replaceBytesAtomically_reserved
          editor.editor.source.toUTF8 steady_quiet rfl reserved found
        simp only [saveGuarded, checked, writeIfDistinct, if_neg same, replaced,
          observe_quiet led, held, ne_eq, not_true, if_false]
        rfl

structure Late (faults : EditorFaults) : Prop extends Unhindered faults, Steady faults where
  create : faults.create = fun _ => none
  ownCanonical : faults.ownCanonical = none
  targetCanonical : faults.targetCanonical = none

theorem saveGuarded_replaces (late : Late faults) (replaces : Replaces host disk editor)
    (blind : ∀ disk path, ∃ message,
      FileBaseline.observe host disk path faults.observed = .error message) :
    ∃ error after, editor.saveGuarded host disk faults = (.error error, editor, after) ∧
      after.place = disk.place ∧
        (∀ spot, (disk.entry spot).isSome → (after.entry spot).isSome) ∧
          ¬ Saves host after editor := by
  obtain ⟨path, baseline, ready, differs, reserved⟩ := replaces
  obtain ⟨temporary, reserved⟩ := Option.isSome_iff_exists.mp reserved
  have checked := checkSave_of_ready host ready late.toUnhindered
  obtain ⟨spot, found⟩ := ready.found
  obtain ⟨after, readOnly, replaced, led, held⟩ := replaceBytesAtomically_reserved
    editor.editor.source.toUTF8 late.toSteady late.create reserved found
  obtain ⟨message, unseen⟩ := blind after path
  have spares := (replaceBytesAtomically_spec _ _ _ replaced).2
  refine ⟨.failed message, after, ?_, spares.place, ?_, ?_⟩
  · simp only [saveGuarded, checked, writeIfDistinct, if_neg differs, replaced, unseen]
  · intro spot held
    obtain ⟨entry, held⟩ := Option.isSome_iff_exists.mp held
    by_cases same : spot = disk.place path
    · rw [same, ← spares.place]
      exact isSome_entry_of_find led
    · rw [spares.entries spot entry held same]
      rfl
  · intro saves
    obtain ⟨again, other, ready', _⟩ := saves.2 ready.dirty
    have samePath := Option.some.inj (ready'.filed.symm.trans ready.filed)
    have sameBaseline := Option.some.inj (ready'.based.symm.trans ready.based)
    obtain ⟨spot', found'⟩ := ready'.found
    rw [samePath, sameBaseline] at found'
    have number := Option.some.inj (led.symm.trans found')
    rw [Prod.mk.injEq] at number
    have old := lt_next_of_find found
    omega

theorem saves_of_replaces (replaces : Replaces host disk editor) : Saves host disk editor := by
  obtain ⟨path, baseline, ready, _, reserved⟩ := replaces
  exact ⟨ready.filed ▸ rfl, fun _ => ⟨path, baseline, ready, .inr reserved⟩⟩

end Guarded

section Targets

variable {host : EditorHost} {disk after : Disk} {editor : Editor} {target : FilePath}
  {faults : EditorFaults}

structure Canonical (disk : Disk) : Prop where
  again : ∀ path, disk.place (disk.place path) = disk.place path
  named : ∀ path : FilePath, path.fileName.isSome → (disk.place path).fileName = path.fileName

theorem fileName_temporary (host : EditorHost) (parent : FilePath) (nonce : Nat) :
    (temporaryPath host parent nonce).fileName =
      some (s!".knot-write-{host.processId}-{nonce}.tmp".toUTF8) := by
  simp [temporaryPath, FilePath.join, FilePath.isAbsolute, FilePath.fileName]

theorem toUTF8_append_tmp (stem : String) :
    (stem ++ ".tmp").toUTF8.data.toList = stem.toUTF8.data.toList ++ [46, 116, 109, 112] := by
  rw [String.toUTF8, String.toByteArray_append, ByteArray.data_append, Array.toList_append]
  rfl

theorem formatOfPath_temporary (host : EditorHost) (parent : FilePath) (nonce : Nat) :
    formatOfPath (temporaryPath host parent nonce) = none := by
  have letters : extension (temporaryPath host parent nonce) = some [116, 109, 112] := by
    rw [extension, fileName_temporary]
    simp only
    rw [show s!".knot-write-{host.processId}-{nonce}.tmp" =
      (s!".knot-write-{host.processId}-{nonce}") ++ ".tmp" from rfl, toUTF8_append_tmp]
    have stem : (toString ".knot-write-").utf8ByteSize = 12 := by decide
    have long : 4 < (toString ".knot-write-").utf8ByteSize + (host.processId.repr.utf8ByteSize +
        ((toString "-").utf8ByteSize + (nonce.repr.utf8ByteSize + 4))) := by omega
    simpa using long
  rw [formatOfPath, letters]
  decide
theorem formatOfPath_congr {first second : FilePath} (same : first.fileName = second.fileName) :
    formatOfPath first = formatOfPath second := by
  rw [formatOfPath, formatOfPath, extension, extension, same]

open Editor

theorem apart_of_fits (canonical : Canonical disk) (fits : Fits editor target)
    {temporary : FilePath} (reserved : reservedTemporary host disk target = some temporary) :
    disk.place temporary ≠ disk.place target := by
  obtain ⟨format, named, _⟩ := fits
  obtain ⟨parent, _, found⟩ := Option.bind_eq_some_iff.mp reserved
  obtain ⟨nonce, _, rfl⟩ := List.mem_map.mp (List.mem_of_find?_eq_some found)
  have filed : (temporaryPath host parent nonce).fileName.isSome := by
    rw [fileName_temporary]
    rfl
  have filed' : target.fileName.isSome := by
    cases absent : target.fileName with
    | none => simp [formatOfPath, extension, absent] at named
    | some name => rfl
  intro same
  have names := (canonical.named _ filed).symm.trans
    ((congrArg FilePath.fileName same).trans (canonical.named _ filed'))
  have formless := formatOfPath_temporary host parent nonce
  rw [formatOfPath_congr names, named] at formless
  cases formless

theorem fits_iff : Fits editor target ↔ ∃ format, editor.checkTarget host target = .ok format := by
  constructor
  · rintro ⟨format, named, edits, converts⟩
    refine ⟨format, ?_⟩
    simp only [checkTarget, named, Option.filter, edits, if_true]
    refine if_neg ?_
    simp only [Bool.and_eq_true, decide_eq_true_eq, not_and, not_not, ne_eq]
    exact converts
  · rintro ⟨format, checked⟩
    rw [checkTarget] at checked
    split at checked
    · cases checked
    next other named =>
      obtain ⟨named, edits⟩ := Option.filter_eq_some_iff.mp named
      split at checked
      · cases checked
      next converts =>
        refine ⟨other, named, edits, ?_⟩
        intro native
        simpa [native] using converts

theorem canonicalize_eq_ok_iff {path spot : FilePath} {fault : Option IoError} :
    canonicalize disk path fault = .ok spot ↔
      fault = none ∧ ∃ inode, disk.find path = some (spot, inode) := by
  cases fault with
  | some error => simp [canonicalize, locate, Except.map]
  | none =>
    cases found : disk.find path with
    | none => simp [canonicalize, locate, found, Except.map]
    | some here =>
      simp only [canonicalize, locate, found, Except.map, Except.ok.injEq, true_and]
      constructor
      · rintro rfl
        exact ⟨here.2, rfl⟩
      · rintro ⟨inode, same⟩
        rw [Option.some.inj same]

theorem isCurrentPath_iff : editor.isCurrentPath disk target faults = true ↔
    ∃ path, editor.path = some path ∧ (path = target ∨ faults.ownCanonical = none ∧
      faults.targetCanonical = none ∧ ∃ spot first second,
        disk.find path = some (spot, first) ∧ disk.find target = some (spot, second)) := by
  rw [isCurrentPath]
  cases editor.path with
  | none => simp
  | some path =>
    simp only [Option.some.injEq, exists_eq_left', Bool.or_eq_true, decide_eq_true_eq]
    refine or_congr_right ?_
    constructor
    · intro same
      split at same
      next own other left right =>
        rw [decide_eq_true_eq] at same
        subst same
        obtain ⟨calm, first, found⟩ := canonicalize_eq_ok_iff.mp left
        obtain ⟨calm', second, found'⟩ := canonicalize_eq_ok_iff.mp right
        exact ⟨calm, calm', own, first, second, found, found'⟩
      · cases same
    · rintro ⟨calm, calm', spot, first, second, found, found'⟩
      have left : canonicalize disk path faults.ownCanonical = .ok spot :=
        canonicalize_eq_ok_iff.mpr ⟨calm, first, found⟩
      have right : canonicalize disk target faults.targetCanonical = .ok spot :=
        canonicalize_eq_ok_iff.mpr ⟨calm', second, found'⟩
      simp [left, right]

theorem isCurrentPath_of_faults (current : editor.isCurrentPath disk target faults = true) :
    editor.isCurrentPath disk target {} = true := by
  obtain ⟨path, filed, same⟩ := isCurrentPath_iff.mp current
  refine isCurrentPath_iff.mpr ⟨path, filed, ?_⟩
  rcases same with same | ⟨_, _, found⟩
  · exact .inl same
  · exact .inr ⟨rfl, rfl, found⟩

theorem isCurrentPath_restored (restored : Restored disk after) :
    editor.isCurrentPath after target {} = editor.isCurrentPath disk target {} := by
  rw [Bool.eq_iff_iff, isCurrentPath_iff, isCurrentPath_iff]
  simp only [restored.find]

theorem isCurrentPath_late (late : Late faults) :
    editor.isCurrentPath disk target faults = editor.isCurrentPath disk target {} := by
  rw [isCurrentPath, isCurrentPath, late.ownCanonical, late.targetCanonical]

def SavesAs (host : EditorHost) (disk : Disk) (editor : Editor) (target : FilePath) : Prop :=
  Fits editor target ∧ if editor.isCurrentPath disk target {} then Saves host disk editor
    else Creates host disk target

theorem SavesAs.restored (restored : Restored disk after)
    (saves : SavesAs host disk editor target) : SavesAs host after editor target := by
  refine ⟨saves.1, ?_⟩
  rw [isCurrentPath_restored restored]
  have rest := saves.2
  split at rest
  next current =>
    rw [if_pos current]
    exact rest.restored restored
  next other =>
    rw [if_neg other, Creates, restored.entry, restored.place,
      reservedTemporary_restored restored]
    exact rest

theorem adopt_made {format : DocumentFormat} {inode : Nat} (canonical : Canonical after)
    (led : after.find target = some (after.place target, inode))
    (held : (after.file inode).bytes = editor.editor.source.toUTF8)
    (resolved : faults.resolved = none) (address : faults.address = none)
    (observed : faults.observed = {}) :
    ∃ adopted, editor.adopt host after target format faults = .ok adopted := by
  have again : after.find (after.place target) = some (after.place target, inode) := by
    rw [find, canonical.again]
    exact led
  simp only [adopt, resolved, address, observed, canonicalize_eq_ok_iff.mpr ⟨rfl, inode, led⟩,
    fileAddress, canonicalize_eq_ok_iff.mpr ⟨rfl, inode, again⟩, observe_quiet again, held, ne_eq,
    not_true, if_false]
  exact ⟨_, rfl⟩

theorem createBytesNew_restored {contents : ByteArray} {message : String}
    (canonical : Canonical disk) (fits : Fits editor target)
    (tidy : faults.remove = none ∨ Late faults)
    (failed : createBytesNew host disk target contents faults = (.error message, after)) :
    Restored disk after ∨
      Spares disk after ∧ Late faults ∧ (disk.entry (disk.place target)).isSome := by
  have spares := spares_createBytesNew host disk target contents faults
  rw [failed] at spares
  rcases createBytesNew_failed failed with rfl | ⟨temporary, file, free, rfl, taken, _, _, made⟩
  · exact .inl (restored_refl _)
  · rcases tidy with kept | late
    · rw [kept]
      exact .inl (restored_discard free)
    · refine .inr ⟨spares, late, ?_⟩
      rw [late.create] at made
      have apart : disk.place temporary ≠ disk.place target :=
        apart_of_fits canonical fits (reservedTemporary_of_created made)
      have there := taken late.toSteady
      rw [create] at there
      simpa only [Function.update_of_ne apart.symm] using there

theorem saveAs_current {format : DocumentFormat}
    (checked : editor.checkTarget host target = .ok format)
    (current : editor.isCurrentPath disk target faults = true) :
    editor.saveAs host disk target faults = editor.saveGuarded host disk faults := by
  simp only [saveAs, checked, current, if_true]

theorem saveAs_isOk_iff (canonical : Canonical disk) :
    (editor.saveAs host disk target {}).1.isOk = true ↔ SavesAs host disk editor target := by
  constructor
  · intro works
    cases checked : editor.checkTarget host target with
    | error error =>
      simp only [saveAs, checked] at works
      cases works
    | ok format =>
      refine ⟨fits_iff.mpr ⟨format, checked⟩, ?_⟩
      split
      next current =>
        rw [saveAs_current checked current] at works
        exact saveGuarded_isOk_iff.mp works
      next other =>
        rcases made : createBytesNew host disk target editor.editor.source.toUTF8 {} with
          ⟨result, after⟩
        cases result with
        | error error =>
          simp only [saveAs, checked, if_neg other, made] at works
          cases works
        | ok done =>
          obtain ⟨unnamed, _, _, _, temporary, next, reserved⟩ := createBytesNew_made made
          exact ⟨unnamed, reservedTemporary_of_created reserved ▸ rfl⟩
  · rintro ⟨fits, saves⟩
    obtain ⟨format, checked⟩ := fits_iff.mp fits
    split at saves
    next current =>
      rw [saveAs_current checked current]
      exact saveGuarded_isOk_iff.mpr saves
    next other =>
      obtain ⟨unnamed, reserved⟩ := saves
      obtain ⟨temporary, reserved⟩ := Option.isSome_iff_exists.mp reserved
      obtain ⟨after, made⟩ := createBytesNew_quiet steady_quiet rfl
        editor.editor.source.toUTF8 unnamed reserved (apart_of_fits canonical fits reserved)
      obtain ⟨_, place, led, held, _⟩ := createBytesNew_made made
      have canonical' : Canonical after := ⟨by rw [place]; exact canonical.again,
        by rw [place]; exact canonical.named⟩
      have adopts : ∃ adopted, editor.adopt host after target format {} = .ok adopted :=
        adopt_made canonical' (place ▸ led) held rfl rfl rfl
      obtain ⟨adopted, adopts⟩ := adopts
      simp only [saveAs, checked, if_neg other, made, adopts]
      rfl

structure Unharmed (target : FilePath) (before after : Disk) : Prop where
  entry : after.entry (after.place target) = before.entry (before.place target)
  contents : ∀ found, before.find target = some found →
    after.find target = some found ∧ after.file found.2 = before.file found.2

theorem Unharmed.of_restored (restored : Restored disk after) : Unharmed target disk after where
  entry := by rw [restored.entry, restored.place]
  contents found led := ⟨(restored.find target).trans led, restored.files _ (lt_next_of_find led)⟩

theorem Unharmed.of_spares (spares : Spares disk after)
    (taken : (disk.entry (disk.place target)).isSome) : Unharmed target disk after where
  entry := by
    obtain ⟨entry, held⟩ := Option.isSome_iff_exists.mp taken
    rw [spares.place, held]
    exact spares.entries _ entry held id
  contents found led := ⟨find_of_spares spares led, spares.files _ (lt_next_of_find led)⟩

abbrev SaveCall := Disk → Editor → EditorFaults →
  Except KnotEditorSaveError SaveOutcome × Editor × Disk

/-- A call that reports an error has changed neither the editor nor the target, and would succeed
again once nothing fails, if it would have succeeded at first. -/
def LeavesNothing (call : SaveCall) (disk : Disk) (editor : Editor) (target : FilePath)
    (faults : EditorFaults) : Prop :=
  ∀ error, (call disk editor faults).1 = .error error →
    (call disk editor faults).2.1 = editor ∧
      Unharmed target disk (call disk editor faults).2.2 ∧
        ((call disk editor {}).1.isOk →
          (call (call disk editor faults).2.2 (call disk editor faults).2.1 {}).1.isOk)

/-- The operation that fails comes after the file at the editor's path has been replaced. -/
def FailsReplaced (host : EditorHost) (disk : Disk) (editor : Editor) (operation : FileOperation) :
    Prop :=
  operation.looksAgain = true ∧ Replaces host disk editor

def FailsWritten (host : EditorHost) (disk : Disk) (editor : Editor) (target : FilePath)
    (operation : FileOperation) : Prop :=
  Fits editor target ∧
    if editor.isCurrentPath disk target {} then FailsReplaced host disk editor operation
    else operation.followsLink = true ∧ Creates host disk target

section Failing

variable {error : IoError} {operation : FileOperation}

theorem tidy_failing :
    (operation.failing error).remove = none ∨ Late (operation.failing error) := by
  cases operation with
  | remove => exact .inr ⟨⟨rfl, rfl, rfl⟩, ⟨rfl, rfl, rfl, rfl, rfl⟩, rfl, rfl, rfl⟩
  | _ => exact .inl rfl

theorem late_failing (follows : operation.followsLink = true) :
    Late (operation.failing error) := by
  cases operation <;>
    first
      | exact ⟨⟨rfl, rfl, rfl⟩, ⟨rfl, rfl, rfl, rfl, rfl⟩, rfl, rfl, rfl⟩
      | cases follows

theorem followsLink_of_looksAgain (looks : operation.looksAgain = true) :
    operation.followsLink = true := by
  cases operation <;> first | rfl | cases looks

theorem quiet_failing (error : IoError) (early : operation.followsLink ≠ true) :
    (operation.failing error).resolved = none ∧ (operation.failing error).address = none ∧
      (operation.failing error).observed = {} := by
  cases operation <;> first | exact ⟨rfl, rfl, rfl⟩ | exact absurd rfl early

theorem looksAgain_of_observed (fails : (operation.failing error).observed ≠ {}) :
    operation.looksAgain = true := by
  cases operation <;> first | rfl | exact absurd rfl fails

theorem observe_failing (looks : operation.looksAgain = true) (disk : Disk) (path : FilePath) :
    ∃ message, FileBaseline.observe host disk path (operation.failing error).observed =
      .error message := by
  cases operation <;> cases looks <;> cases found : disk.find path <;>
    simp [FileOperation.failing, FileBaseline.observe, locate, found]

theorem fails_of_saveGuarded {failure : KnotEditorSaveError}
    (fine : ¬ FailsReplaced host disk editor operation)
    (failed : (editor.saveGuarded host disk (operation.failing error)).1 = .error failure) :
    (editor.saveGuarded host disk (operation.failing error)).2.1 = editor ∧
      Restored disk (editor.saveGuarded host disk (operation.failing error)).2.2 := by
  obtain ⟨same, rest⟩ := saveGuarded_failed (tidy_failing.imp_right Late.toSteady) failed
  refine ⟨same, rest.resolve_right ?_⟩
  rintro ⟨observed, path, baseline, temporary, next, ready, differs, made⟩
  have looks := looksAgain_of_observed observed
  have calm : (operation.failing error).create = fun _ => none :=
    (late_failing (followsLink_of_looksAgain looks)).create
  rw [calm] at made
  exact fine ⟨looks, path, baseline, ready, differs, reservedTemporary_of_created made ▸ rfl⟩

theorem saveGuarded_leaves_nothing_iff :
    LeavesNothing (Editor.saveGuarded host) disk editor target (operation.failing error) ↔
      ¬ FailsReplaced host disk editor operation := by
  constructor
  · rintro leaves ⟨looks, replaces⟩
    have late : Late (operation.failing error) := late_failing (followsLink_of_looksAgain looks)
    obtain ⟨failure, after, outcome, _, _, spoiled⟩ :=
      saveGuarded_replaces late replaces
        (observe_failing looks)
    have left := leaves failure (by rw [outcome])
    have again := left.2.2 (saveGuarded_isOk_iff.mpr (saves_of_replaces replaces))
    rw [outcome] at again
    exact spoiled (saveGuarded_isOk_iff.mp again)
  · intro fine failure failed
    obtain ⟨same, restored⟩ := fails_of_saveGuarded fine failed
    refine ⟨same, .of_restored restored, ?_⟩
    intro works
    rw [same]
    exact saveGuarded_isOk_iff.mpr ((saveGuarded_isOk_iff.mp works).restored restored)

theorem adopt_failing (follows : operation.followsLink = true) (after : Disk)
    (format : DocumentFormat) :
    ∃ failure,
      editor.adopt host after target format (operation.failing error) = .error failure := by
  cases adopts : editor.adopt host after target format (operation.failing error) with
  | error failure => exact ⟨failure, rfl⟩
  | ok adopted =>
    simp only [adopt] at adopts
    split at adopts
    · cases adopts
    next resolved looked =>
      obtain ⟨found, _⟩ := canonicalize_eq_ok_iff.mp looked
      split at adopts
      · cases adopts
      next address named =>
        rw [fileAddress] at named
        split at named
        · cases named
        next addressed =>
          obtain ⟨placed, _⟩ := canonicalize_eq_ok_iff.mp addressed
          have looks : operation.looksAgain = true := by
            cases operation <;>
              first
                | exact follows
                | exact absurd found (Option.some_ne_none error)
                | exact absurd placed (Option.some_ne_none error)
          obtain ⟨message, unseen⟩ := observe_failing looks after resolved
          rw [unseen] at adopts
          cases adopts

theorem Canonical.of_place (canonical : Canonical disk) (same : after.place = disk.place) :
    Canonical after :=
  ⟨by rw [same]; exact canonical.again, by rw [same]; exact canonical.named⟩

theorem not_leaves_of_written (canonical : Canonical disk)
    (written : FailsWritten host disk editor target operation) :
    ¬ LeavesNothing (fun disk editor => editor.saveAs host disk target) disk editor target
      (operation.failing error) := by
  intro leaves
  obtain ⟨fits, rest⟩ := written
  obtain ⟨format, checked⟩ := fits_iff.mp fits
  simp only [LeavesNothing] at leaves
  split at rest
  next current =>
    obtain ⟨looks, replaces⟩ := rest
    have late : Late (operation.failing error) := late_failing (followsLink_of_looksAgain looks)
    obtain ⟨failure, after, outcome, place, kept, spoiled⟩ :=
      saveGuarded_replaces late replaces (observe_failing looks)
    rw [saveAs_current checked ((isCurrentPath_late late).trans current), outcome] at leaves
    have saves : SavesAs host disk editor target :=
      ⟨fits, by rw [if_pos current]; exact saves_of_replaces replaces⟩
    have again := (leaves failure rfl).2.2 ((saveAs_isOk_iff canonical).mpr saves)
    have saves := ((saveAs_isOk_iff (canonical.of_place place)).mp again).2
    split at saves
    · exact spoiled saves
    next other =>
      obtain ⟨path, filed, same⟩ := isCurrentPath_iff.mp current
      rcases same with same | ⟨_, _, spot, first, second, _, found⟩
      · exact other (isCurrentPath_iff.mpr ⟨path, filed, .inl same⟩)
      · have there := kept _ (isSome_entry_of_find found)
        rw [← place, saves.1] at there
        cases there
  next other =>
    obtain ⟨follows, unnamed, reserved⟩ := rest
    have late : Late (operation.failing error) := late_failing follows
    obtain ⟨temporary, reserved⟩ := Option.isSome_iff_exists.mp reserved
    obtain ⟨after, made⟩ := createBytesNew_quiet late.toSteady late.create
      editor.editor.source.toUTF8 unnamed reserved (apart_of_fits canonical fits reserved)
    obtain ⟨_, place, led, _⟩ := createBytesNew_made made
    have adopts : ∃ failure,
        editor.adopt host after target format (operation.failing error) = .error failure :=
      adopt_failing follows after format
    obtain ⟨failure, adopts⟩ := adopts
    have outcome : editor.saveAs host disk target (operation.failing error) =
        (.error failure, editor, after) := by
      rw [← isCurrentPath_late late] at other
      simp only [saveAs, checked, if_neg other, made, adopts]
    rw [outcome] at leaves
    have left := (leaves failure rfl).2.1.entry
    rw [unnamed] at left
    have there := isSome_entry_of_find led
    rw [left] at there
    cases there

theorem saveAs_leaves_nothing_iff (canonical : Canonical disk) :
    LeavesNothing (fun disk editor => editor.saveAs host disk target) disk editor target
        (operation.failing error) ↔ ¬ FailsWritten host disk editor target operation := by
  refine ⟨fun leaves written => not_leaves_of_written canonical written leaves, ?_⟩
  intro fine failure failed
  simp only at failed ⊢
  cases checked : editor.checkTarget host target with
  | error message =>
    have refused : ∀ faults,
        editor.saveAs host disk target faults = (.error message, editor, disk) := by
      intro faults
      simp only [saveAs, checked]
    rw [refused, refused]
    exact ⟨rfl, .of_restored (restored_refl disk), fun works => by cases works⟩
  | ok format =>
    have fits : Fits editor target := fits_iff.mpr ⟨format, checked⟩
    by_cases current : editor.isCurrentPath disk target (operation.failing error) = true
    · rw [saveAs_current checked current] at failed ⊢
      have unreplaced : ¬ FailsReplaced host disk editor operation := by
        intro replaced
        refine fine ⟨fits, ?_⟩
        rw [if_pos (isCurrentPath_of_faults current)]
        exact replaced
      obtain ⟨same, restored⟩ := fails_of_saveGuarded unreplaced failed
      refine ⟨same, .of_restored restored, ?_⟩
      intro works
      rw [same, saveAs_isOk_iff (canonical.of_place restored.place)]
      exact ((saveAs_isOk_iff canonical).mp works).restored restored
    · rcases made : createBytesNew host disk target editor.editor.source.toUTF8
        (operation.failing error) with ⟨result, after⟩
      cases result with
      | error message =>
        have outcome : editor.saveAs host disk target (operation.failing error) =
            (.error (.failed message), editor, after) := by
          simp only [saveAs, checked, if_neg current, made]
        rw [outcome]
        refine ⟨rfl, ?_⟩
        rcases createBytesNew_restored canonical fits tidy_failing made with
          restored | ⟨spares, late, taken⟩
        · refine ⟨.of_restored restored, ?_⟩
          intro works
          rw [saveAs_isOk_iff (canonical.of_place restored.place)]
          exact ((saveAs_isOk_iff canonical).mp works).restored restored
        · refine ⟨.of_spares spares taken, ?_⟩
          intro works
          have saves := ((saveAs_isOk_iff canonical).mp works).2
          rw [← isCurrentPath_late late, if_neg current, Creates] at saves
          rw [saves.1] at taken
          cases taken
      | ok done =>
        obtain ⟨unnamed, place, led, held, temporary, next, reserved⟩ :=
          createBytesNew_made made
        exfalso
        by_cases follows : operation.followsLink = true
        · have late : Late (operation.failing error) := late_failing follows
          rw [late.create] at reserved
          refine fine ⟨fits, ?_⟩
          rw [← isCurrentPath_late late, if_neg current]
          exact ⟨follows, unnamed, reservedTemporary_of_created reserved ▸ rfl⟩
        · obtain ⟨resolved, address, observed⟩ := quiet_failing error follows
          have adopts : ∃ adopted, editor.adopt host after target format
              (operation.failing error) = .ok adopted :=
            adopt_made (canonical.of_place place) (place ▸ led) held resolved address observed
          obtain ⟨adopted, adopts⟩ := adopts
          simp only [saveAs, checked, if_neg current, made, adopts] at failed
          cases failed

theorem reload_leaves_nothing {failure : String}
    (failed : (editor.reload host disk faults).1 = .error failure) :
    (editor.reload host disk faults).2 = editor := by
  cases filed : editor.path with
  | none => simp only [reload, filed]
  | some path =>
    simp only [reload, filed] at failed ⊢
    cases observed : FileBaseline.observe host disk path faults.observed with
    | error message => rfl
    | ok baseline =>
      simp only [observed] at failed ⊢
      cases decoded : decodeSource host path baseline.bytes with
      | error message => rfl
      | ok source =>
        simp only [decoded] at failed ⊢
        cases addressed : fileAddress host disk path faults.address with
        | error message => rfl
        | ok address =>
          simp only [addressed] at failed
          cases failed

end Failing

/-- One operation fails: `save_guarded` and `save_as` leave nothing behind exactly where it is not
one that follows the writing of the file, and `reload` changes nothing whichever it is. -/
theorem failed_saves_leave_nothing_iff (host : EditorHost) (disk : Disk)
    (canonical : Canonical disk) (editor : Editor) (target : FilePath)
    (operation : FileOperation) (error : IoError) :
    (LeavesNothing (Editor.saveGuarded host) disk editor target (operation.failing error) ↔
        ¬ FailsReplaced host disk editor operation) ∧
      (LeavesNothing (fun disk editor => editor.saveAs host disk target) disk editor target
          (operation.failing error) ↔ ¬ FailsWritten host disk editor target operation) ∧
        ∀ failure, (editor.reload host disk (operation.failing error)).1 = .error failure →
          (editor.reload host disk (operation.failing error)).2 = editor :=
  ⟨saveGuarded_leaves_nothing_iff, saveAs_leaves_nothing_iff canonical,
    fun _ failed => reload_leaves_nothing failed⟩

end Targets

section Tide

def tooManyFiles : IoError := ⟨.other, "Too many open files (os error 24)"⟩

def ebbPath : FilePath := [.rootDir, .normal "notes".toUTF8, .normal "ebb.djot".toUTF8]

def notesText (path : FilePath) : String :=
  if path = tidePath then "/notes/tide.djot" else "/notes/ebb.djot"

def notesHost : EditorHost := { shoreHost with display := notesText, toStringLossy := notesText }

theorem canonical_tideDisk (text : String) : Canonical (tideDisk text) :=
  ⟨fun _ => rfl, fun _ _ => rfl⟩

theorem failed_saves_leave_nothing_iff_tide :
    LeavesNothing (Editor.saveGuarded notesHost) (tideDisk "ebb") (tideEditor.edit "flow") tidePath
      (FileOperation.sync.failing tooManyFiles) := by
  have exactly := failed_saves_leave_nothing_iff notesHost (tideDisk "ebb")
    (canonical_tideDisk "ebb") (tideEditor.edit "flow") tidePath .sync tooManyFiles
  exact exactly.1.mpr fun fails => by cases fails.1

/-- The file is replaced, or the new file made, before it turns out that it cannot be opened or
found again; a second call then refuses its own work. -/
theorem written_file_is_left :
    ¬ LeavesNothing (Editor.saveGuarded notesHost) (tideDisk "ebb") (tideEditor.edit "flow")
        tidePath (FileOperation.openedAgain.failing tooManyFiles) ∧
      ¬ LeavesNothing (fun disk editor => editor.saveAs notesHost disk ebbPath) (tideDisk "ebb")
        (tideEditor.edit "flow") ebbPath (FileOperation.resolved.failing tooManyFiles) := by
  constructor
  · intro leaves
    have failed : ((tideEditor.edit "flow").saveGuarded notesHost (tideDisk "ebb")
        (FileOperation.openedAgain.failing tooManyFiles)).1 = .error (.failed
          "could not read /notes/tide.djot: Too many open files (os error 24)") := by decide
    have again := (leaves _ failed).2.2 (by decide)
    revert again
    decide
  · intro leaves
    have failed : ((tideEditor.edit "flow").saveAs notesHost (tideDisk "ebb") ebbPath
        (FileOperation.resolved.failing tooManyFiles)).1 = .error (.failed
          "could not resolve saved target /notes/ebb.djot: Too many open files (os error 24)") := by
      decide
    have again := (leaves _ failed).2.2 (by decide)
    revert again
    decide

end Tide

end KnotEditor.Document
