import KnotEditor.Document.Editor
import KnotEditor.Library.Fallible
import KnotEditor.Library.Run

/-! Saving over any run of calls and of changes by others: a save replaces only what the session
has seen, and what it reports is so. -/

namespace KnotEditor.Document

open FileTree Fallible

variable {host : EditorHost} {disk after : Disk} {path temporary : FilePath} {inode : Nat}

def EditorWorld.Seen (world : EditorWorld) (path : FilePath) : Prop :=
  ∃ baseline spot, world.editor.path = some path ∧ world.editor.baseline = some baseline ∧
    world.disk.find path = some (spot, baseline.handle) ∧
      (world.disk.file baseline.handle).bytes = baseline.bytes

def EditorWorld.InStep (world : EditorWorld) : Prop :=
  world.editor.isDirty = false ∧ ∃ path baseline, world.editor.path = some path ∧
    world.editor.baseline = some baseline ∧ world.Seen path ∧
      world.editor.editor.source.toUTF8 = baseline.bytes

/-- What a call may do to the files it finds: nothing, or to replace the one that was seen. -/
structure KeepsUnseen (world : EditorWorld) (after : Disk) : Prop where
  replaces : Spares world.disk after ∨ ∃ path, world.Seen path ∧
    SparesBut (· = world.disk.place path) world.disk after
  destroys : ∀ inode, world.disk.Named inode →
    after.Named inode ∧ after.file inode = world.disk.file inode ∨
      ∃ baseline, world.editor.baseline = some baseline ∧ baseline.handle = inode ∧
        (world.disk.file inode).bytes = baseline.bytes

structure Reports (world : EditorWorld)
    (saved : Except KnotEditorSaveError SaveOutcome × Editor × Disk) : Prop where
  written : saved.1 = .ok .written → EditorWorld.InStep ⟨saved.2.1, saved.2.2⟩
  unchanged : saved.1 = .ok .unchanged → world.editor.isDirty = false ∧
    saved.2.1 = world.editor ∧ saved.2.2 = world.disk

def SafeCall (host : EditorHost) (world : EditorWorld) : EditorCall → Prop
  | .edit source => (world.perform host (.edit source)).disk = world.disk
  | .saveGuarded faults =>
    let saved := world.editor.saveGuarded host world.disk faults
    KeepsUnseen world saved.2.2 ∧ Reports world saved
  | .saveAs target faults =>
    let saved := world.editor.saveAs host world.disk target faults
    (world.editor.isCurrentPath world.disk target faults = false →
      Spares world.disk saved.2.2) ∧ KeepsUnseen world saved.2.2 ∧ Reports world saved
  | .reload faults =>
    let reloaded := world.editor.reload host world.disk faults
    (world.perform host (.reload faults)).disk = world.disk ∧
      (reloaded.1 = .ok () → EditorWorld.InStep ⟨reloaded.2, world.disk⟩)
  | .elsewhere _ => True

/-- The accepted source is what the baseline holds, and only a scratch editor has neither path nor
baseline. -/
structure Editor.Consistent (editor : Editor) : Prop where
  filed : editor.path.isSome = editor.baseline.isSome
  accepted : ∀ baseline, editor.baseline = some baseline →
    baseline.bytes = editor.editor.accepted.toUTF8

theorem locate_eq_ok {fault : Option IoError} {found : FilePath × Nat}
    (located : locate disk path fault = .ok found) : disk.find path = some found := by
  unfold locate at located
  split at located
  · cases located
  · cases located
  · rename_i held
    cases located
    exact held

theorem observe_eq_ok {faults : ObserveFaults} {baseline : FileBaseline}
    (observed : FileBaseline.observe host disk path faults = .ok baseline) :
    ∃ spot, disk.find path = some (spot, baseline.handle) ∧
      (disk.file baseline.handle).bytes = baseline.bytes := by
  rw [FileBaseline.observe] at observed
  split at observed
  · cases observed
  · cases observed
  · cases observed
  · rename_i spot found located _ _
    cases observed
    exact ⟨spot, locate_eq_ok located, rfl⟩

theorem decodeSource_eq_ok {bytes : ByteArray} {source : String}
    (decoded : decodeSource host path bytes = .ok source) : source.toUTF8 = bytes := by
  rw [decodeSource, String.fromUTF8?] at decoded
  by_cases valid : bytes.IsValidUTF8
  · rw [dif_pos valid] at decoded
    cases decoded
    rfl
  · rw [dif_neg valid] at decoded
    cases decoded

theorem stillMatches_eq_true {baseline : FileBaseline} {faults : EditorFaults}
    (same : baseline.stillMatches host disk path faults = .ok true) :
    ∃ spot, disk.find path = some (spot, baseline.handle) ∧
      (disk.file baseline.handle).bytes = baseline.bytes := by
  rw [FileBaseline.stillMatches] at same
  split at same
  · cases same
  · cases same
  · rename_i spot found _ again located relocated
    have once := (locate_eq_ok located).symm.trans (locate_eq_ok relocated)
    cases once
    simp only [Except.ok.injEq, Bool.and_eq_true, decide_eq_true_eq] at same
    rw [← same.1]
    exact ⟨spot, locate_eq_ok located, same.2⟩

theorem reserveTemporary_spec (parent : FilePath) (create : Nat → Option IoError)
    (nonces : List Nat) :
    (∃ error, reserveTemporary host disk parent create nonces = (.error error, disk)) ∨
      ∃ temporary, disk.entry (disk.place temporary) = none ∧
        reserveTemporary host disk parent create nonces =
          (.ok (temporary, disk.next), disk.create temporary ⟨.empty, false⟩) := by
  induction nonces with
  | nil => exact .inl ⟨_, rfl⟩
  | cons nonce rest ih =>
    rw [reserveTemporary]
    split
    · split
      · exact ih
      · exact .inl ⟨_, rfl⟩
    · split
      · exact ih
      · rename_i free
        refine .inr ⟨temporaryPath host parent nonce, ?_, rfl⟩
        simpa using free

theorem createSiblingTemporary_spec (host : EditorHost) (disk : Disk) (path : FilePath)
    (create : Nat → Option IoError) :
    (∃ error, createSiblingTemporary host disk path create = (.error error, disk)) ∨
      ∃ temporary, disk.entry (disk.place temporary) = none ∧
        createSiblingTemporary host disk path create =
          (.ok (temporary, disk.next), disk.create temporary ⟨.empty, false⟩) := by
  rw [createSiblingTemporary]
  split
  · exact .inl ⟨_, rfl⟩
  · exact reserveTemporary_spec _ _ _

theorem fillTemporary_spec (disk : Disk) (temporary : FilePath) (file : StoredFile)
    (contents : ByteArray) (faults : EditorFaults) :
    (∃ error part, fillTemporary (disk.create temporary file) disk.next contents faults =
        (.error error, disk.create temporary part)) ∨
      fillTemporary (disk.create temporary file) disk.next contents faults =
        (.ok (), disk.create temporary ⟨contents, false⟩) := by
  rw [fillTemporary]
  split
  · exact .inl ⟨_, _, by rw [write_create]⟩
  · exact .inl ⟨_, _, by rw [write_create]⟩
  · exact .inr (by rw [write_create])

theorem copyPermissions_spec (disk : Disk) (path temporary : FilePath) (file : StoredFile)
    (faults : EditorFaults) :
    ∃ result readOnly, copyPermissions (disk.create temporary file) path disk.next faults =
      (result, disk.create temporary ⟨file.bytes, readOnly⟩) := by
  rw [copyPermissions]
  split
  · exact ⟨_, file.readOnly, rfl⟩
  · exact ⟨_, file.readOnly, rfl⟩
  · exact ⟨_, _, by rw [write_create, file_create]⟩

theorem spares_discard (file : StoredFile) (fault : Option IoError)
    (free : disk.entry (disk.place temporary) = none) :
    Spares disk (discard (disk.create temporary file) temporary fault) := by
  have created := spares_create disk temporary file free
  unfold discard
  split
  · exact created
  · exact created.remove temporary free

theorem replaceBytesAtomically_spec (contents : ByteArray) (faults : EditorFaults)
    (replaced : Except IoError Unit) (afterwards :
      replaceBytesAtomically host disk path contents faults = (replaced, after)) :
    (replaced ≠ .ok () → Spares disk after) ∧
      SparesBut (· = disk.place path) disk after := by
  rw [replaceBytesAtomically] at afterwards
  rcases createSiblingTemporary_spec host disk path faults.create with
    ⟨error, made⟩ | ⟨temporary, free, made⟩
  · rw [made] at afterwards
    cases afterwards
    exact ⟨fun _ => spares_refl _ disk, spares_refl _ disk⟩
  · rw [made] at afterwards
    rcases fillTemporary_spec disk temporary ⟨.empty, false⟩ contents
        faults with ⟨error, part, filled⟩ | filled
    · simp only [filled] at afterwards
      cases afterwards
      have spared := spares_discard part faults.remove free
      exact ⟨fun _ => spared, spared.weaken⟩
    · rcases copyPermissions_spec disk path temporary
          ⟨contents, false⟩ faults with ⟨result, readOnly, copied⟩
      simp only [filled, copied] at afterwards
      have spared := spares_discard ⟨contents, readOnly⟩ faults.remove free
      cases result with
      | error error =>
        simp only [Prod.mk.injEq] at afterwards
        rcases afterwards with ⟨rfl, rfl⟩
        exact ⟨fun _ => spared, spared.weaken⟩
      | ok done =>
        cases renamed : faults.rename with
        | some error =>
          simp only [renamed, Prod.mk.injEq] at afterwards
          rcases afterwards with ⟨rfl, rfl⟩
          exact ⟨fun _ => spared, spared.weaken⟩
        | none =>
          simp only [renamed, Prod.mk.injEq] at afterwards
          rcases afterwards with ⟨rfl, rfl⟩
          have created : SparesBut (· = disk.place path) disk
              (disk.create temporary ⟨contents, readOnly⟩) :=
            (spares_create disk temporary _ free).weaken
          exact ⟨fun failed => absurd rfl failed,
            created.rename temporary path free rfl⟩

theorem spares_createBytesNew (host : EditorHost) (disk : Disk) (path : FilePath)
    (contents : ByteArray) (faults : EditorFaults) :
    Spares disk (createBytesNew host disk path contents faults).2 := by
  rw [createBytesNew]
  rcases createSiblingTemporary_spec host disk path faults.create with
    ⟨error, made⟩ | ⟨temporary, free, made⟩
  · rw [made]
    exact spares_refl _ disk
  · rw [made]
    rcases fillTemporary_spec disk temporary ⟨.empty, false⟩ contents
        faults with ⟨error, part, filled⟩ | filled
    · simp only [filled]
      exact spares_discard part faults.remove free
    · simp only [filled]
      split
      · exact spares_discard _ faults.remove free
      · split
        · exact spares_discard _ faults.remove free
        · rename_i open'
          have created := spares_create disk temporary ⟨contents, false⟩ free
          have unnamed : disk.entry (disk.place path) = none := by
            cases held : disk.entry (disk.place path) with
            | none => rfl
            | some entry =>
              refine absurd ?_ open'
              rw [show (disk.create temporary ⟨contents, false⟩).place path = disk.place path
                from rfl, created.entries _ entry held id]
              rfl
          have linked := created.hardLink temporary path (.inl unnamed)
          unfold discard
          split
          · exact linked
          · exact linked.remove temporary free

variable {editor : Editor} {faults : EditorFaults}

theorem keepsUnseen_of_spares {world : EditorWorld} (spares : Spares world.disk after) :
    KeepsUnseen world after where
  replaces := .inl spares
  destroys inode := by
    rintro ⟨spot, held⟩
    exact .inl ⟨⟨spot, spares.entries spot _ held id⟩,
      spares.files inode (world.disk.numbered spot inode held)⟩

theorem keepsUnseen_of_seen {world : EditorWorld} (seen : world.Seen path)
    (spares : SparesBut (· = world.disk.place path) world.disk after) :
    KeepsUnseen world after where
  replaces := .inr ⟨path, seen, spares⟩
  destroys inode := by
    rintro ⟨spot, held⟩
    by_cases replaced : spot = world.disk.place path
    · rcases seen with ⟨baseline, end', _, based, found, same⟩
      rw [replaced] at held
      cases (find_of_entry held).symm.trans found
      exact .inr ⟨baseline, based, rfl, same⟩
    · exact .inl ⟨⟨spot, spares.entries spot _ held replaced⟩,
        spares.files inode (world.disk.numbered spot inode held)⟩

theorem checkSave_cases {checked : Option (FilePath × FileBaseline)}
    (passes : editor.checkSave host disk faults = .ok checked) :
    checked = none ∧ editor.isDirty = false ∨
      ∃ path baseline, checked = some (path, baseline) ∧ editor.isDirty = true ∧
        editor.path = some path ∧ editor.baseline = some baseline ∧
          EditorWorld.Seen ⟨editor, disk⟩ path := by
  rw [Editor.checkSave] at passes
  split at passes
  · cases passes
  · rename_i path filed
    split at passes
    · rename_i clean
      cases passes
      exact .inl ⟨rfl, by simpa using clean⟩
    · rename_i dirty
      split at passes
      · cases passes
      · rename_i baseline based
        split at passes
        · split at passes <;> cases passes
        · split at passes
          · cases passes
          · split at passes
            · cases passes
            · cases passes
            · rename_i matched
              cases passes
              rcases stillMatches_eq_true matched with ⟨spot, found, same⟩
              exact .inr ⟨path, baseline, rfl, by simpa using dirty, filed, based, baseline, spot,
                filed, based, found, same⟩

theorem toUTF8_inj {left right : String} (same : left.toUTF8 = right.toUTF8) : left = right := by
  simpa [String.toByteArray_inj] using same

theorem isDirty_accept (shared : SharedKnotEditor) :
    (shared.acceptSavedSource shared.source).isDirty = false := by
  simp [SharedKnotEditor.isDirty, SharedKnotEditor.acceptSavedSource]

theorem saveGuarded_spec (host : EditorHost) (disk : Disk) (faults : EditorFaults)
    (consistent : editor.Consistent) :
    let saved := editor.saveGuarded host disk faults
    KeepsUnseen ⟨editor, disk⟩ saved.2.2 ∧ Reports ⟨editor, disk⟩ saved ∧
      saved.2.1.Consistent := by
  have still : KeepsUnseen ⟨editor, disk⟩ disk := keepsUnseen_of_spares (spares_refl _ disk)
  intro saved
  cases checked : editor.checkSave host disk faults with
  | error error =>
    have outcome : saved = (.error error, editor, disk) := by
      simp only [saved, Editor.saveGuarded, checked]
    rw [outcome]
    exact ⟨still, ⟨by simp, by simp⟩, consistent⟩
  | ok target =>
    rcases checkSave_cases checked with
      ⟨rfl, clean⟩ | ⟨path, baseline, rfl, dirty, filed, based, seen⟩
    · have outcome : saved = (.ok .unchanged, editor, disk) := by
        simp only [saved, Editor.saveGuarded, checked]
      rw [outcome]
      exact ⟨still, ⟨by simp, fun _ => ⟨clean, rfl, rfl⟩⟩, consistent⟩
    · have differs : baseline.bytes ≠ editor.editor.source.toUTF8 := by
        intro same
        have accepted := consistent.accepted baseline based
        have equal := toUTF8_inj (same.symm.trans accepted)
        simp [Editor.isDirty, SharedKnotEditor.isDirty, equal] at dirty
      rcases replaced : replaceBytesAtomically host disk path editor.editor.source.toUTF8 faults
        with ⟨result, after⟩
      have kept := keepsUnseen_of_seen seen (replaceBytesAtomically_spec _ _ _ replaced).2
      cases result with
      | error error =>
        have outcome : saved = (.error (.failed
            s!"could not write {host.display path}: {error.text}"), editor, after) := by
          simp only [saved, Editor.saveGuarded, checked, writeIfDistinct, if_neg differs,
            replaced]
        rw [outcome]
        exact ⟨kept, ⟨by simp, by simp⟩, consistent⟩
      | ok done =>
        cases observed : FileBaseline.observe host after path faults.observed with
        | error error =>
          have outcome : saved = (.error (.failed error), editor, after) := by
            simp only [saved, Editor.saveGuarded, checked, writeIfDistinct, if_neg differs,
              replaced, observed]
          rw [outcome]
          exact ⟨kept, ⟨by simp, by simp⟩, consistent⟩
        | ok updated =>
          by_cases equal : updated.bytes = editor.editor.source.toUTF8
          · have outcome : saved = (.ok .written,
                { editor with
                  editor := editor.editor.acceptSavedSource editor.editor.source
                  baseline := some updated }, after) := by
              simp only [saved, Editor.saveGuarded, checked, writeIfDistinct,
                if_neg differs, replaced, observed, ne_eq, equal, not_true, if_false]
            rw [outcome]
            rcases observe_eq_ok observed with ⟨spot, found, same⟩
            refine ⟨kept, ⟨fun _ => ⟨isDirty_accept _, path, updated, filed, rfl,
              ⟨updated, spot, filed, rfl, found, same⟩, equal.symm⟩, by simp⟩, ?_, ?_⟩
            · rw [filed]
              rfl
            · intro other same
              cases same
              exact equal
          · have outcome : saved = (.error .externalChange, editor, after) := by
              simp only [saved, Editor.saveGuarded, checked, writeIfDistinct,
                if_neg differs, replaced, observed, ne_eq, equal, not_false_eq_true, if_true]
            rw [outcome]
            exact ⟨kept, ⟨by simp, by simp⟩, consistent⟩

theorem adopt_spec {target : FilePath} {format : DocumentFormat} {adopted : Editor}
    (taken : editor.adopt host disk target format faults = .ok adopted) :
    EditorWorld.InStep ⟨adopted, disk⟩ ∧ adopted.Consistent := by
  simp only [Editor.adopt] at taken
  split at taken
  · cases taken
  · rename_i resolved _
    split at taken
    · cases taken
    · split at taken
      · cases taken
      · rename_i baseline observed
        split at taken
        · cases taken
        · rename_i equal
          cases taken
          rw [not_not] at equal
          rcases observe_eq_ok observed with ⟨spot, found, same⟩
          refine ⟨⟨by simp [Editor.isDirty, SharedKnotEditor.isDirty,
            SharedKnotEditor.acceptSavedSource], resolved, baseline, rfl, rfl,
            ⟨baseline, spot, rfl, rfl, found, same⟩, equal.symm⟩, rfl, ?_⟩
          intro other held
          cases held
          exact equal

theorem saveAs_spec (host : EditorHost) (disk : Disk) (faults : EditorFaults)
    (consistent : editor.Consistent) (target : FilePath) :
    let saved := editor.saveAs host disk target faults
    (editor.isCurrentPath disk target faults = false → Spares disk saved.2.2) ∧
      KeepsUnseen ⟨editor, disk⟩ saved.2.2 ∧ Reports ⟨editor, disk⟩ saved ∧
        saved.2.1.Consistent := by
  have still : Spares disk disk := spares_refl _ disk
  intro saved
  cases checked : editor.checkTarget host target with
  | error error =>
    have outcome : saved = (.error error, editor, disk) := by
      simp only [saved, Editor.saveAs, checked]
    rw [outcome]
    exact ⟨fun _ => still, keepsUnseen_of_spares still, ⟨by simp, by simp⟩, consistent⟩
  | ok format =>
    by_cases current : editor.isCurrentPath disk target faults = true
    · have outcome : saved = editor.saveGuarded host disk faults := by
        simp only [saved, Editor.saveAs, checked, current, if_true]
      rw [outcome]
      refine ⟨fun other => ?_, saveGuarded_spec host disk faults consistent⟩
      rw [current] at other
      cases other
    · have spares := spares_createBytesNew host disk target
        editor.editor.source.toUTF8 faults
      rcases created : createBytesNew host disk target editor.editor.source.toUTF8 faults with
        ⟨result, after⟩
      rw [created] at spares
      have kept : KeepsUnseen ⟨editor, disk⟩ after := keepsUnseen_of_spares spares
      cases result with
      | error error =>
        have outcome : saved = (.error (.failed error), editor, after) := by
          simp only [saved, Editor.saveAs, checked, current, created]
          rfl
        rw [outcome]
        exact ⟨fun _ => spares, kept, ⟨by simp, by simp⟩, consistent⟩
      | ok done =>
        cases adopted : editor.adopt host after target format faults with
        | error error =>
          have outcome : saved = (.error error, editor, after) := by
            simp only [saved, Editor.saveAs, checked, current, created, adopted]
            rfl
          rw [outcome]
          exact ⟨fun _ => spares, kept, ⟨by simp, by simp⟩, consistent⟩
        | ok taken =>
          have outcome : saved = (.ok .written, taken, after) := by
            simp only [saved, Editor.saveAs, checked, current, created, adopted]
            rfl
          rw [outcome]
          have adoption := adopt_spec adopted
          exact ⟨fun _ => spares, kept, ⟨fun _ => adoption.1, by simp⟩, adoption.2⟩

theorem reload_spec (consistent : editor.Consistent) :
    let reloaded := editor.reload host disk faults
    (reloaded.1 = .ok () → EditorWorld.InStep ⟨reloaded.2, disk⟩) ∧ reloaded.2.Consistent := by
  simp only [Editor.reload]
  split
  · exact ⟨by simp, consistent⟩
  · rename_i path filed
    split
    · exact ⟨by simp, consistent⟩
    · rename_i baseline observed
      split
      · exact ⟨by simp, consistent⟩
      · rename_i source decoded
        split
        · exact ⟨by simp, consistent⟩
        · have text := decodeSource_eq_ok decoded
          rcases observe_eq_ok observed with ⟨spot, found, same⟩
          refine ⟨fun _ => ⟨by simp [Editor.isDirty, SharedKnotEditor.isDirty,
            SharedKnotEditor.scratch], path, baseline, filed, rfl,
            ⟨baseline, spot, filed, rfl, found, same⟩, text⟩, ?_, ?_⟩
          · rw [filed]
            rfl
          · intro other held
            cases held
            exact text.symm

theorem consistent_edit (consistent : editor.Consistent) (source : String) :
    (editor.edit source).Consistent :=
  ⟨consistent.filed, consistent.accepted⟩

theorem consistent_perform (world : EditorWorld) (consistent : world.editor.Consistent)
    (call : EditorCall) : (world.perform host call).editor.Consistent := by
  cases call with
  | edit source => exact consistent_edit consistent source
  | saveGuarded faults => exact (saveGuarded_spec host world.disk faults consistent).2.2
  | saveAs target faults => exact (saveAs_spec host world.disk faults consistent target).2.2.2
  | reload faults => exact (reload_spec consistent).2
  | elsewhere disk => exact consistent

theorem safe_perform (world : EditorWorld) (consistent : world.editor.Consistent)
    (call : EditorCall) : SafeCall host world call := by
  cases call with
  | edit source => rfl
  | saveGuarded faults =>
    have spec := saveGuarded_spec host world.disk faults consistent
    exact ⟨spec.1, spec.2.1⟩
  | saveAs target faults =>
    have spec := saveAs_spec host world.disk faults consistent target
    exact ⟨spec.1, spec.2.1, spec.2.2.1⟩
  | reload faults => exact ⟨rfl, (reload_spec consistent).1⟩
  | elsewhere disk => trivial

inductive Opens (host : EditorHost) (disk : Disk) : Editor → Prop
  | file (requested : FilePath) (faults : EditorFaults) (editor : Editor)
      (opened : Editor.open host disk requested faults = .ok editor) : Opens host disk editor
  | scratch (address source : String) (format : DocumentFormat) :
      Opens host disk (.scratchWithFormat address source format)

theorem consistent_opens (opens : Opens host disk editor) : editor.Consistent := by
  cases opens with
  | scratch address source format => exact ⟨rfl, by simp [Editor.scratchWithFormat]⟩
  | file requested faults _ opened =>
    rw [Editor.open] at opened
    split at opened
    · cases opened
    · simp only [bind_eq_ok_iff] at opened
      rcases opened with ⟨path, _, baseline, observed, source, decoded, address, _, made⟩
      cases made
      refine ⟨rfl, ?_⟩
      intro other held
      cases held
      exact (decodeSource_eq_ok decoded).symm

/-- Over any run of calls, whichever operations fail and whatever others do to the files. -/
theorem editor_saves_are_guarded (opens : Opens host disk editor) (calls : List EditorCall) :
    Run.Along (EditorWorld.perform host) (SafeCall host) ⟨editor, disk⟩ calls ∧
      (calls.foldl (EditorWorld.perform host) ⟨editor, disk⟩).editor.Consistent := by
  have start := consistent_opens opens
  have always : Run.Along (EditorWorld.perform host) (fun _ _ => True) ⟨editor, disk⟩ calls :=
    Run.along_always (fun _ _ => trivial) calls _
  have keeps : ∀ (world : EditorWorld) call, world.editor.Consistent → True →
      (world.perform host call).editor.Consistent :=
    fun world call consistent _ => consistent_perform world consistent call
  exact ⟨Run.along_of_invariant keeps
    (fun world call consistent _ => safe_perform world consistent call) calls _ start always,
    Run.invariant_run keeps calls _ start always⟩

def tidePath : FilePath := [.rootDir, .normal "notes".toUTF8, .normal "tide.djot".toUTF8]

def shoreHost : EditorHost where
  display _ := "/notes/tide.djot"
  toStringLossy _ := "/notes/tide.djot"
  utf8Error _ := "invalid utf-8 sequence"
  processId := 7

def tideDisk (text : String) : Disk where
  place := id
  entry spot := if spot = tidePath then some (.file 0) else none
  file _ := ⟨text.toUTF8, false⟩
  next := 1
  numbered spot inode held := by
    split at held
    · cases held
      exact Nat.zero_lt_one
    · cases held

def tideEditor : Editor :=
  ⟨some tidePath, "file:///notes/tide.djot", .djot, .scratch "ebb", some ⟨"ebb".toUTF8, 0⟩⟩

theorem tideEditor_opens : Opens shoreHost (tideDisk "ebb") tideEditor :=
  .file tidePath {} tideEditor (by decide)

def tideCalls : List EditorCall :=
  [.edit "flow", .saveGuarded {}, .edit "spring tide", .elsewhere (tideDisk "neap"),
    .saveGuarded {}]

theorem editor_saves_are_guarded_tide :
    (Run.Along (EditorWorld.perform shoreHost) (SafeCall shoreHost) ⟨tideEditor, tideDisk "ebb"⟩
        tideCalls ∧
      (tideCalls.foldl (EditorWorld.perform shoreHost)
        ⟨tideEditor, tideDisk "ebb"⟩).editor.Consistent) ∧
      ((tideCalls.take 2).foldl (EditorWorld.perform shoreHost)
        ⟨tideEditor, tideDisk "ebb"⟩).editor.isDirty = false ∧
      (tideCalls.foldl (EditorWorld.perform shoreHost)
        ⟨tideEditor, tideDisk "ebb"⟩).editor.isDirty = true :=
  ⟨editor_saves_are_guarded tideEditor_opens tideCalls, by decide, by decide⟩

end KnotEditor.Document
