import KnotEditor.Document.Editor
import KnotEditor.Text

/-! A document session: the file editor over its text input, the version of its source, and the
proposals that may replace its selection. A call that panics has no result. -/

namespace KnotEditor.Document

inductive CaretAffinity
  | upstream
  | downstream
  deriving DecidableEq

structure CaretPosition where
  byte : Nat := 0
  affinity : CaretAffinity := .downstream
  deriving DecidableEq

structure CaretSelection where
  anchor : CaretPosition := {}
  focus : CaretPosition := {}
  deriving DecidableEq

def selectionRange (selection : CaretSelection) : Nat × Nat :=
  (min selection.anchor.byte selection.focus.byte, max selection.anchor.byte selection.focus.byte)

structure SourceStamp where
  document : String
  instanceNumber : Nat
  revision : Nat
  deriving DecidableEq

structure SourceSnapshot where
  stamp : SourceStamp
  source : String
  deriving DecidableEq

structure TextEdit where
  start : Nat
  finish : Nat
  text : String
  deriving DecidableEq

structure Proposal where
  base : SourceSnapshot
  edits : List TextEdit
  deriving DecidableEq

structure EditReceipt where
  base : SourceStamp
  result : SourceStamp
  deriving DecidableEq

structure EditApplication where
  text : String
  receipt : EditReceipt

structure TextHost where
  Input : Type
  Command : Type
  scratch : String → String → Input
  text : Input → String
  selection : Input → CaretSelection
  composing : Input → Bool
  insert : String → Command
  setSelection : CaretSelection → Command
  apply : Command → Input → Input × Bool
  application : Proposal → SourceStamp → String → Except String EditApplication

def replacedBy (range : SourceRange) (text : String) : String :=
  String.ofList (range.before ++ text.toList ++ range.after)

/-- What a session relies on: a command says when it changed the text, setting the current selection
again changes nothing, an insertion replaces the selection, and a proposal applies only to the
source and stamp it was made from. -/
structure TextHost.Documented (host : TextHost) : Prop where
  changeReported : ∀ command input, (host.apply command input).2 = false →
    host.text (host.apply command input).1 = host.text input
  selectionOnly : ∀ selection input,
    host.text (host.apply (host.setSelection selection) input).1 = host.text input
  reselected : ∀ input,
    let again := (host.apply (host.setSelection (host.selection input)) input).1
    host.selection again = host.selection input ∧ host.composing again = host.composing input
  inserted : ∀ text input range, host.composing input = false →
    sourceRange (host.text input) (selectionRange (host.selection input)).1
      (selectionRange (host.selection input)).2 = some range →
    host.text (host.apply (host.insert text) input).1 = replacedBy range text
  checked : ∀ proposal stamp source application,
    host.application proposal stamp source = .ok application →
    proposal.base = ⟨stamp, source⟩ ∧ application.receipt.base = stamp ∧
      application.receipt.result = { stamp with revision := stamp.revision + 1 }

structure SourceVersion where
  instanceNumber : Nat
  revision : Nat

namespace SourceVersion

def new (next : Nat) : Option (SourceVersion × Nat) :=
  if next + 1 < 2 ^ 64 then some (⟨next, 0⟩, next + 1) else none

def advance (version : SourceVersion) : Option SourceVersion :=
  if version.revision + 1 < 2 ^ 64 then
    some { version with revision := version.revision + 1 }
  else none

end SourceVersion

variable (host : TextHost)

/-- `KnotEditor` with its text input, which is its only source buffer. -/
structure InputEditor where
  path : Option FilePath
  address : String
  format : DocumentFormat
  input : host.Input
  accepted : String
  baseline : Option FileBaseline

namespace InputEditor

variable {host}

def plain (editor : InputEditor host) : Editor :=
  ⟨editor.path, editor.address, editor.format, ⟨host.text editor.input, editor.accepted⟩,
    editor.baseline⟩

def ofPlain (editor : Editor) (input : host.Input) : InputEditor host :=
  ⟨editor.path, editor.address, editor.format, input, editor.editor.accepted, editor.baseline⟩

def source (editor : InputEditor host) : String := host.text editor.input

def selection (editor : InputEditor host) : CaretSelection := host.selection editor.input

def apply (editor : InputEditor host) (command : host.Command) : InputEditor host × Bool :=
  ({ editor with input := (host.apply command editor.input).1 },
    (host.apply command editor.input).2)

def applyLayoutSelection (editor : InputEditor host) (selection : CaretSelection) :
    InputEditor host :=
  (editor.apply (host.setSelection selection)).1

def isFileReadOnly (editor : InputEditor host) (disk : Disk) (fault : Option IoError) : Bool :=
  editor.path.any fun path =>
    match locate disk path fault with
    | .error _ => false
    | .ok (_, inode) => (disk.file inode).readOnly

def saveGuarded (files : EditorHost) (disk : Disk) (editor : InputEditor host)
    (faults : EditorFaults) : Except KnotEditorSaveError SaveOutcome × InputEditor host × Disk :=
  let saved := editor.plain.saveGuarded files disk faults
  (saved.1, ofPlain saved.2.1 editor.input, saved.2.2)

def saveAs (files : EditorHost) (disk : Disk) (editor : InputEditor host) (target : FilePath)
    (faults : EditorFaults) : Except KnotEditorSaveError SaveOutcome × InputEditor host × Disk :=
  let saved := editor.plain.saveAs files disk target faults
  (saved.1, ofPlain saved.2.1 editor.input, saved.2.2)

def reload (files : EditorHost) (disk : Disk) (editor : InputEditor host) (faults : EditorFaults) :
    Except String Unit × InputEditor host :=
  match editor.plain.reload files disk faults with
  | (.error error, _) => (.error error, editor)
  | (.ok (), reloaded) =>
    (.ok (), ofPlain reloaded (host.scratch reloaded.address reloaded.editor.source))

end InputEditor

inductive KnotDocumentWritePosture
  | fileTarget
  | scratch
  | readOnly
  deriving DecidableEq

inductive KnotDocumentSaveOutcome
  | written
  | unchanged
  | refused
  | failed
  deriving DecidableEq

inductive KnotDocumentRefusal
  | scratchHasNoSaveTarget
  | readOnly
  | externalChange
  deriving DecidableEq

inductive KnotDocumentIntentError
  | refused (refusal : KnotDocumentRefusal)
  | saveFailed (message : String)
  deriving DecidableEq

structure KnotDocumentSession where
  editor : InputEditor host
  sourceVersion : SourceVersion
  writePosture : KnotDocumentWritePosture
  lastSaveOutcome : Option KnotDocumentSaveOutcome := none
  refusal : Option KnotDocumentRefusal := none
  lastSaveFailure : Option String := none

inductive KnotDocumentIntent
  | edit (command : host.Command)
  | save (faults : EditorFaults) (fault : Option IoError)
  | saveAs (path : FilePath) (faults : EditorFaults)
  | reload (faults : EditorFaults)

namespace KnotDocumentSession

variable {host}

def sourceStamp (session : KnotDocumentSession host) : SourceStamp :=
  ⟨session.editor.address, session.sourceVersion.instanceNumber, session.sourceVersion.revision⟩

def sourceSnapshot (session : KnotDocumentSession host) : SourceSnapshot :=
  ⟨session.sourceStamp, session.editor.source⟩

def advance (session : KnotDocumentSession host) : Option (KnotDocumentSession host) :=
  session.sourceVersion.advance.map fun version => { session with sourceVersion := version }

def refuseReadOnlyEdit (session : KnotDocumentSession host) : KnotDocumentSession host :=
  { session with refusal := some .readOnly, lastSaveFailure := none }

def refuseWrite (session : KnotDocumentSession host) (refusal : KnotDocumentRefusal) :
    KnotDocumentSession host :=
  { session with
    lastSaveOutcome := some .refused
    refusal := some refusal
    lastSaveFailure := none }

def recordSaveOutcome (session : KnotDocumentSession host) (outcome : SaveOutcome) :
    KnotDocumentSession host :=
  { session with
    lastSaveOutcome := some (match outcome with
      | .written => .written
      | .unchanged => .unchanged)
    refusal := none
    lastSaveFailure := none }

def recordSaveFailure (session : KnotDocumentSession host) (message : String) :
    KnotDocumentSession host :=
  { session with
    lastSaveOutcome := some .failed
    refusal := none
    lastSaveFailure := some message }

def recordSaveError (session : KnotDocumentSession host) :
    KnotEditorSaveError → KnotDocumentIntentError × KnotDocumentSession host
  | .externalChange => (.refused .externalChange, session.refuseWrite .externalChange)
  | .failed message => (.saveFailed message, session.recordSaveFailure message)

abbrev Applied (host : TextHost) :=
  Except KnotDocumentIntentError Unit × KnotDocumentSession host × Disk

def edit (session : KnotDocumentSession host) (command : host.Command) :
    Option (Except KnotDocumentRefusal Unit × KnotDocumentSession host) :=
  if session.writePosture = .readOnly then some (.error .readOnly, session.refuseReadOnlyEdit)
  else
    let (editor, sourceChanged) := session.editor.apply command
    let edited := { session with editor := editor }
    (if sourceChanged then edited.advance else some edited).map fun session =>
      (.ok (), { session with refusal := none })

def save (files : EditorHost) (disk : Disk) (session : KnotDocumentSession host)
    (faults : EditorFaults) (fault : Option IoError) : Applied host :=
  if session.writePosture = .readOnly || session.editor.isFileReadOnly disk fault then
    (.error (.refused .readOnly), session.refuseWrite .readOnly, disk)
  else if session.editor.path.isNone then
    (.error (.refused .scratchHasNoSaveTarget), session.refuseWrite .scratchHasNoSaveTarget, disk)
  else
    let (outcome, editor, disk) := session.editor.saveGuarded files disk faults
    let saved := { session with editor := editor }
    match outcome with
    | .ok outcome => (.ok (), saved.recordSaveOutcome outcome, disk)
    | .error error =>
      let (error, session) := saved.recordSaveError error
      (.error error, session, disk)

def saveAs (files : EditorHost) (disk : Disk) (session : KnotDocumentSession host)
    (path : FilePath) (faults : EditorFaults) : Option (Applied host) :=
  if session.writePosture = .readOnly then
    some (.error (.refused .readOnly), session.refuseWrite .readOnly, disk)
  else
    let oldAddress := session.editor.address
    let (outcome, editor, disk) := session.editor.saveAs files disk path faults
    let saved := { session with editor := editor }
    match outcome with
    | .ok outcome =>
      (if editor.address ≠ oldAddress then saved.advance else some saved).map fun session =>
        (.ok (), KnotDocumentSession.recordSaveOutcome
          { session with writePosture := .fileTarget } outcome, disk)
    | .error error =>
      let (error, session) := saved.recordSaveError error
      some (.error error, session, disk)

def reload (files : EditorHost) (disk : Disk) (session : KnotDocumentSession host)
    (faults : EditorFaults) : Option (Applied host) :=
  if session.writePosture = .readOnly then
    some (.error (.refused .readOnly), session.refuseWrite .readOnly, disk)
  else if session.editor.path.isNone then
    some (.error (.refused .scratchHasNoSaveTarget),
      { session with refusal := some .scratchHasNoSaveTarget, lastSaveFailure := none }, disk)
  else
    let (outcome, editor) := session.editor.reload files disk faults
    let reloaded := { session with editor := editor }
    match outcome with
    | .ok () =>
      reloaded.advance.map fun session =>
        (.ok (), { session with
          lastSaveOutcome := none
          refusal := none
          lastSaveFailure := none }, disk)
    | .error message =>
      some (.error (.saveFailed message), reloaded.recordSaveFailure message, disk)

def apply (files : EditorHost) (disk : Disk) (session : KnotDocumentSession host) :
    KnotDocumentIntent host → Option (Applied host)
  | .edit command =>
    (session.edit command).map fun edited => (edited.1.mapError .refused, edited.2, disk)
  | .save faults fault => some (session.save files disk faults fault)
  | .saveAs path faults => session.saveAs files disk path faults
  | .reload faults => session.reload files disk faults

def borrowInput (session : KnotDocumentSession host) (change : host.Input → host.Input) :
    Option (Except KnotDocumentRefusal Unit × KnotDocumentSession host) :=
  if session.writePosture = .readOnly then
    some (.error .readOnly, session.refuseReadOnlyEdit)
  else
    session.advance.map fun session =>
      (.ok (), { session with
        editor := { session.editor with input := change session.editor.input } })

/-- A message to the editable view. The view notes the text whenever it lends the input, and an
earlier note may still stand when the message does not reach the input. -/
def viewMessage (session : KnotDocumentSession host) (earlier : Option String)
    (change : Option (host.Input → host.Input)) : Option (KnotDocumentSession host) :=
  if session.writePosture = .readOnly then some session
  else
    let (before, handled) := match change with
      | none => (earlier, session)
      | some change => (some session.editor.source,
          { session with
            editor := { session.editor with input := change session.editor.input } })
    if before.any fun text => decide (text ≠ handled.editor.source) then handled.advance
    else some handled

def selectSourceRange (session : KnotDocumentSession host) (address sourceText : String)
    (start finish : Nat) (itemKind : String) : Except String (KnotDocumentSession host) :=
  if address ≠ session.editor.address ∨ sourceText ≠ session.editor.source then
    .error s!"{itemKind} snapshot is stale for this document source"
  else if (sourceRange session.editor.source start finish).isNone then
    .error s!"{itemKind} range is not a valid source span"
  else
    .ok { session with
      editor := session.editor.applyLayoutSelection ⟨⟨start, .downstream⟩, ⟨finish, .upstream⟩⟩ }

def checkProposalAuthority (disk : Disk) (session : KnotDocumentSession host)
    (fault : Option IoError) : Except String Unit :=
  if session.writePosture = .readOnly || session.editor.isFileReadOnly disk fault then
    .error "this document is read-only"
  else if host.composing session.editor.input then
    .error "finish the current text composition before applying a proposal"
  else .ok ()

def checkedSelectionRange (disk : Disk) (session : KnotDocumentSession host)
    (selection : CaretSelection) (fault : Option IoError) : Except String (Nat × Nat) := do
  session.checkProposalAuthority disk fault
  if session.editor.selection ≠ selection then
    .error "source selection changed"
  let range := selectionRange selection
  if (sourceRange session.editor.source range.1 range.2).isNone then
    .error "the captured selection is invalid"
  .ok range

def refusalText : KnotDocumentRefusal → String
  | .scratchHasNoSaveTarget => "Refused(ScratchHasNoSaveTarget)"
  | .readOnly => "Refused(ReadOnly)"
  | .externalChange => "Refused(ExternalChange)"

def checkProposal (disk : Disk) (session : KnotDocumentSession host) (proposal : Proposal)
    (selection : CaretSelection) (fault : Option IoError) :
    Except String (TextEdit × EditApplication) := do
  let range ← session.checkedSelectionRange disk selection fault
  match proposal.edits with
  | [edit] =>
    if edit.start ≠ range.1 ∨ edit.finish ≠ range.2 then
      .error "proposal range does not match the captured selection"
    let application ← host.application proposal session.sourceStamp session.editor.source
    .ok (edit, application)
  | _ => .error "this editor accepts one selection replacement"

def applySourceProposal (disk : Disk) (session : KnotDocumentSession host) (proposal : Proposal)
    (selection : CaretSelection) (fault : Option IoError) :
    Option (Except String EditReceipt × KnotDocumentSession host) :=
  match session.checkProposal disk proposal selection fault with
  | .error error => some (.error error, session)
  | .ok (edit, application) =>
    let selected := { session with editor := session.editor.applyLayoutSelection selection }
    (selected.edit (host.insert edit.text)).map fun
      | (.error refusal, session) =>
        (.error s!"proposal edit refused: {refusalText refusal}", session)
      | (.ok (), session) =>
        (.ok application.receipt, { session with
          editor := session.editor.applyLayoutSelection session.editor.selection
          sourceVersion := { session.sourceVersion with
            revision := application.receipt.result.revision } })

end KnotDocumentSession

end KnotEditor.Document

/-! Any number of sessions over one file system, the calls on them, and the snapshots captured from
them. A step that panics has no result. -/

namespace KnotEditor.Document

inductive SessionCall (host : TextHost)
  | apply (intent : KnotDocumentIntent host)
  | borrow (change : host.Input → host.Input)
  | view (earlier : Option String) (change : Option (host.Input → host.Input))
  | selectRange (address sourceText : String) (start finish : Nat) (itemKind : String)
  | propose (proposal : Proposal) (selection : CaretSelection) (fault : Option IoError)

variable {host : TextHost}

def KnotDocumentIntent.isReload : KnotDocumentIntent host → Bool
  | .reload _ => true
  | .edit _ | .save _ _ | .saveAs _ _ => false

/-- What a call leaves. It counts as a change of the source when it reloaded, lent out the input or
applied a proposal, whatever the text is afterwards. -/
structure Performed (host : TextHost) where
  session : KnotDocumentSession host
  disk : Disk
  counts : Bool

def KnotDocumentSession.perform (files : EditorHost) (disk : Disk)
    (session : KnotDocumentSession host) : SessionCall host → Option (Performed host)
  | .apply intent =>
    (session.apply files disk intent).map fun applied =>
      ⟨applied.2.1, applied.2.2, intent.isReload && applied.1.isOk⟩
  | .borrow change =>
    (session.borrowInput change).map fun lent => ⟨lent.2, disk, lent.1.isOk⟩
  | .view earlier change =>
    (session.viewMessage earlier change).map fun handled => ⟨handled, disk, false⟩
  | .selectRange address sourceText start finish itemKind =>
    some ⟨(session.selectSourceRange address sourceText start finish itemKind).toOption.getD
      session, disk, false⟩
  | .propose proposal selection fault =>
    (session.applySourceProposal disk proposal selection fault).map fun applied =>
      ⟨applied.2, disk, applied.1.isOk⟩

def sourceChanged (before : KnotDocumentSession host) (after : Performed host) : Bool :=
  after.counts || decide (before.editor.source ≠ after.session.editor.source) ||
    decide (before.editor.address ≠ after.session.editor.address)

structure OpenSession (host : TextHost) where
  session : KnotDocumentSession host
  changes : Nat

/-- A snapshot with the place it was captured from and the changes seen there by then. -/
structure Capture where
  index : Nat
  changes : Nat
  snapshot : SourceSnapshot

structure SessionWorld (host : TextHost) where
  sessions : List (OpenSession host)
  captures : List Capture
  disk : Disk
  nextInstance : Nat

inductive Opening
  | file (requested : FilePath) (forReading : Bool) (faults : EditorFaults) (fault : Option IoError)
  | scratch (address source : String)
  | recovery (address source : String) (format : DocumentFormat) (selection : CaretSelection)
  | readOnly (address source : String) (format : DocumentFormat)

def InputEditor.scratchWithFormat (address source : String) (format : DocumentFormat) :
    InputEditor host :=
  .ofPlain (.scratchWithFormat address source format) (host.scratch address source)

/-- What the new session edits, whether it may be written, and what is done before it is handed
out; `none` where it is refused. -/
def Opening.editor (host : TextHost) (files : EditorHost) (disk : Disk) :
    Opening → Option (InputEditor host × KnotDocumentWritePosture)
  | .file requested forReading faults fault =>
    match Editor.open files disk requested faults with
    | .error _ => none
    | .ok opened =>
      let editor : InputEditor host :=
        .ofPlain opened (host.scratch opened.address opened.editor.source)
      some (editor,
        if forReading || editor.isFileReadOnly disk fault then .readOnly else .fileTarget)
  | .scratch address source => some (.scratchWithFormat address source .djot, .scratch)
  | .recovery address source format selection =>
    if !editable format || (sourceRange source 0 selection.anchor.byte).isNone ||
        (sourceRange source 0 selection.focus.byte).isNone then none
    else
      let filled := ((InputEditor.scratchWithFormat address "" format).apply
        (host.insert source)).1
      some (filled.applyLayoutSelection selection, .scratch)
  | .readOnly address source format => some (.scratchWithFormat address source format, .readOnly)

def Opening.accepts (opening : Opening) (session : KnotDocumentSession host) : Bool :=
  match opening with
  | .recovery _ _ _ selection => decide (session.editor.selection = selection)
  | .file _ _ _ _ | .scratch _ _ | .readOnly _ _ _ => true

inductive WorldAction (host : TextHost)
  | «open» (opening : Opening)
  | call (index : Nat) (call : SessionCall host)
  | capture (index : Nat)
  | elsewhere (disk : Disk)

namespace SessionWorld

def «open» (files : EditorHost) (world : SessionWorld host) (opening : Opening) :
    Option (SessionWorld host) :=
  match opening.editor host files world.disk with
  | none => some world
  | some (editor, posture) =>
    (SourceVersion.new world.nextInstance).map fun (version, next) =>
      let session : KnotDocumentSession host := ⟨editor, version, posture, none, none, none⟩
      if opening.accepts session then
        { world with
          sessions := world.sessions ++ [⟨session, 0⟩]
          nextInstance := next }
      else { world with nextInstance := next }

def call (files : EditorHost) (world : SessionWorld host) (index : Nat) (call : SessionCall host) :
    Option (SessionWorld host) :=
  match world.sessions[index]? with
  | none => some world
  | some before =>
    (before.session.perform files world.disk call).map fun after =>
      { world with
        sessions := world.sessions.set index ⟨after.session,
          before.changes + if sourceChanged before.session after then 1 else 0⟩
        disk := after.disk }

def capture (world : SessionWorld host) (index : Nat) : SessionWorld host :=
  match world.sessions[index]? with
  | none => world
  | some found =>
    { world with
      captures := world.captures ++ [⟨index, found.changes, found.session.sourceSnapshot⟩] }

def step (files : EditorHost) (world : SessionWorld host) :
    WorldAction host → Option (SessionWorld host)
  | .open opening => world.open files opening
  | .call index call => world.call files index call
  | .capture index => some (world.capture index)
  | .elsewhere disk => some { world with disk := disk }

def start (disk : Disk) : SessionWorld host := ⟨[], [], disk, 1⟩

def run (files : EditorHost) (disk : Disk) (actions : List (WorldAction host)) :
    Option (SessionWorld host) :=
  actions.foldlM (step files) (start disk)

end SessionWorld

end KnotEditor.Document
