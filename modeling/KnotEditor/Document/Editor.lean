import KnotEditor.DocumentFormat
import KnotEditor.FileCatalog
import KnotEditor.Library.FileTree

/-! The source editor of one document and the file it saves to, on a Unix file system. Each file
operation of a call may fail on its own; the file system is otherwise still while a call runs. -/

namespace KnotEditor.Document

structure StoredFile where
  bytes : ByteArray
  readOnly : Bool

/-- A file's number is its identity, which an open handle keeps from being used again. -/
abbrev Disk := FileTree FilePath StoredFile

inductive IoErrorKind
  | notFound
  | alreadyExists
  | other
  deriving DecidableEq

structure IoError where
  kind : IoErrorKind
  text : String
  deriving DecidableEq

namespace IoError

def missing : IoError := ⟨.notFound, "No such file or directory (os error 2)"⟩

def taken : IoError := ⟨.alreadyExists, "File exists (os error 17)"⟩

def noParent : IoError := ⟨.other, "document target must have a parent directory"⟩

def unreserved : IoError := ⟨.alreadyExists, "could not reserve a document temporary path"⟩

end IoError

structure EditorHost where
  display : FilePath → String
  toStringLossy : FilePath → String
  utf8Error : ByteArray → String
  processId : Nat

structure ObserveFaults where
  opened : Option IoError := none
  read : Option IoError := none
  inspected : Option IoError := none

structure EditorFaults where
  metadata : Option IoError := none
  inspected : Option IoError := none
  read : Option IoError := none
  create : Nat → Option IoError := fun _ => none
  write : Option (IoError × ByteArray) := none
  sync : Option IoError := none
  targetMetadata : Option IoError := none
  permissions : Option IoError := none
  rename : Option IoError := none
  link : Option IoError := none
  remove : Option IoError := none
  ownCanonical : Option IoError := none
  targetCanonical : Option IoError := none
  resolved : Option IoError := none
  address : Option IoError := none
  observed : ObserveFaults := {}

def locate (disk : Disk) (path : FilePath) (fault : Option IoError) :
    Except IoError (FilePath × Nat) :=
  match fault, disk.find path with
  | some error, _ => .error error
  | none, none => .error .missing
  | none, some found => .ok found

def canonicalize (disk : Disk) (path : FilePath) (fault : Option IoError) :
    Except IoError FilePath :=
  (locate disk path fault).map Prod.fst

structure FileBaseline where
  bytes : ByteArray
  handle : Nat
  deriving DecidableEq

namespace FileBaseline

def observe (host : EditorHost) (disk : Disk) (path : FilePath) (faults : ObserveFaults) :
    Except String FileBaseline :=
  match locate disk path faults.opened, faults.read, faults.inspected with
  | .error error, _, _ => .error s!"could not read {host.display path}: {error.text}"
  | .ok _, some error, _ => .error s!"could not read {host.display path}: {error.text}"
  | .ok _, none, some error => .error s!"could not inspect {host.display path}: {error.text}"
  | .ok (_, inode), none, none => .ok ⟨(disk.file inode).bytes, inode⟩

def stillMatches (host : EditorHost) (disk : Disk) (baseline : FileBaseline) (path : FilePath)
    (faults : EditorFaults) : Except String Bool :=
  match locate disk path faults.inspected, locate disk path faults.read with
  | .error error, _ => .error s!"could not inspect {host.display path}: {error.text}"
  | .ok _, .error error => .error s!"could not read {host.display path}: {error.text}"
  | .ok (_, inode), .ok (_, again) =>
    .ok (decide (inode = baseline.handle) && decide ((disk.file again).bytes = baseline.bytes))

end FileBaseline

inductive SaveOutcome
  | unchanged
  | written
  deriving DecidableEq

inductive KnotEditorSaveError
  | externalChange
  | failed (message : String)
  deriving DecidableEq

def temporaryPath (host : EditorHost) (parent : FilePath) (nonce : Nat) : FilePath :=
  parent.join [.normal s!".knot-write-{host.processId}-{nonce}.tmp".toUTF8]

def reserveTemporary (host : EditorHost) (disk : Disk) (parent : FilePath)
    (create : Nat → Option IoError) : List Nat → Except IoError (FilePath × Nat) × Disk
  | [] => (.error .unreserved, disk)
  | nonce :: rest =>
    let candidate := temporaryPath host parent nonce
    match create nonce with
    | some error =>
      if error.kind = .alreadyExists then reserveTemporary host disk parent create rest
      else (.error error, disk)
    | none =>
      if (disk.entry (disk.place candidate)).isSome then
        reserveTemporary host disk parent create rest
      else (.ok (candidate, disk.next), disk.create candidate ⟨.empty, false⟩)

def createSiblingTemporary (host : EditorHost) (disk : Disk) (path : FilePath)
    (create : Nat → Option IoError) : Except IoError (FilePath × Nat) × Disk :=
  match path.parent with
  | none => (.error .noParent, disk)
  | some parent => reserveTemporary host disk parent create (List.range 128)

/-- `remove_file` whose result is not looked at. -/
def discard (disk : Disk) (temporary : FilePath) (fault : Option IoError) : Disk :=
  match fault with
  | some _ => disk
  | none => disk.remove temporary

def fillTemporary (disk : Disk) (inode : Nat) (contents : ByteArray) (faults : EditorFaults) :
    Except IoError Unit × Disk :=
  match faults.write, faults.sync with
  | some (error, piece), _ => (.error error, disk.write inode ⟨piece, false⟩)
  | none, some error => (.error error, disk.write inode ⟨contents, false⟩)
  | none, none => (.ok (), disk.write inode ⟨contents, false⟩)

def copyPermissions (disk : Disk) (path : FilePath) (inode : Nat) (faults : EditorFaults) :
    Except IoError Unit × Disk :=
  match locate disk path faults.targetMetadata, faults.permissions with
  | .error _, _ => (.ok (), disk)
  | .ok _, some error => (.error error, disk)
  | .ok (_, target), none =>
    (.ok (), disk.write inode ⟨(disk.file inode).bytes, (disk.file target).readOnly⟩)

def replaceBytesAtomically (host : EditorHost) (disk : Disk) (path : FilePath)
    (contents : ByteArray) (faults : EditorFaults) : Except IoError Unit × Disk :=
  match createSiblingTemporary host disk path faults.create with
  | (.error error, disk) => (.error error, disk)
  | (.ok (temporary, inode), created) =>
    match fillTemporary created inode contents faults with
    | (.error error, filled) => (.error error, discard filled temporary faults.remove)
    | (.ok (), filled) =>
      match copyPermissions filled path inode faults, faults.rename with
      | (.error error, copied), _ => (.error error, discard copied temporary faults.remove)
      | (.ok (), copied), some error =>
        (.error error, discard copied temporary faults.remove)
      | (.ok (), copied), none => (.ok (), copied.rename temporary path)

def createBytesNew (host : EditorHost) (disk : Disk) (path : FilePath) (contents : ByteArray)
    (faults : EditorFaults) : Except String Unit × Disk :=
  match createSiblingTemporary host disk path faults.create with
  | (.error error, disk) =>
    (.error s!"could not prepare {host.display path}: {error.text}", disk)
  | (.ok (temporary, inode), created) =>
    match fillTemporary created inode contents faults with
    | (.error error, filled) =>
      (.error s!"could not create {host.display path}: {error.text}",
        discard filled temporary faults.remove)
    | (.ok (), filled) =>
      match faults.link with
      | some error =>
        (.error s!"could not create {host.display path}: {error.text}",
          discard filled temporary faults.remove)
      | none =>
        if (filled.entry (filled.place path)).isSome then
          (.error s!"could not create {host.display path}: {IoError.taken.text}",
            discard filled temporary faults.remove)
        else (.ok (), discard (filled.hardLink temporary path) temporary faults.remove)

def writeIfDistinct (host : EditorHost) (disk : Disk) (path : FilePath) (before after : ByteArray)
    (faults : EditorFaults) : Except String SaveOutcome × Disk :=
  if before = after then (.ok .unchanged, disk)
  else
    match replaceBytesAtomically host disk path after faults with
    | (.error error, replaced) =>
      (.error s!"could not write {host.display path}: {error.text}", replaced)
    | (.ok (), replaced) => (.ok .written, replaced)

def fileAddress (host : EditorHost) (disk : Disk) (path : FilePath) (fault : Option IoError) :
    Except String String :=
  match canonicalize disk path fault with
  | .error error => .error s!"could not resolve {host.display path}: {error.text}"
  | .ok resolved => .ok s!"file://{host.toStringLossy resolved}"

def extension (path : FilePath) : Option (List UInt8) :=
  match path.fileName with
  | none => none
  | some name =>
    let bytes := name.data.toList
    let last := (bytes.reverse.takeWhile (· ≠ 46)).reverse
    if last.length + 1 < bytes.length then some last else none

def lowerAscii (byte : UInt8) : UInt8 :=
  if 65 ≤ byte ∧ byte ≤ 90 then byte + 32 else byte

/-- `DocumentFormat::from_path`: the extension in ASCII lower case. -/
def formatOfPath (path : FilePath) : Option DocumentFormat :=
  match extension path with
  | none => none
  | some letters =>
    let named (text : String) := decide (letters.map lowerAscii = text.toUTF8.data.toList)
    if named "knot" then some .knot
    else if named "md" || named "markdown" then some .markdown
    else if named "djot" then some .djot
    else if named "scroll" then some .scroll
    else if named "gmi" || named "gemini" then some .gemtext
    else if named "mu" || named "micron" then some .micron
    else if named "json" then some .json
    else none

def editable : DocumentFormat → Bool
  | .knot | .djot | .scroll | .gemtext | .micron => true
  | .markdown | .json => false

def nativeSource : DocumentFormat → Bool
  | .scroll | .gemtext | .micron => true
  | .knot | .djot | .markdown | .json => false

def decodeSource (host : EditorHost) (path : FilePath) (bytes : ByteArray) : Except String String :=
  match String.fromUTF8? bytes with
  | none => .error s!"{host.display path} is not UTF-8: {host.utf8Error bytes}"
  | some source => .ok source

structure SharedKnotEditor where
  source : String
  accepted : String
  deriving DecidableEq

namespace SharedKnotEditor

def scratch (source : String) : SharedKnotEditor := ⟨source, source⟩

def isDirty (editor : SharedKnotEditor) : Bool := decide (editor.source ≠ editor.accepted)

def acceptSavedSource (editor : SharedKnotEditor) (source : String) : SharedKnotEditor :=
  { editor with accepted := source }

end SharedKnotEditor

structure Editor where
  path : Option FilePath
  address : String
  format : DocumentFormat
  editor : SharedKnotEditor
  baseline : Option FileBaseline
  deriving DecidableEq

namespace Editor

def isDirty (editor : Editor) : Bool := editor.editor.isDirty

def scratchWithFormat (address source : String) (format : DocumentFormat) : Editor :=
  ⟨none, address, format, .scratch source, none⟩

def «open» (host : EditorHost) (disk : Disk) (requested : FilePath) (faults : EditorFaults) :
    Except String Editor :=
  match (formatOfPath requested).filter editable with
  | none =>
    .error (s!"KnotEditor requires a .djot, .knot, .scroll, .gmi, .gemini, or .mu file: " ++
      host.display requested)
  | some format => do
      let path ← (canonicalize disk requested faults.resolved).mapError fun error =>
        s!"could not resolve {host.display requested}: {error.text}"
      let baseline ← FileBaseline.observe host disk path faults.observed
      let source ← decodeSource host path baseline.bytes
      let address ← fileAddress host disk path faults.address
      .ok ⟨some path, address, format, .scratch source, some baseline⟩

def edit (editor : Editor) (source : String) : Editor :=
  { editor with editor := { editor.editor with source := source } }

/-- What stands between `save_guarded` and the file: the path and the baseline it still matches. -/
def checkSave (host : EditorHost) (disk : Disk) (editor : Editor) (faults : EditorFaults) :
    Except KnotEditorSaveError (Option (FilePath × FileBaseline)) :=
  match editor.path with
  | none => .error (.failed "scratch Knot editor has no save path")
  | some path =>
    if !editor.isDirty then .ok none
    else
      match editor.baseline with
      | none => .error (.failed "file document has no disk baseline")
      | some baseline =>
        match locate disk path faults.metadata with
        | .error error =>
          if error.kind = .notFound then .error .externalChange
          else .error (.failed s!"could not inspect {host.display path}: {error.text}")
        | .ok (_, inode) =>
          if (disk.file inode).readOnly then
            .error (.failed "document target is read-only")
          else
            match baseline.stillMatches host disk path faults with
            | .error error => .error (.failed error)
            | .ok false => .error .externalChange
            | .ok true => .ok (some (path, baseline))

def saveGuarded (host : EditorHost) (disk : Disk) (editor : Editor) (faults : EditorFaults) :
    Except KnotEditorSaveError SaveOutcome × Editor × Disk :=
  match editor.checkSave host disk faults with
  | .error error => (.error error, editor, disk)
  | .ok none => (.ok .unchanged, editor, disk)
  | .ok (some (path, baseline)) =>
    let source := editor.editor.source
    match writeIfDistinct host disk path baseline.bytes source.toUTF8 faults with
    | (.error error, disk) => (.error (.failed error), editor, disk)
    | (.ok outcome, disk) =>
      match FileBaseline.observe host disk path faults.observed with
      | .error error => (.error (.failed error), editor, disk)
      | .ok updated =>
        if updated.bytes ≠ source.toUTF8 then (.error .externalChange, editor, disk)
        else
          (.ok outcome,
            { editor with
              editor := editor.editor.acceptSavedSource source
              baseline := some updated }, disk)

def isCurrentPath (disk : Disk) (editor : Editor) (target : FilePath) (faults : EditorFaults) :
    Bool :=
  match editor.path with
  | none => false
  | some path =>
    decide (path = target) ||
      match canonicalize disk path faults.ownCanonical,
          canonicalize disk target faults.targetCanonical with
      | .ok own, .ok other => decide (own = other)
      | _, _ => false

def checkTarget (host : EditorHost) (editor : Editor) (target : FilePath) :
    Except KnotEditorSaveError DocumentFormat :=
  match (formatOfPath target).filter editable with
  | none =>
    .error (.failed (s!"KnotEditor requires a .djot, .knot, .scroll, .gmi, .gemini, or .mu " ++
      s!"save target: {host.display target}"))
  | some format =>
    if (nativeSource editor.format || nativeSource format) && decide (editor.format ≠ format) then
      .error (.failed "Save As cannot convert native protocol source to another format")
    else .ok format

def adopt (host : EditorHost) (disk : Disk) (editor : Editor) (target : FilePath)
    (format : DocumentFormat) (faults : EditorFaults) : Except KnotEditorSaveError Editor :=
  let source := editor.editor.source
  match canonicalize disk target faults.resolved with
  | .error error =>
    .error (.failed s!"could not resolve saved target {host.display target}: {error.text}")
  | .ok resolved =>
    match fileAddress host disk resolved faults.address with
    | .error error => .error (.failed error)
    | .ok address =>
      match FileBaseline.observe host disk resolved faults.observed with
      | .error error => .error (.failed error)
      | .ok baseline =>
        if baseline.bytes ≠ source.toUTF8 then .error .externalChange
        else .ok ⟨some resolved, address, format,
          SharedKnotEditor.acceptSavedSource ⟨source, ""⟩ source, some baseline⟩

def saveAs (host : EditorHost) (disk : Disk) (editor : Editor) (target : FilePath)
    (faults : EditorFaults) : Except KnotEditorSaveError SaveOutcome × Editor × Disk :=
  match editor.checkTarget host target with
  | .error error => (.error error, editor, disk)
  | .ok format =>
    if editor.isCurrentPath disk target faults then editor.saveGuarded host disk faults
    else
      match createBytesNew host disk target editor.editor.source.toUTF8 faults with
      | (.error error, disk) => (.error (.failed error), editor, disk)
      | (.ok (), disk) =>
        match editor.adopt host disk target format faults with
        | .error error => (.error error, editor, disk)
        | .ok adopted => (.ok .written, adopted, disk)

def reload (host : EditorHost) (disk : Disk) (editor : Editor) (faults : EditorFaults) :
    Except String Unit × Editor :=
  match editor.path with
  | none => (.error "scratch Knot editor has no reload path", editor)
  | some path =>
    match FileBaseline.observe host disk path faults.observed with
    | .error error => (.error error, editor)
    | .ok baseline =>
      match decodeSource host path baseline.bytes with
      | .error error => (.error error, editor)
      | .ok source =>
        match fileAddress host disk path faults.address with
        | .error error => (.error error, editor)
        | .ok address =>
          (.ok (), { editor with
            address := address
            editor := .scratch source
            baseline := some baseline })

end Editor

structure EditorWorld where
  editor : Editor
  disk : Disk

inductive EditorCall
  | edit (source : String)
  | saveGuarded (faults : EditorFaults)
  | saveAs (target : FilePath) (faults : EditorFaults)
  | reload (faults : EditorFaults)
  | elsewhere (disk : Disk)

def EditorWorld.perform (host : EditorHost) (world : EditorWorld) : EditorCall → EditorWorld
  | .edit source => { world with editor := world.editor.edit source }
  | .saveGuarded faults =>
    let saved := world.editor.saveGuarded host world.disk faults
    ⟨saved.2.1, saved.2.2⟩
  | .saveAs target faults =>
    let saved := world.editor.saveAs host world.disk target faults
    ⟨saved.2.1, saved.2.2⟩
  | .reload faults => ⟨(world.editor.reload host world.disk faults).2, world.disk⟩
  | .elsewhere disk => { world with disk := disk }

end KnotEditor.Document
