import KnotEditor.Bytes
import Mathlib.Data.List.Sort
import Mathlib.Data.String.Basic

/-! The file catalog: durable ids for the regular files under one canonical root, kept as one
value of a key-value backend. The file system answers every call anew. -/

namespace KnotEditor

inductive PathComponent
  | rootDir
  | curDir
  | parentDir
  | normal (name : ByteArray)
  deriving DecidableEq

abbrev FilePath := List PathComponent

namespace FilePath

def isAbsolute (path : FilePath) : Bool :=
  path.head? == some .rootDir

def join (base path : FilePath) : FilePath :=
  if isAbsolute path then path else base ++ path.filter (· ≠ .curDir)

def parent (path : FilePath) : Option FilePath :=
  match path.getLast? with
  | none => none
  | some .rootDir => none
  | some _ => some path.dropLast

def fileName (path : FilePath) : Option ByteArray :=
  match path.getLast? with
  | some (.normal name) => some name
  | _ => none

def startsWith (path base : FilePath) : Bool :=
  base.isPrefixOf path

def stripPrefix (path base : FilePath) : Option FilePath :=
  if startsWith path base then some (path.drop base.length) else none

end FilePath

inductive Probe
  | present
  | notFound
  | failed (error : String)

structure FileSystem where
  canonicalize : FilePath → Except String FilePath
  isFile : FilePath → Except String Bool
  isDir : FilePath → Bool
  symlinkMetadata : FilePath → Probe
  currentDir : Except String FilePath

namespace Catalog

def version : UInt16 := 1
def documentIdPrefix : String := "knot:document:"

end Catalog

structure StoredBinding where
  id : String
  relativePath : FilePath
  deriving DecidableEq

structure StoredCatalog where
  version : UInt16
  root : FilePath
  bindings : List StoredBinding
  deriving DecidableEq

/-- What the catalog takes from `serde_json` and `uuid`, and the texts of paths. -/
structure CatalogHost where
  display : FilePath → String
  toVec : StoredCatalog → Except String ByteArray
  fromSlice : ByteArray → Except String StoredCatalog
  parseUuid : String → Except String Nat

def validateDocumentId (host : CatalogHost) (id : String) : Except String Unit :=
  if Catalog.documentIdPrefix.toList.isPrefixOf id.toList then
    let raw := String.ofList (id.toList.drop Catalog.documentIdPrefix.toList.length)
    match host.parseUuid raw with
    | .error error => .error s!"invalid catalog UUID {id}: {error}"
    | .ok version =>
      if version ≠ 4 then .error s!"catalog UUID is not v4: {id}" else .ok ()
  else
    .error s!"file catalog id has wrong prefix: {id}"

def isNormal : PathComponent → Bool
  | .normal _ => true
  | _ => false

def validateRelativePath (host : CatalogHost) (path : FilePath) : Except String Unit :=
  if path.isEmpty then
    .error "catalog binding path is empty"
  else if path.all isNormal then
    .ok ()
  else
    .error (s!"catalog binding path must contain only normal relative components: " ++
      host.display path)

def validateBindings (host : CatalogHost) (ids : List String) (paths : List FilePath) :
    List StoredBinding → Except String Unit
  | [] => .ok ()
  | binding :: rest => do
      validateDocumentId host binding.id
      validateRelativePath host binding.relativePath
      if binding.id ∈ ids then
        .error s!"file catalog repeats document id {binding.id}"
      if binding.relativePath ∈ paths then
        .error s!"file catalog repeats path {host.display binding.relativePath}"
      validateBindings host (binding.id :: ids) (binding.relativePath :: paths) rest

def validateState (host : CatalogHost) (state : StoredCatalog) (root : FilePath) :
    Except String Unit :=
  if state.version ≠ Catalog.version then
    .error s!"unsupported file catalog version {state.version}"
  else if state.root ≠ root then
    .error s!"file catalog is bound to {host.display state.root} rather than {host.display root}"
  else
    validateBindings host [] [] state.bindings

def canonicalRoot (host : CatalogHost) (files : FileSystem) (root : FilePath) :
    Except String FilePath :=
  match files.canonicalize root with
  | .error error => .error s!"could not resolve catalog root {host.display root}: {error}"
  | .ok canonical =>
    if files.isDir canonical then .ok canonical
    else .error s!"catalog root is not a directory: {host.display canonical}"

def absoluteCatalogPath (files : FileSystem) (path : FilePath) : Except String FilePath :=
  if path.isAbsolute then .ok path
  else
    match files.currentDir with
    | .ok current => .ok (FilePath.join current path)
    | .error error => .error s!"could not resolve current directory: {error}"

def canonicalCatalogParent (host : CatalogHost) (files : FileSystem) (absolute : FilePath) :
    Except String FilePath :=
  match FilePath.parent absolute with
  | none => .error s!"catalog path has no parent: {host.display absolute}"
  | some parent =>
    match files.canonicalize parent with
    | .error error =>
      .error s!"could not resolve catalog parent {host.display parent}: {error}"
    | .ok canonical =>
      if files.isDir canonical then .ok canonical
      else .error s!"catalog parent is not a directory: {host.display canonical}"

def resolveCatalogFile (host : CatalogHost) (files : FileSystem) (candidate : FilePath) :
    Except String FilePath :=
  match files.symlinkMetadata candidate with
  | .notFound => .ok candidate
  | .failed error =>
    .error s!"could not inspect catalog path {host.display candidate}: {error}"
  | .present =>
    match files.canonicalize candidate with
    | .ok canonical => .ok canonical
    | .error error =>
      .error s!"could not resolve catalog path {host.display candidate}: {error}"

def canonicalCatalogPath (host : CatalogHost) (files : FileSystem) (path : FilePath) :
    Except String FilePath := do
  let absolute ← absoluteCatalogPath files path
  let parent ← canonicalCatalogParent host files absolute
  match FilePath.fileName absolute with
  | none => .error s!"catalog path has no file name: {host.display absolute}"
  | some name => resolveCatalogFile host files (FilePath.join parent [.normal name])

structure BackendFaults where
  openBackend : Option String := none
  get : Option String := none
  put : Option String := none

/-- `stored` is the value of the catalog's key in the backend file. -/
structure KnotFileCatalog where
  root : FilePath
  state : StoredCatalog
  stored : Option ByteArray
  deriving DecidableEq

def persistState (host : CatalogHost) (state : StoredCatalog) (faults : BackendFaults) :
    Except String ByteArray :=
  match host.toVec state with
  | .error error => .error s!"could not encode file catalog: {error}"
  | .ok bytes =>
    match faults.put with
    | some error => .error error
    | none => .ok bytes

def attemptBackend (fault : Option String) : Except String Unit :=
  match fault with
  | some error => .error error
  | none => .ok ()

namespace KnotFileCatalog

def loadState (host : CatalogHost) (root : FilePath) (stored : Option ByteArray)
    (faults : BackendFaults) : Except String (StoredCatalog × ByteArray) :=
  match stored with
  | some bytes => do
      let state ← (host.fromSlice bytes).mapError fun error => s!"invalid file catalog: {error}"
      validateState host state root
      .ok (state, bytes)
  | none => do
      let state : StoredCatalog := { version := Catalog.version, root, bindings := [] }
      let bytes ← persistState host state faults
      .ok (state, bytes)

def «open» (host : CatalogHost) (files : FileSystem) (rootPath catalogPath : FilePath)
    (stored : Option ByteArray) (faults : BackendFaults) : Except String KnotFileCatalog := do
  let root ← canonicalRoot host files rootPath
  let catalogFile ← canonicalCatalogPath host files catalogPath
  if FilePath.startsWith catalogFile root then
    .error "file catalog path must be outside its configured root"
  attemptBackend faults.openBackend
  attemptBackend faults.get
  let (state, bytes) ← loadState host root stored faults
  .ok { root, state, stored := some bytes }

def relativeFromCanonical (host : CatalogHost) (root path : FilePath) :
    Except String FilePath :=
  match FilePath.stripPrefix path root with
  | none => .error s!"canonical file path is outside catalog root: {host.display path}"
  | some relative => do
      validateRelativePath host relative
      .ok relative

def requireFile (host : CatalogHost) (files : FileSystem) (canonical : FilePath) :
    Except String Unit :=
  match files.isFile canonical with
  | .error error => .error s!"could not inspect {host.display canonical}: {error}"
  | .ok true => .ok ()
  | .ok false => .error s!"catalog target is not a regular file: {host.display canonical}"

def canonicalFileRelative (host : CatalogHost) (files : FileSystem) (catalog : KnotFileCatalog)
    (path : FilePath) : Except String FilePath := do
  let requested := if path.isAbsolute then path else FilePath.join catalog.root path
  let canonical ← (files.canonicalize requested).mapError fun error =>
    s!"could not resolve {host.display requested}: {error}"
  if !FilePath.startsWith canonical catalog.root then
    .error s!"file binding resolves outside catalog root: {host.display canonical}"
  requireFile host files canonical
  relativeFromCanonical host catalog.root canonical

def persist (host : CatalogHost) (catalog : KnotFileCatalog) (next : StoredCatalog)
    (faults : BackendFaults) : Except String KnotFileCatalog := do
  let bytes ← persistState host next faults
  .ok { catalog with state := next, stored := some bytes }

/-- The result of `bind` with the catalog and backend it leaves; `uuid` is the one it draws. -/
def bind (host : CatalogHost) (files : FileSystem) (catalog : KnotFileCatalog)
    (path : FilePath) (uuid : String) (faults : BackendFaults) :
    Except String String × KnotFileCatalog :=
  match canonicalFileRelative host files catalog path with
  | .error error => (.error error, catalog)
  | .ok relativePath =>
    match catalog.state.bindings.find? fun binding =>
        binding.relativePath = relativePath with
    | some binding => (.ok binding.id, catalog)
    | none =>
      let id := Catalog.documentIdPrefix ++ uuid
      let bindings := (catalog.state.bindings ++ [StoredBinding.mk id relativePath]).mergeSort
        fun left right => decide (left.id ≤ right.id)
      match persist host catalog { catalog.state with bindings } faults with
      | .error error => (.error error, catalog)
      | .ok saved => (.ok id, saved)

def inspectOldBinding (host : CatalogHost) (files : FileSystem) (id : String)
    (oldPath : FilePath) : Except String Unit :=
  match files.symlinkMetadata oldPath with
  | .present =>
    .error s!"cannot rebind {id}: old binding still exists at {host.display oldPath}"
  | .notFound => .ok ()
  | .failed error => .error s!"could not inspect old binding {host.display oldPath}: {error}"

/-- `iter_mut().find(..)`: only the first binding with the id moves. -/
def moveBinding (id : String) (relativePath : FilePath) :
    List StoredBinding → List StoredBinding
  | [] => []
  | binding :: rest =>
    if binding.id = id then { binding with relativePath } :: rest
    else binding :: moveBinding id relativePath rest

def rebindPrepared (host : CatalogHost) (files : FileSystem) (catalog : KnotFileCatalog)
    (id : String) (newPath : FilePath) (faults : BackendFaults) :
    Except String KnotFileCatalog :=
  match catalog.state.bindings.find? fun binding => binding.id = id with
  | none => .error s!"file catalog id is unknown: {id}"
  | some current => do
      inspectOldBinding host files id (FilePath.join catalog.root current.relativePath)
      let relativePath ← canonicalFileRelative host files catalog newPath
      if catalog.state.bindings.any fun binding => binding.relativePath = relativePath then
        .error (s!"catalog target is already bound: " ++
          host.display (FilePath.join catalog.root relativePath))
      let bindings := moveBinding id relativePath catalog.state.bindings
      persist host catalog { catalog.state with bindings } faults

def rebind (host : CatalogHost) (files : FileSystem) (catalog : KnotFileCatalog)
    (id : String) (newPath : FilePath) (faults : BackendFaults) :
    Except String Unit × KnotFileCatalog :=
  match rebindPrepared host files catalog id newPath faults with
  | .error error => (.error error, catalog)
  | .ok saved => (.ok (), saved)

end KnotFileCatalog

inductive CatalogCall
  | bind (files : FileSystem) (path : FilePath) (uuid : String) (faults : BackendFaults)
  | rebind (files : FileSystem) (id : String) (newPath : FilePath) (faults : BackendFaults)

def KnotFileCatalog.perform (host : CatalogHost) (catalog : KnotFileCatalog) :
    CatalogCall → KnotFileCatalog
  | .bind files path uuid faults => (catalog.bind host files path uuid faults).2
  | .rebind files id newPath faults => (catalog.rebind host files id newPath faults).2

end KnotEditor
