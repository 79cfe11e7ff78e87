import KnotEditor.Sync.RelationFold
import Mathlib.Data.List.Sort
import Mathlib.Data.List.Dedup

/-! The document fold of `projection_with_cipher_and_strictness` and the check of resolutions. -/

namespace KnotEditor

/-- `KNOT_CAUSAL_LIMITS.max_parents`. -/
def maxParents : Nat := 64

structure KnotDocumentVersion where
  writer : Bytes32
  operation : Bytes32
  /-- `none` is that writer's current deletion. -/
  document : Option VaultDocument
  deriving DecidableEq

abbrev WriterVersions := HashMap KnotDocumentVersion

abbrev CurrentVersions := Std.ExtTreeMap String WriterVersions

structure VersionRecord where
  operation : Bytes32
  id : String
  document : Option VaultDocument
  deriving DecidableEq

def validateTarget (causal : CausalIndex) (eventDocuments : HashMap String) (resolution : Bytes32)
    (id : String) (target : Bytes32) : Except KnotSyncError Unit :=
  match eventDocuments[target]? with
  | none => .error (.invalidResolution "resolution names an unavailable document version")
  | some targetId =>
    if targetId != id then
      .error (.invalidResolution "resolution names a version of another document")
    else if !causal.happensBefore target resolution then
      .error (.invalidResolution "resolution names a version outside its causal history")
    else .ok ()

def validateTargets (causal : CausalIndex) (eventDocuments : HashMap String) (resolution : Bytes32)
    (id : String) : List Bytes32 → Except KnotSyncError Unit
  | [] => .ok ()
  | target :: targets => do
      validateTarget causal eventDocuments resolution id target
      validateTargets causal eventDocuments resolution id targets

def validateResolution (causal : CausalIndex) (eventDocuments : HashMap String)
    (resolution : Bytes32) (id : String) (supersedes : List Bytes32)
    (document : Option VaultDocument) : Except KnotSyncError (List Bytes32) := do
  if supersedes.isEmpty then
    .error (.invalidResolution "resolution names no document versions")
  if maxParents < supersedes.length then
    .error (.invalidResolution
      s!"resolution names {supersedes.length} versions; maximum is {maxParents}")
  if document.any fun document => document.id != id then
    .error (.invalidResolution "chosen document id does not match the resolution")
  let targets := (supersedes.insertionSort (· ≤ ·)).dedup
  if targets.length != supersedes.length then
    .error (.invalidResolution "resolution repeats a document version")
  validateTargets causal eventDocuments resolution id targets
  return targets

structure DocumentReplay where
  current : CurrentVersions := ∅
  eventDocuments : HashMap String := ∅
  versionHistory : List VersionRecord := []

namespace DocumentReplay

variable (replay : DocumentReplay)

def retain (id : String) (keep : KnotDocumentVersion → Bool) : DocumentReplay :=
  { replay with current := replay.current.modify id fun versions =>
      versions.filter fun _ version => keep version }

def record (operation : Operation) (id : String) (document : Option VaultDocument) :
    DocumentReplay where
  current := replay.current.insert id ((replay.current.getD id ∅).insert operation.author
    { writer := operation.author, operation := operation.hash, document })
  eventDocuments := replay.eventDocuments.insert operation.hash id
  versionHistory := replay.versionHistory ++ [{ operation := operation.hash, id, document }]

/-- A `Put` or `Delete` replaces every version it causally observes. -/
def replaceObserved (causal : CausalIndex) (operation : Operation) (id : String)
    (document : Option VaultDocument) : DocumentReplay :=
  (replay.retain id fun version =>
    !causal.happensBefore version.operation operation.hash).record operation id document

def step (events : Operation → Option KnotSyncEvent) (causal : CausalIndex)
    (operation : Operation) : Except KnotSyncError DocumentReplay :=
  match events operation with
  | some (.put document) =>
    .ok (replay.replaceObserved causal operation document.id (some document))
  | some (.delete id) => .ok (replay.replaceObserved causal operation id none)
  | some (.resolve id supersedes document) => do
      let targets ← validateResolution causal replay.eventDocuments operation.hash id supersedes
        document
      return (replay.retain id fun version =>
        !targets.contains version.operation).record operation id document
  | none => .ok replay
  -- None of the others produces a document version.
  | some _ => .ok replay

end DocumentReplay

def foldDocuments (order : List Operation) (events : Operation → Option KnotSyncEvent)
    (causal : CausalIndex) : Except KnotSyncError DocumentReplay :=
  order.foldlM (fun replay operation => replay.step events causal operation) {}

end KnotEditor
