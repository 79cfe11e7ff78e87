import KnotEditor.Bytes
import KnotEditor.Library.LengthPrefixed

/-! Closed-store migration of checkpoint storage: the active file is opened as it is, or replaced by
a staged copy with the managed entries rewritten. Each step may fail on its own. -/

namespace KnotEditor

abbrev MigrationEntries := Std.ExtTreeMap String ByteArray

structure MigrationScope where
  managedPrefixes : List String
  managedKeys : List String

/-- `none` among the replacements removes an explicitly managed key. -/
inductive MigrationDecision
  | current
  | rewrite (replacements : Std.ExtTreeMap String (Option ByteArray))

inductive MigrationError
  | rejected (message : String)
  | preparation (message : String)
  | store (error : String)
  | io (step source : String) (replacementCommitted : Bool)
  | verification
  deriving DecidableEq

def MigrationError.replacementCommitted : MigrationError → Bool
  | .io _ _ committed => committed
  | .rejected _ | .preparation _ | .store _ | .verification => false

structure MigrationHost where
  Hash : Type
  blake3 : List UInt8 → Hash

structure MigrationReceipt (host : MigrationHost) where
  rewritten : Bool
  sourceLogicalHash : host.Hash
  destinationLogicalHash : host.Hash
  sourceKeyCount : Nat
  destinationKeyCount : Nat
  preservedKeyCount : Nat
  directorySynced : Bool

structure ClosedStore (host : MigrationHost) where
  backend : MigrationEntries
  receipt : MigrationReceipt host

structure SourceMetadata where
  isFile : Bool
  links : Nat
  device : Nat
  inode : Nat
  deriving DecidableEq

structure MigrationFaults where
  inspect : Nat → Except String SourceMetadata
  openSource : Option String := none
  listSource : Option String := none
  getSource : String → Option String := fun _ => none
  beforeStage : Option String := none
  createStage : Option String := none
  openStage : Option String := none
  put : String → Option String := fun _ => none
  copyValue : String → ByteArray → ByteArray := fun _ value => value
  afterCopyEntry : Nat → Option String := fun _ => none
  beforeVerify : Option String := none
  listStage : Option String := none
  getStage : String → Option String := fun _ => none
  syncStage : Option String := none
  beforeReplace : Option String := none
  rename : Option String := none
  afterReplace : Option String := none
  syncDirectory : Option String := none

structure MigrationFiles where
  active : MigrationEntries
  stage : Option MigrationEntries := none

namespace Migration

def storeStep (fault : Option String) : Except MigrationError Unit :=
  match fault with
  | some error => .error (.store error)
  | none => .ok ()

def ioStep (step : String) (committed : Bool) (fault : Option String) :
    Except MigrationError Unit :=
  match fault with
  | some error => .error (.io step error committed)
  | none => .ok ()

def startsWith (key lead : String) : Bool := lead.toList.isPrefixOf key.toList

def managed (scope : MigrationScope) (key : String) : Bool :=
  scope.managedPrefixes.any fun lead => startsWith key lead

def validateScope (scope : MigrationScope) : Except MigrationError Unit :=
  if scope.managedPrefixes.isEmpty || scope.managedPrefixes.any String.isEmpty ||
      scope.managedKeys.any fun key => !managed scope key then
    .error (.rejected "invalid protected namespace scope")
  else .ok ()

def validateKnownKeys (entries : MigrationEntries) (scope : MigrationScope) :
    Except MigrationError Unit :=
  if entries.keys.any fun key => managed scope key && !decide (key ∈ scope.managedKeys) then
    .error (.rejected "database contains a protected key outside this custody scope")
  else .ok ()

def sourceMetadata (inspected : Except String SourceMetadata) :
    Except MigrationError SourceMetadata :=
  match inspected with
  | .error error => .error (.io "inspect source" error false)
  | .ok metadata =>
    if !metadata.isFile then
      .error (.rejected "source must be an existing regular file, without a symbolic link")
    else if metadata.links ≠ 1 then
      .error (.rejected "source must have exactly one hard link")
    else .ok metadata

def verifySourceIdentity (inspected : Except String SourceMetadata) (expected : SourceMetadata) :
    Except MigrationError Unit := do
  let actual ← sourceMetadata inspected
  if actual.device ≠ expected.device ∨ actual.inode ≠ expected.inode then
    .error (.rejected "source identity changed during migration")
  else .ok ()

def readEntry (stored : MigrationEntries) (get : String → Option String)
    (table : MigrationEntries) (key : String) : Except MigrationError MigrationEntries :=
  match get key, stored[key]? with
  | some error, _ => .error (.store error)
  | none, none => .error (.rejected "a source key disappeared during the exclusive read")
  | none, some value =>
    if table.contains key then .error (.rejected "source listing contained duplicate keys")
    else .ok (table.insert key value)

def readEntries (stored : MigrationEntries) (list : Option String)
    (get : String → Option String) : Except MigrationError MigrationEntries := do
  storeStep list
  stored.keys.foldlM (readEntry stored get) ∅

def streamTag : List UInt8 := "knot/checkpoint-storage/logical-map/v1\x00".toUTF8.data.toList

def keyBytes (entry : String × ByteArray) : List UInt8 := entry.1.toUTF8.data.toList

def valueBytes (entry : String × ByteArray) : List UInt8 := entry.2.data.toList

def logicalStream (entries : MigrationEntries) : List UInt8 :=
  streamTag ++ entries.toList.flatMap fun entry =>
    LengthPrefixed.framed (keyBytes entry) ++ LengthPrefixed.framed (valueBytes entry)

def logicalHash (host : MigrationHost) (entries : MigrationEntries) : host.Hash :=
  host.blake3 (logicalStream entries)

def replaceEntry (entries : MigrationEntries) (replacement : String × Option ByteArray) :
    MigrationEntries :=
  match replacement.2 with
  | some value => entries.insert replacement.1 value
  | none => entries.erase replacement.1

def applied (source : MigrationEntries)
    (replacements : Std.ExtTreeMap String (Option ByteArray)) : MigrationEntries :=
  replacements.toList.foldl replaceEntry source

structure RewritePlan where
  expected : MigrationEntries
  preserved : Nat

def planRewrite (scope : MigrationScope) (source : MigrationEntries)
    (replacements : Std.ExtTreeMap String (Option ByteArray)) :
    Except MigrationError RewritePlan :=
  if replacements.keys.any fun key => !decide (key ∈ scope.managedKeys) then
    .error (.rejected "replacement names a key outside this custody scope")
  else if source.keys.any fun key =>
      decide (key ∈ scope.managedKeys) && !replacements.contains key then
    .error (.rejected "replacement omitted an existing protected key")
  else
    let expected := applied source replacements
    match validateKnownKeys expected scope with
    | .error error => .error error
    | .ok () =>
      .ok ⟨expected, (source.keys.filter fun key => !replacements.contains key).length⟩

def prepareSource (scope : MigrationScope)
    (prepare : MigrationEntries → Except String MigrationDecision) (faults : MigrationFaults)
    (active : MigrationEntries) :
    Except MigrationError (SourceMetadata × MigrationEntries × MigrationDecision) := do
  validateScope scope
  let identity ← sourceMetadata (faults.inspect 0)
  storeStep faults.openSource
  verifySourceIdentity (faults.inspect 1) identity
  let source ← readEntries active faults.listSource faults.getSource
  validateKnownKeys source scope
  let decision ← (prepare source).mapError .preparation
  .ok (identity, source, decision)

def copyEntry (faults : MigrationFaults) (state : MigrationEntries × Nat)
    (entry : String × ByteArray) : Except MigrationError (MigrationEntries × Nat) := do
  storeStep (faults.put entry.1)
  ioStep "copy stage" false (faults.afterCopyEntry (state.2 + 1))
  .ok (state.1.insert entry.1 (faults.copyValue entry.1 entry.2), state.2 + 1)

def fillStage (faults : MigrationFaults) (identity : SourceMetadata)
    (expected : MigrationEntries) : Except MigrationError MigrationEntries := do
  storeStep faults.openStage
  let copied ← expected.toList.foldlM (copyEntry faults) (∅, 0)
  ioStep "verify stage" false faults.beforeVerify
  let read ← readEntries copied.1 faults.listStage faults.getStage
  if read.toList ≠ expected.toList then .error .verification
  ioStep "sync stage" false faults.syncStage
  ioStep "replace source" false faults.beforeReplace
  verifySourceIdentity (faults.inspect 2) identity
  ioStep "replace source" false faults.rename
  .ok copied.1

def dropStage (files : MigrationFiles) : MigrationFiles := { files with stage := none }

def rewriteSource (host : MigrationHost) (scope : MigrationScope) (faults : MigrationFaults)
    (identity : SourceMetadata) (source : MigrationEntries)
    (replacements : Std.ExtTreeMap String (Option ByteArray)) (files : MigrationFiles) :
    Except MigrationError (ClosedStore host) × MigrationFiles :=
  match planRewrite scope source replacements with
  | .error error => (.error error, files)
  | .ok plan =>
    match ioStep "before stage" false faults.beforeStage,
        ioStep "create stage" false faults.createStage with
    | .error error, _ => (.error error, files)
    | .ok (), .error error => (.error error, files)
    | .ok (), .ok () =>
      let staging := { files with stage := some ∅ }
      match fillStage faults identity plan.expected with
      | .error error => (.error error, dropStage staging)
      | .ok staged =>
        let replaced : MigrationFiles := ⟨staged, none⟩
        match ioStep "sync directory" true faults.afterReplace,
            ioStep "sync directory" true faults.syncDirectory with
        | .error error, _ => (.error error, replaced)
        | .ok (), .error error => (.error error, replaced)
        | .ok (), .ok () =>
          (.ok ⟨staged, {
            rewritten := true
            sourceLogicalHash := logicalHash host source
            destinationLogicalHash := logicalHash host plan.expected
            sourceKeyCount := source.size
            destinationKeyCount := plan.expected.size
            preservedKeyCount := plan.preserved
            directorySynced := true }⟩, replaced)

def openOrRewrite (host : MigrationHost) (scope : MigrationScope)
    (prepare : MigrationEntries → Except String MigrationDecision) (faults : MigrationFaults)
    (files : MigrationFiles) : Except MigrationError (ClosedStore host) × MigrationFiles :=
  match prepareSource scope prepare faults files.active with
  | .error error => (.error error, files)
  | .ok (identity, source, .current) =>
    match verifySourceIdentity (faults.inspect 2) identity with
    | .error error => (.error error, files)
    | .ok () =>
      (.ok ⟨files.active, {
        rewritten := false
        sourceLogicalHash := logicalHash host source
        destinationLogicalHash := logicalHash host source
        sourceKeyCount := source.size
        destinationKeyCount := source.size
        preservedKeyCount := source.size
        directorySynced := false }⟩, files)
  | .ok (identity, source, .rewrite replacements) =>
    rewriteSource host scope faults identity source replacements files

end Migration

end KnotEditor
