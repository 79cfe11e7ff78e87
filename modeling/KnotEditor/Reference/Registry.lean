import KnotEditor.Library.KeyedCollection
import KnotEditor.Reference.Pack

/-! The reference registry: a file that lists sources, immutable pack files beside it named by
their hashes, and one handle that keeps both in memory. -/

namespace KnotEditor.Reference

instance : Ord SourceKey := ⟨compareLex (compareOn SourceKey.source) (compareOn SourceKey.version)⟩

instance : Std.TransOrd SourceKey :=
  inferInstanceAs (Std.TransCmp
    (compareLex (compareOn SourceKey.source) (compareOn SourceKey.version)))

instance : Std.LawfulEqOrd SourceKey where
  compare_self := Std.ReflCmp.compare_self
  eq_of_compare := by
    intro first second same
    rcases first with ⟨source, version⟩
    rcases second with ⟨otherSource, otherVersion⟩
    have both : (compare source otherSource).then (compare version otherVersion) = .eq := same
    rw [Ordering.then_eq_eq] at both
    rw [Std.LawfulEqOrd.eq_of_compare both.1, Std.LawfulEqOrd.eq_of_compare both.2]

structure StoredSource where
  manifest : SourceManifest
  enabled : Bool
  pack : Option String
  deriving DecidableEq

structure SourceStatus where
  manifest : SourceManifest
  installed : Bool
  enabled : Bool
  deriving DecidableEq

def StoredSource.status (source : StoredSource) : SourceStatus :=
  ⟨source.manifest, source.pack.isSome, source.enabled⟩

structure RegistryFile where
  schemaVersion : Nat
  sources : List StoredSource
  deriving DecidableEq

/-- What the registry takes from `serde_json`, beside the packs. -/
structure RegistryHost extends PackHost where
  registryJson : RegistryFile → Except String (List UInt8)
  parseRegistry : List UInt8 → Except String RegistryFile

inductive Place
  | absent
  | directory
  | other
  deriving DecidableEq

inductive FileNode
  | file (bytes : List UInt8)
  | other
  deriving DecidableEq

structure RegistryDirectory where
  root : Place := .absent
  packsDirectory : Place := .absent
  registry : Option FileNode := none
  packs : String → Option FileNode := fun _ => none

inductive FileCall
  | rootMetadata
  | createRoot
  | canonicalize
  | packsMetadata
  | createPacks
  | lockFile
  | tryLock
  | registryMetadata
  | readRegistry
  | packMetadata (name : String)
  | readPack (name : String)
  | writeTemporary
  | hardLink
  | syncPacks
  | writeRegistry
  | rename
  | syncRoot
  deriving DecidableEq

abbrev Faults := FileCall → Option String

def attempt (faults : Faults) (call : FileCall) : Except ReferenceError Unit :=
  match faults call with
  | some error => .error (.io error)
  | none => .ok ()

structure SourceRegistry where
  limits : Limits
  sources : Std.ExtTreeMap SourceKey StoredSource := ∅
  packs : Std.ExtTreeMap SourceKey ValidatedPack := ∅
  installedBytes : Nat := 0
  commitUncertain : Bool := false

def packName (host : RegistryHost) (bytes : List UInt8) : String := host.blake3Hex bytes ++ ".json"

def validatePackName (value : String) : Except ReferenceError Unit :=
  let suffix := ".json".toList
  if suffix.isSuffixOf value.toList then
    validateDigest (String.ofList (value.toList.take (value.toList.length - suffix.length)))
  else .error (.invalid "invalid pack filename")

def notRegular : ReferenceError := .invalid "registry data is not a regular file"

def readBounded (faults : Faults) (metadata read : FileCall) (node : FileNode) (max : Nat) :
    Except ReferenceError (List UInt8) := do
  attempt faults metadata
  match node with
  | .other => .error notRegular
  | .file bytes =>
    if max < bytes.length then .error (.limit "file bytes")
    attempt faults read
    return bytes

def packSize (faults : Faults) (directory : RegistryDirectory) (name : String) :
    Except ReferenceError Nat := do
  attempt faults (.packMetadata name)
  match directory.packs name with
  | none => .error (.io "not found")
  | some .other => .error notRegular
  | some (.file bytes) => .ok bytes.length

def readPack (faults : Faults) (directory : RegistryDirectory) (name : String) (max : Nat) :
    Except ReferenceError (List UInt8) :=
  match directory.packs name with
  | none => .error (.io "not found")
  | some node => readBounded faults (.packMetadata name) (.readPack name) node max

def loadSource (host : RegistryHost) (faults : Faults) (directory : RegistryDirectory)
    (registry : SourceRegistry) (source : StoredSource) :
    Except ReferenceError SourceRegistry := do
  validateManifest source.manifest registry.limits
  let key := source.manifest.sourceKey
  if registry.sources.contains key then .error (.invalid "duplicate registry source")
  match source.pack with
  | some fileName =>
    validatePackName fileName
    let size ← packSize faults directory fileName
    let installed ← addWithin "installed bytes" registry.installedBytes size
    if registry.limits.maxInstalledBytes < installed then .error (.limit "installed bytes")
    let bytes ← readPack faults directory fileName registry.limits.maxPackBytes
    if packName host bytes ≠ fileName then .error .digestMismatch
    let pack ← ValidatedPack.fromJson host.toPackHost bytes source.manifest.digest registry.limits
    if pack.manifest ≠ source.manifest then .error .conflict
    return { registry with
      installedBytes := installed
      packs := registry.packs.insert key pack
      sources := registry.sources.insert key source }
  | none =>
    if source.enabled then .error (.invalid "uninstalled source cannot be enabled")
    return { registry with sources := registry.sources.insert key source }

def load (host : RegistryHost) (limits : Limits) (faults : Faults)
    (directory : RegistryDirectory) : Except ReferenceError SourceRegistry :=
  match directory.registry with
  | none => do
      attempt faults .registryMetadata
      return { limits }
  | some node => do
      let bytes ← readBounded faults .registryMetadata .readRegistry node limits.maxRegistryBytes
      let saved ← (host.parseRegistry bytes).mapError .json
      if saved.schemaVersion ≠ schemaVersion then
        .error (.invalid "unsupported registry schema")
      if limits.maxSources < saved.sources.length then .error (.limit "sources")
      saved.sources.foldlM (loadSource host faults directory) { limits }

def notDirectory : ReferenceError := .invalid "registry path is not a real directory"

def prepare (faults : Faults) (directory : RegistryDirectory) (locked : Bool) :
    RegistryDirectory × Except ReferenceError Unit :=
  match directory.root with
  | .other => (directory, .error notDirectory)
  | .directory =>
    match attempt faults .rootMetadata with
    | .error error => (directory, .error error)
    | .ok _ => preparePacks directory
  | .absent =>
    match attempt faults .createRoot with
    | .error error => (directory, .error error)
    | .ok _ => preparePacks { directory with root := .directory }
where
  preparePacks (directory : RegistryDirectory) : RegistryDirectory × Except ReferenceError Unit :=
    match attempt faults .canonicalize >>= fun _ => attempt faults .packsMetadata with
    | .error error => (directory, .error error)
    | .ok _ =>
      match directory.packsDirectory with
      | .other => (directory, .error notDirectory)
      | .directory => (directory, lock)
      | .absent =>
        match attempt faults .createPacks with
        | .error error => (directory, .error error)
        | .ok _ => ({ directory with packsDirectory := .directory }, lock)
  lock : Except ReferenceError Unit := do
    attempt faults .lockFile
    attempt faults .tryLock
    if locked then .error .busy

/-- `open_with_limits`; `locked` says that a handle on the directory is open already. -/
def openWithLimits (host : RegistryHost) (limits : Limits) (faults : Faults)
    (directory : RegistryDirectory) (locked : Bool) :
    RegistryDirectory × Except ReferenceError SourceRegistry :=
  match prepare faults directory locked with
  | (prepared, .error error) => (prepared, .error error)
  | (prepared, .ok _) => (prepared, load host limits faults prepared)

def writeTemporary (faults : Faults) (call : FileCall) (place : Place) :
    Except ReferenceError Unit :=
  if place = .directory then attempt faults call else .error notDirectory

def storeImmutable (faults : Faults) (directory : RegistryDirectory) (name : String)
    (bytes : List UInt8) (max : Nat) : RegistryDirectory × Except ReferenceError Unit :=
  match validatePackName name >>= fun _ =>
      writeTemporary faults .writeTemporary directory.packsDirectory with
  | .error error => (directory, .error error)
  | .ok _ =>
    match attempt faults .hardLink, directory.packs name with
    | .error error, _ => (directory, .error error)
    | .ok _, none =>
      ({ directory with packs := Function.update directory.packs name (some (.file bytes)) },
        attempt faults .syncPacks)
    | .ok _, some _ =>
      -- Immutable data that is there already is compared, never written again.
      (directory, do
        let held ← readPack faults directory name max
        if held ≠ bytes then .error .conflict)

def atomicReplace (faults : Faults) (directory : RegistryDirectory) (bytes : List UInt8) :
    RegistryDirectory × Except ReferenceError Unit :=
  let ready : Except ReferenceError Unit := do
    attempt faults .registryMetadata
    if directory.registry = some .other then .error notRegular
    writeTemporary faults .writeRegistry directory.root
    attempt faults .rename
  match ready with
  | .error error => (directory, .error error)
  | .ok _ =>
    ({ directory with registry := some (.file bytes) },
      match faults .syncRoot with
      | some error => .error (.commitUncertain error)
      | none => .ok ())

namespace SourceRegistry

variable (host : RegistryHost) (faults : Faults) (directory : RegistryDirectory)
  (registry : SourceRegistry)

def requireWritable : Except ReferenceError Unit :=
  if registry.commitUncertain then
    .error (.invalid "close and reopen after an uncertain commit")
  else .ok ()

def registryBytes (next : Std.ExtTreeMap SourceKey StoredSource) :
    Except ReferenceError (List UInt8) := do
  if registry.limits.maxSources < next.size then .error (.limit "sources")
  let bytes ← (host.registryJson ⟨schemaVersion, next.values⟩).mapError .json
  if registry.limits.maxRegistryBytes < bytes.length then .error (.limit "registry bytes")
  return bytes

structure Outcome (α : Type) where
  directory : RegistryDirectory
  registry : SourceRegistry
  result : Except ReferenceError α

def refused {α : Type} (error : ReferenceError) : Outcome α := ⟨directory, registry, .error error⟩

def isCommitUncertain : Except ReferenceError Unit → Bool
  | .error (.commitUncertain _) => true
  | _ => false

def publish {α : Type} (bytes : List UInt8) (committed : SourceRegistry) (value : α) : Outcome α :=
  match atomicReplace faults directory bytes with
  | (replaced, .ok _) => ⟨replaced, committed, .ok value⟩
  | (replaced, .error error) =>
    ⟨replaced, { registry with
        commitUncertain := registry.commitUncertain || isCommitUncertain (.error error) },
      .error error⟩

def advertise (manifest : SourceManifest) : Outcome SourceStatus :=
  match registry.requireWritable >>= fun _ => validateManifest manifest registry.limits with
  | .error error => refused directory registry error
  | .ok _ =>
    match registry.sources[manifest.sourceKey]? with
    | some existing =>
      if existing.manifest = manifest then ⟨directory, registry, .ok existing.status⟩
      else refused directory registry .conflict
    | none =>
      let source : StoredSource := ⟨manifest, false, none⟩
      let next := registry.sources.insert manifest.sourceKey source
      match registry.registryBytes host next with
      | .error error => refused directory registry error
      | .ok bytes =>
        publish faults directory registry bytes { registry with sources := next } source.status

/-- What is known of the source a pack belongs to: its status where it is installed already, none
where the pack may be installed. -/
def admitPack (pack : ValidatedPack) : Except ReferenceError (Option SourceStatus) :=
  match registry.sources[pack.manifest.sourceKey]? with
  | none => .ok none
  | some existing =>
    if existing.pack.isSome then
      if existing.manifest = pack.manifest then .ok (some existing.status)
      else .error .conflict
    else
      let advertised := { existing.manifest with
        digest := existing.manifest.digest <|> pack.manifest.digest }
      if advertised = pack.manifest then .ok none else .error .conflict

def importJson (bytes : List UInt8) (expectedDigest : Option String) : Outcome SourceStatus :=
  match registry.requireWritable >>= fun _ =>
      ValidatedPack.fromJson host.toPackHost bytes expectedDigest registry.limits with
  | .error error => refused directory registry error
  | .ok pack =>
    match registry.admitPack pack with
    | .error error => refused directory registry error
    | .ok (some status) => ⟨directory, registry, .ok status⟩
    | .ok none =>
      let key := pack.manifest.sourceKey
      let source : StoredSource := ⟨pack.manifest, false, some (packName host bytes)⟩
      let next := registry.sources.insert key source
      let planned : Except ReferenceError (Nat × List UInt8) := do
        let total ← addWithin "installed bytes" registry.installedBytes bytes.length
        if registry.limits.maxInstalledBytes < total then .error (.limit "installed bytes")
        let registryBytes ← registry.registryBytes host next
        return (total, registryBytes)
      match planned with
      | .error error => refused directory registry error
      | .ok (total, registryBytes) =>
        match storeImmutable faults directory (packName host bytes) bytes
            registry.limits.maxPackBytes with
        | (stored, .error error) => refused stored registry error
        | (stored, .ok _) =>
          publish faults stored registry registryBytes
            { registry with
              sources := next
              packs := registry.packs.insert key pack
              installedBytes := total } source.status

def setEnabled (id version : String) (enabled : Bool) : Outcome Unit :=
  let checked : Except ReferenceError StoredSource := do
    registry.requireWritable
    identifier id
    versionIdentifier version
    match registry.sources[(⟨id, version⟩ : SourceKey)]? with
    | none => .error .notInstalled
    | some source =>
      if source.pack.isNone then .error .notInstalled
      return { source with enabled }
  match checked with
  | .error error => refused directory registry error
  | .ok source =>
    let next := registry.sources.insert ⟨id, version⟩ source
    match registry.registryBytes host next with
    | .error error => refused directory registry error
    | .ok bytes => publish faults directory registry bytes { registry with sources := next } ()

end SourceRegistry

end KnotEditor.Reference
