import KnotEditor.Bytes
import KnotEditor.Composition

/-! The standalone collection file: handles on one path that write by comparing the digest they
last saw, then replacing the file. Each file operation of a call may fail on its own. -/

namespace KnotEditor

open KnotEditor.Composition

namespace Composition

def storeVersion : UInt32 := 1
def maxItems : Nat := 10000

end Composition

/-- What a call raises: the error of the material itself, or one of the store's own. -/
inductive StoreError
  | io (error : String)
  | material (error : CollectionError)
  | unsupportedVersion (version : UInt32)
  | duplicateId (id : String)
  | tooLarge
  | concurrentChange
  | durabilityUncertain (error : String)
  deriving DecidableEq

structure StoreData (Scene Recipe : Type) where
  version : UInt32
  items : List (CollectionItem Scene Recipe)
  deriving DecidableEq

/-- What the store takes from `serde_json` and `blake3`. -/
structure StoreHost extends CompositionHost where
  Hash : Type
  decideHash : DecidableEq Hash
  blake3 : ByteArray → Hash
  toVecPretty : StoreData Scene Recipe → Except String ByteArray
  fromSlice : ByteArray → Except String (StoreData Scene Recipe)

instance storeHashDecidable (host : StoreHost) : DecidableEq host.Hash := host.decideHash

structure StorePath where
  path : String
  fileName : Option String
  isAbsolute : Bool
  deriving DecidableEq

inductive StoreFile
  | absent
  | regular (bytes : ByteArray)
  | irregular
  deriving DecidableEq

inductive TryLockError
  | wouldBlock
  | error (error : String)

structure StoreFaults where
  currentDir : Option String := none
  createDirAll : Option String := none
  openLock : Option String := none
  tryLock : Option TryLockError := none
  symlinkMetadata : Option String := none
  openFile : Option String := none
  readToEnd : Option String := none
  openDirectory : Option String := none
  tempfileIn : Option String := none
  writeAll : Option String := none
  syncFile : Option String := none
  persistFile : Option String := none
  syncDirectory : Option String := none

def attempt (fault : Option String) : Except StoreError Unit :=
  match fault with
  | some error => .error (.io error)
  | none => .ok ()

def readStore (file : StoreFile) (faults : StoreFaults) :
    Except StoreError (Option ByteArray) := do
  attempt faults.symlinkMetadata
  match file with
  | .absent => .ok none
  | .irregular =>
    .error (.material
      (.invalid "store must be a regular file, not a symlink or directory"))
  | .regular bytes =>
    if maxStoreBytes < bytes.size then
      .error .tooLarge
    else do
      attempt faults.openFile
      attempt faults.readToEnd
      .ok (some bytes)

variable {host : StoreHost}

def validateMaterial (item : CollectionItem host.Scene host.Recipe) :
    Except CollectionError Unit :=
  @CollectionItem.validate host.toCompositionHost item

def validateEach (identities : List String) :
    List (CollectionItem host.Scene host.Recipe) → Except StoreError Unit
  | [] => .ok ()
  | item :: rest => do
      (validateMaterial item).mapError .material
      if identities.contains item.id then
        .error (.duplicateId item.id)
      validateEach (identities ++ [item.id]) rest

def validateItems (items : List (CollectionItem host.Scene host.Recipe)) :
    Except StoreError Unit :=
  if maxItems < items.length then .error .tooLarge else validateEach [] items

variable (host) in
structure CollectionStore where
  path : StorePath
  items : List (CollectionItem host.Scene host.Recipe)
  diskHash : Option host.Hash

variable (host) in
def storedItems (bytes : ByteArray) :
    Except StoreError (List (CollectionItem host.Scene host.Recipe)) := do
  let data ← (host.fromSlice bytes).mapError fun error => .material (.malformed error)
  if data.version ≠ storeVersion then
    .error (.unsupportedVersion data.version)
  validateItems data.items
  .ok data.items

variable (host) in
def loadItems (bytes : Option ByteArray) :
    Except StoreError (List (CollectionItem host.Scene host.Recipe)) :=
  match bytes with
  | some bytes => storedItems host bytes
  | none => .ok []

def absolutePath (requested : StorePath) (faults : StoreFaults) : Except StoreError Unit :=
  if requested.isAbsolute then .ok () else attempt faults.currentDir

def tryLock (faults : StoreFaults) : Except StoreError Unit :=
  match faults.tryLock with
  | some .wouldBlock => .error .concurrentChange
  | some (.error error) => .error (.io error)
  | none => .ok ()

namespace CollectionStore

variable (host) in
def «open» (requested : StorePath) (file : StoreFile) (faults : StoreFaults) :
    Except StoreError (CollectionStore host) := do
  if requested.fileName.isNone then
    .error (.material (.invalid "store path must name a file"))
  absolutePath requested faults
  let bytes ← readStore file faults
  let items ← loadItems host bytes
  .ok { path := requested, items, diskHash := bytes.map host.blake3 }

/-- Everything `persist` does up to the replacement of the file: the bytes that replace it. -/
def prepare (store : CollectionStore host) (file : StoreFile)
    (candidate : List (CollectionItem host.Scene host.Recipe)) (faults : StoreFaults) :
    Except StoreError ByteArray := do
  validateItems candidate
  let bytes ← (host.toVecPretty { version := storeVersion, items := candidate }).mapError
    fun error => .material (.malformed error)
  if maxStoreBytes < bytes.size then
    .error .tooLarge
  attempt faults.createDirAll
  attempt faults.openLock
  KnotEditor.tryLock faults
  let current ← readStore file faults
  if current.map host.blake3 ≠ store.diskHash then
    .error .concurrentChange
  attempt faults.openDirectory
  attempt faults.tempfileIn
  attempt faults.writeAll
  attempt faults.syncFile
  attempt faults.persistFile
  .ok bytes

structure Outcome (host : StoreHost) (α : Type) where
  result : Except StoreError α
  store : CollectionStore host
  file : StoreFile

def persist (store : CollectionStore host) (file : StoreFile)
    (candidate : List (CollectionItem host.Scene host.Recipe)) (faults : StoreFaults) :
    Outcome host Unit :=
  match store.prepare file candidate faults with
  | .error error => ⟨.error error, store, file⟩
  | .ok bytes =>
    let saved := { store with items := candidate, diskHash := some (host.blake3 bytes) }
    match faults.syncDirectory with
    | some error => ⟨.error (.durabilityUncertain error), saved, .regular bytes⟩
    | none => ⟨.ok (), saved, .regular bytes⟩

def collect (store : CollectionStore host) (file : StoreFile)
    (item : CollectionItem host.Scene host.Recipe) (faults : StoreFaults) : Outcome host Unit :=
  match validateMaterial item with
  | .error error => ⟨.error (.material error), store, file⟩
  | .ok () =>
    if store.items.any fun existing => existing.id == item.id then
      ⟨.error (.duplicateId item.id), store, file⟩
    else
      store.persist file (store.items ++ [item]) faults

def remove (store : CollectionStore host) (file : StoreFile) (id : String)
    (faults : StoreFaults) : Outcome host Bool :=
  if store.items.any fun item => item.id == id then
    let candidate := store.items.filter fun item => item.id != id
    let outcome := store.persist file candidate faults
    ⟨outcome.result.map fun _ => true, outcome.store, outcome.file⟩
  else
    ⟨.ok false, store, file⟩

end CollectionStore

variable (host) in
structure StoreWorld where
  file : StoreFile
  handles : List (CollectionStore host)

variable (host) in
inductive StoreCall
  | openStore (requested : StorePath) (faults : StoreFaults)
  | collect (handle : Nat) (item : CollectionItem host.Scene host.Recipe)
      (faults : StoreFaults)
  | remove (handle : Nat) (id : String) (faults : StoreFaults)

namespace StoreWorld

def settle {α : Type} (world : StoreWorld host) (handle : Nat)
    (outcome : CollectionStore.Outcome host α) : StoreWorld host :=
  { file := outcome.file, handles := world.handles.set handle outcome.store }

def perform (world : StoreWorld host) : StoreCall host → StoreWorld host
  | .openStore requested faults =>
    match CollectionStore.open host requested world.file faults with
    | .ok store => { world with handles := world.handles ++ [store] }
    | .error _ => world
  | .collect handle item faults =>
    match world.handles[handle]? with
    | some store => world.settle handle (store.collect world.file item faults)
    | none => world
  | .remove handle id faults =>
    match world.handles[handle]? with
    | some store => world.settle handle (store.remove world.file id faults)
    | none => world

end StoreWorld

end KnotEditor
