import KnotEditor.Publish

/-! The desktop's crash-recovery directory: one file a record, each owned by the session that wrote
it, and the retention policy that evicts the records of sessions that ended. -/

namespace KnotEditor.Desktop

abbrev RecoveryId := Uuid

def maxScanEntries : Nat := 2048
def maxScanBytes : Nat := 128 * 1024 * 1024
def hardMaxItemBytes : Nat := 64 * 1024 * 1024
def maxPolicyRecords : Nat := maxScanEntries
def maxIssues : Nat := 64
def millisPerDay : Nat := 86400000

structure CaretSelection where
  anchor : Nat := 0
  head : Nat := 0
  anchorUpstream : Bool := false
  headUpstream : Bool := false
  deriving DecidableEq

structure RecoveryRetention where
  maxRecords : Nat := 20
  maxTotalBytes : Nat := 100 * 1024 * 1024
  maxItemBytes : Nat := 8 * 1024 * 1024
  maxAgeDays : Option Nat := some 30
  deriving DecidableEq

/-- `sessionId` is the UUID that the stored owner token spells, if it spells one. -/
structure RecoveryRecord where
  id : RecoveryId
  sourceText : String
  format : String
  originalPath : Option String := none
  originalAddress : Option String := none
  selection : CaretSelection := {}
  activeHint : Bool := false
  createdAtMs : Nat := 0
  updatedAtMs : Nat := 0
  sessionId : Option Uuid := none
  deriving DecidableEq

inductive RecoveryIssueKind
  | corrupt
  | oversized
  | retention
  deriving DecidableEq

structure RecoveryIssue where
  path : String
  kind : RecoveryIssueKind
  detail : String
  deriving DecidableEq

inductive RecoveryError
  | io (path detail : String)
  | serialization (detail : String)
  | itemTooLarge (actual limit : Nat)
  | capacity (detail : String)
  | ownedByLiveSession
  | invalidRetention
  deriving DecidableEq

def RecoveryError.text : RecoveryError → String
  | io path detail => s!"{path}: {detail}"
  | serialization detail => s!"recovery serialization failed: {detail}"
  | itemTooLarge actual limit => s!"recovery item is {actual} bytes; limit is {limit}"
  | capacity detail => s!"recovery retention limit: {detail}"
  | ownedByLiveSession => "recovery item belongs to another live session"
  | invalidRetention => "recovery retention limits are invalid"

structure RecoveryListing where
  records : List RecoveryRecord := []
  issues : List RecoveryIssue := []
  complete : Bool := true

structure RecoveryHost where
  encodedLen : RecoveryRecord → Except String Nat

abbrev RecoveryItems := Std.ExtTreeMap RecoveryId RecoveryRecord

def itemsDirectory : String := "items"

def itemPath (id : RecoveryId) : String := s!"{itemsDirectory}/{id.text}.json"

def addIssue (listing : RecoveryListing) (newIssue : RecoveryIssue) : RecoveryListing :=
  if listing.issues.length < maxIssues then
    { listing with issues := listing.issues ++ [newIssue] }
  else if newIssue.kind = .oversized then
    { listing with complete := false, issues := listing.issues.set (maxIssues - 1) newIssue }
  else
    { listing with complete := false }

def hasStorageIssue (listing : RecoveryListing) : Bool :=
  listing.issues.any fun issue => decide (issue.kind ≠ .retention)

def validateRetention (policy : RecoveryRetention) : Except RecoveryError Unit :=
  if policy.maxRecords > maxPolicyRecords ∨ policy.maxItemBytes = 0 ∨
      policy.maxItemBytes > hardMaxItemBytes ∨ policy.maxTotalBytes = 0 ∨
      policy.maxTotalBytes > maxScanBytes then
    .error .invalidRetention
  else
    .ok ()

section Encoding

variable (host : RecoveryHost)

def fileLen (record : RecoveryRecord) : Nat := (host.encodedLen record).toOption.getD 0

/-- `encoded_len(record).unwrap_or(u64::MAX)`. -/
def retainedLen (record : RecoveryRecord) : Nat :=
  (host.encodedLen record).toOption.getD usizeMax

def encodeRecord (record : RecoveryRecord) : Except RecoveryError Nat :=
  (host.encodedLen record).mapError .serialization

def readRecord (path : String) (record : RecoveryRecord) : Except RecoveryIssue RecoveryRecord :=
  if fileLen host record > hardMaxItemBytes then
    .error { path, kind := .oversized, detail := s!"record is {fileLen host record} bytes" }
  else
    .ok record

def readExisting (items : RecoveryItems) (id : RecoveryId) :
    Except RecoveryError (Option RecoveryRecord) :=
  match items[id]? with
  | none => .ok none
  | some record =>
    match readRecord host (itemPath id) record with
    | .ok record => .ok (some record)
    | .error problem => .error (.io problem.path problem.detail)

def inspect (listing : RecoveryListing) (id : RecoveryId) (record : RecoveryRecord) :
    RecoveryListing :=
  match readRecord host (itemPath id) record with
  | .error problem => addIssue listing problem
  | .ok record =>
    if record.id ≠ id then
      addIssue listing
        { path := itemPath id, kind := .corrupt,
          detail := "record identity does not match filename" }
    else
      { listing with records := listing.records ++ [record] }

def scan : List (RecoveryId × RecoveryRecord) → Nat → Nat → RecoveryListing → RecoveryListing
  | [], _, _, listing => listing
  | (id, record) :: rest, scannedEntries, scannedBytes, listing =>
    if scannedEntries + 1 > maxScanEntries then
      addIssue { listing with complete := false }
        { path := itemsDirectory, kind := .oversized,
          detail := "record directory entry limit exceeded" }
    else if fileLen host record > maxScanBytes - scannedBytes then
      addIssue { listing with complete := false }
        { path := itemPath id, kind := .oversized,
          detail := "aggregate record read budget exceeded" }
    else
      scan rest (scannedEntries + 1) (scannedBytes + fileLen host record)
        (inspect host listing id record)

end Encoding

structure RecoveryStore where
  sessionId : Uuid
  retention : RecoveryRetention
  startupIssue : Option RecoveryIssue := none
  deriving DecidableEq

namespace RecoveryStore

/-- `live` says which session markers are locked. -/
def isSessionLive (store : RecoveryStore) (live : Uuid → Bool) (sessionId : Option Uuid) : Bool :=
  match sessionId with
  | none => true
  | some session => session == store.sessionId || live session

def listedBefore (left right : RecoveryRecord) : Bool :=
  decide (left.updatedAtMs < right.updatedAtMs ∨
    left.updatedAtMs = right.updatedAtMs ∧ left.id ≤ right.id)

def unscanned (store : RecoveryStore) : RecoveryListing :=
  match store.startupIssue with
  | some issue => addIssue {} issue
  | none => {}

def list (host : RecoveryHost) (store : RecoveryStore) (items : RecoveryItems) :
    RecoveryListing :=
  let scanned := scan host items.toList 0 0 store.unscanned
  { scanned with records := scanned.records.mergeSort listedBefore }

def ownedByAnother (store : RecoveryStore) (live : Uuid → Bool) (existing : RecoveryRecord) :
    Bool :=
  decide (existing.sessionId ≠ some store.sessionId) && store.isSessionLive live existing.sessionId

def isCurrent (store : RecoveryStore) (live : Uuid → Bool) (now : Nat) (record : RecoveryRecord) :
    Bool :=
  match store.retention.maxAgeDays with
  | some days =>
    !(decide (record.updatedAtMs < now - days * millisPerDay) &&
      !store.isSessionLive live record.sessionId)
  | none => true

/-- While the kept records are over the limits, take the oldest of a session that ended. -/
def evict (host : RecoveryHost) (store : RecoveryStore) (live : Uuid → Bool)
    (exceeds : Nat → Nat → Bool) (detail : String) (kept : List RecoveryRecord) (size : Nat)
    (victims : List RecoveryId) : Except RecoveryError (List RecoveryId) :=
  if exceeds kept.length size then
    match found : kept.findIdx? fun item => !store.isSessionLive live item.sessionId with
    | none => .error (.capacity detail)
    | some index =>
      have bound : index < kept.length := (List.findIdx?_eq_some_iff_getElem.mp found).1
      have shorter : (kept.eraseIdx index).length < kept.length := by
        rw [List.length_eraseIdx, if_pos bound]
        omega
      evict host store live exceeds detail (kept.eraseIdx index)
        (size - retainedLen host kept[index]) (victims ++ [kept[index].id])
  else
    .ok victims
  termination_by kept.length

def updatedBefore (left right : RecoveryRecord) : Bool :=
  decide (left.updatedAtMs ≤ right.updatedAtMs)

def victimsOf (host : RecoveryHost) (store : RecoveryStore) (live : Uuid → Bool)
    (exceeds : Nat → Nat → Bool) (detail : String) (now : Nat) (records : List RecoveryRecord) :
    Except RecoveryError (List RecoveryId) :=
  let retained := records.filter (store.isCurrent live now)
  let expired := records.filter fun record => !store.isCurrent live now record
  evict host store live exceeds detail (retained.mergeSort updatedBefore)
    ((retained.map (retainedLen host)).sum) (expired.map RecoveryRecord.id)

def uninspected : RecoveryError :=
  .capacity "store contains unreadable or uninspected entries; refusing retention changes"

def inspected (host : RecoveryHost) (store : RecoveryStore) (items : RecoveryItems) :
    Except RecoveryError (List RecoveryRecord) :=
  let listing := store.list host items
  if !listing.complete || hasStorageIssue listing then .error uninspected
  else .ok listing.records

def removeFile (items : RecoveryItems) (id : RecoveryId) :
    Except RecoveryError Unit × RecoveryItems :=
  match items[id]? with
  | some _ => (.ok (), items.erase id)
  | none => (.error (.io (itemPath id) "No such file or directory"), items)

def removeFiles (items : RecoveryItems) : List RecoveryId → Except RecoveryError Unit × RecoveryItems
  | [] => (.ok (), items)
  | id :: rest =>
    match removeFile items id with
    | (.error error, items) => (.error error, items)
    | (.ok (), items) => removeFiles items rest

def stamp (store : RecoveryStore) (live : Uuid → Bool) (existing : Option RecoveryRecord)
    (record : RecoveryRecord) (now : Nat) : Except RecoveryError RecoveryRecord :=
  let record := { record with sessionId := some store.sessionId, updatedAtMs := now }
  match existing with
  | some existing =>
    if store.ownedByAnother live existing then .error .ownedByLiveSession
    else .ok { record with createdAtMs := existing.createdAtMs }
  | none =>
    .ok { record with createdAtMs := if record.createdAtMs = 0 then now else record.createdAtMs }

/-- `upsert` up to its first write: the record to store and the records to remove for it. -/
def planUpsert (host : RecoveryHost) (store : RecoveryStore) (live : Uuid → Bool)
    (items : RecoveryItems) (record : RecoveryRecord) (now later : Nat) :
    Except RecoveryError (RecoveryRecord × List RecoveryId) := do
  let configuredLimit := min store.retention.maxItemBytes hardMaxItemBytes
  let existing ← readExisting host items record.id
  let record ← store.stamp live existing record now
  let bytes ← encodeRecord host record
  if bytes > configuredLimit then
    .error (.itemTooLarge bytes configuredLimit)
  let valid ← store.inspected host items
  let victims ← store.victimsOf host live
    (fun count size => count + 1 > store.retention.maxRecords ||
      size + bytes > store.retention.maxTotalBytes)
    "all remaining records belong to live sessions" later
    (valid.filter fun existing => existing.id ≠ record.id)
  if store.retention.maxRecords = 0 ∨ bytes > store.retention.maxTotalBytes then
    .error (.capacity "configured limits cannot hold this record")
  .ok (record, victims)

def clearStartupIssue (store : RecoveryStore) : RecoveryStore :=
  { store with startupIssue := none }

structure Outcome (α : Type) where
  answer : Except RecoveryError α
  store : RecoveryStore
  items : RecoveryItems

def upsert (host : RecoveryHost) (store : RecoveryStore) (live : Uuid → Bool)
    (items : RecoveryItems) (record : RecoveryRecord) (now later : Nat) : Outcome Unit :=
  match store.planUpsert host live items record now later with
  | .error error => ⟨.error error, store, items⟩
  | .ok (record, victims) =>
    match removeFiles (items.insert record.id record) (victims.filter (· ≠ record.id)) with
    | (.error error, items) => ⟨.error error, store, items⟩
    | (.ok (), items) => ⟨.ok (), store.clearStartupIssue, items⟩

def remove (host : RecoveryHost) (store : RecoveryStore) (live : Uuid → Bool)
    (items : RecoveryItems) (id : RecoveryId) : Outcome Bool :=
  match readExisting host items id with
  | .error error => ⟨.error error, store, items⟩
  | .ok none => ⟨.ok false, store, items⟩
  | .ok (some existing) =>
    if store.ownedByAnother live existing then
      ⟨.error .ownedByLiveSession, store, items⟩
    else
      match removeFile items id with
      | (.error error, items) => ⟨.error error, store, items⟩
      | (.ok (), items) => ⟨.ok true, store, items⟩

def claim (host : RecoveryHost) (store : RecoveryStore) (live : Uuid → Bool)
    (items : RecoveryItems) (id : RecoveryId) (now : Nat) : Outcome (Option RecoveryRecord) :=
  match readExisting host items id with
  | .error error => ⟨.error error, store, items⟩
  | .ok none => ⟨.ok none, store, items⟩
  | .ok (some record) =>
    if record.id ≠ id then
      ⟨.error (.serialization "record identity does not match requested id"), store, items⟩
    else if store.ownedByAnother live record then
      ⟨.error .ownedByLiveSession, store, items⟩
    else
      let claimed := { record with sessionId := some store.sessionId, updatedAtMs := now }
      match encodeRecord host claimed with
      | .error error => ⟨.error error, store, items⟩
      | .ok _ => ⟨.ok (some claimed), store, items.insert id claimed⟩

def pruneToPolicy (host : RecoveryHost) (store : RecoveryStore) (live : Uuid → Bool)
    (items : RecoveryItems) (now : Nat) : Except RecoveryError Unit × RecoveryItems :=
  match (do
    let records ← store.inspected host items
    store.victimsOf host live
      (fun count size => count > store.retention.maxRecords ||
        size > store.retention.maxTotalBytes)
      "retention limits are exceeded by live records" now records) with
  | .error error => (.error error, items)
  | .ok victims => removeFiles items victims

def setRetention (host : RecoveryHost) (store : RecoveryStore) (live : Uuid → Bool)
    (items : RecoveryItems) (retention : RecoveryRetention) (now : Nat) : Outcome Unit :=
  match validateRetention retention with
  | .error error => ⟨.error error, store, items⟩
  | .ok () =>
    match { store with retention }.pruneToPolicy host live items now with
    | (.error error, items) => ⟨.error error, store, items⟩
    | (.ok (), items) => ⟨.ok (), { store with retention }.clearStartupIssue, items⟩

end RecoveryStore

/-- The directory as every window sees it. A crash leaves its session's marker unlocked. -/
structure RecoveryDirectory where
  items : RecoveryItems
  handles : Std.ExtTreeMap Uuid (RecoveryRetention × Option RecoveryIssue)
  staleMarkers : List Uuid

namespace RecoveryDirectory

def isLive (directory : RecoveryDirectory) (session : Uuid) : Bool :=
  (directory.handles[session]?).isSome

def store? (directory : RecoveryDirectory) (session : Uuid) : Option RecoveryStore :=
  directory.handles[session]?.map fun handle => ⟨session, handle.1, handle.2⟩

def withStore (directory : RecoveryDirectory) (store : RecoveryStore) (items : RecoveryItems) :
    RecoveryDirectory :=
  { directory with
    items
    handles := directory.handles.insert store.sessionId (store.retention, store.startupIssue) }

def start (host : RecoveryHost) (directory : RecoveryDirectory) (store : RecoveryStore)
    (now : Nat) : RecoveryDirectory :=
  let opened := directory.withStore store directory.items
  match store.pruneToPolicy host opened.isLive directory.items now with
  | (.ok (), items) => directory.withStore store items
  | (.error error, items) =>
    let issue : RecoveryIssue :=
      { path := itemsDirectory, kind := .retention, detail := error.text }
    if hasStorageIssue (store.list host items) then directory.withStore store items
    else directory.withStore { store with startupIssue := some issue } items

/-- `draws` are the session ids that `open` tries until one has no marker. -/
def «open» (host : RecoveryHost) (directory : RecoveryDirectory) (draws : List Uuid)
    (retention : RecoveryRetention) (now : Nat) :
    Except RecoveryError (Option Uuid) × RecoveryDirectory :=
  match validateRetention retention with
  | .error error => (.error error, directory)
  | .ok () =>
    if directory.handles.size + directory.staleMarkers.length > maxScanEntries then
      (.error (.capacity "session marker directory limit exceeded"), directory)
    else
      match draws.find? fun session => !directory.isLive session with
      | none => (.ok none, { directory with staleMarkers := [] })
      | some session =>
        (.ok (some session),
          start host { directory with staleMarkers := [] } ⟨session, retention, none⟩ now)

end RecoveryDirectory

inductive RecoveryAction
  | open (draws : List Uuid) (retention : RecoveryRetention) (now : Nat)
  | close (session : Uuid)
  | crash (session : Uuid)
  | upsert (session : Uuid) (record : RecoveryRecord) (now later : Nat)
  | remove (session : Uuid) (id : RecoveryId)
  | claim (session : Uuid) (id : RecoveryId) (now : Nat)
  | setRetention (session : Uuid) (retention : RecoveryRetention) (now : Nat)

inductive RecoveryAnswer
  | opened (session : Option Uuid)
  | closed
  | stored
  | removed (found : Bool)
  | claimed (record : Option RecoveryRecord)
  | retained
  | unopened

namespace RecoveryDirectory

def settle {α : Type} (directory : RecoveryDirectory) (answer : α → RecoveryAnswer)
    (outcome : RecoveryStore.Outcome α) : Except RecoveryError RecoveryAnswer × RecoveryDirectory :=
  (outcome.answer.map answer, directory.withStore outcome.store outcome.items)

def handled (directory : RecoveryDirectory) (session : Uuid)
    (run : RecoveryStore → Except RecoveryError RecoveryAnswer × RecoveryDirectory) :
    Except RecoveryError RecoveryAnswer × RecoveryDirectory :=
  match directory.store? session with
  | some store => run store
  | none => (.ok .unopened, directory)

def perform (host : RecoveryHost) (directory : RecoveryDirectory) :
    RecoveryAction → Except RecoveryError RecoveryAnswer × RecoveryDirectory
  | .open draws retention now =>
    let opened := directory.open host draws retention now
    (opened.1.map .opened, opened.2)
  | .close session =>
    (.ok .closed, { directory with handles := directory.handles.erase session })
  | .crash session =>
    directory.handled session fun _ =>
      (.ok .closed, { directory with
        handles := directory.handles.erase session,
        staleMarkers := session :: directory.staleMarkers })
  | .upsert session record now later =>
    directory.handled session fun store =>
      directory.settle (fun _ => .stored)
        (store.upsert host directory.isLive directory.items record now later)
  | .remove session id =>
    directory.handled session fun store =>
      directory.settle .removed (store.remove host directory.isLive directory.items id)
  | .claim session id now =>
    directory.handled session fun store =>
      directory.settle .claimed (store.claim host directory.isLive directory.items id now)
  | .setRetention session retention now =>
    directory.handled session fun store =>
      directory.settle (fun _ => .retained)
        (store.setRetention host directory.isLive directory.items retention now)

end RecoveryDirectory

end KnotEditor.Desktop
