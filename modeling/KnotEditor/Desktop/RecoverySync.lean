import KnotEditor.Desktop.RecoveryRuntime
import KnotEditor.DocumentFormat

/-! The window's documents and their recovery copies: what `sync_recovery` offers and clears after
each operation. The window here has a recovery directory; without one it makes no copies. -/

namespace KnotEditor.Desktop

abbrev DocKey := Nat

inductive KnotDocumentWritePosture
  | fileTarget
  | scratch
  | readOnly
  deriving DecidableEq

structure RecoveryObservation where
  source : String
  format : DocumentFormat
  selection : CaretSelection
  dirty : Bool
  posture : KnotDocumentWritePosture
  address : String
  sourcePath : Option String
  anchorBound : selection.anchor ≤ usizeMax
  headBound : selection.head ≤ usizeMax
  deriving DecidableEq

structure RecoveryDigest where
  Digest : Type
  decideEq : DecidableEq Digest
  blake3 : List UInt8 → Digest

instance (host : RecoveryDigest) : DecidableEq host.Digest := host.decideEq

def scratchAddress : String := "scratch:untitled"

def recoveryFormat : DocumentFormat → Option String
  | .knot => some "Knot"
  | .djot => some "Djot"
  | .scroll => some "Scroll"
  | .gemtext => some "Gemtext"
  | .micron => some "Micron"
  | .markdown => none
  | .json => none

def littleEndian64 (value : Nat) : List UInt8 :=
  (List.range 8).map fun place => UInt8.ofNat (value / 256 ^ place % 256)

def flag (value : Bool) : UInt8 := if value then 1 else 0

def fingerprintBytes (source : String) (selection : CaretSelection) (focused : Bool) : List UInt8 :=
  source.toUTF8.data.toList ++ littleEndian64 selection.anchor ++ littleEndian64 selection.head ++
    [flag selection.anchorUpstream, flag selection.headUpstream] ++ [flag focused]

structure DocumentEntry (host : RecoveryDigest) where
  observation : RecoveryObservation
  recoveryId : Option RecoveryId := none
  recoveryCandidate : Bool := false
  recoveryOrigin : Option String := none
  recoveryOriginAddress : Option String := none
  recoveryFingerprint : Option host.Digest := none

inductive RecoveryEvent
  | changed (key : DocKey)
  | offered (key : DocKey) (id : RecoveryId)
  | removed (id : RecoveryId)
  | uncleared (id : RecoveryId)
  | reported
  deriving DecidableEq

/-- The open documents with their recovery runtime. The log is the history; nothing reads it. -/
structure DesktopRecovery (host : RecoveryDigest) where
  docs : Std.ExtTreeMap DocKey (DocumentEntry host)
  focused : Option DocKey := none
  nextDoc : DocKey
  recovery : RecoveryRuntime
  recoveryError : Option String := none
  log : List RecoveryEvent := []

namespace DocumentEntry

variable {host : RecoveryDigest} (entry : DocumentEntry host)

def unsaved : Bool := entry.observation.dirty || entry.recoveryCandidate

def localScratch : Bool :=
  decide (entry.observation.posture = .scratch) &&
    (decide (entry.observation.address = scratchAddress) ||
      entry.observation.address.startsWith "recovery:")

def copyable : Bool :=
  decide (entry.observation.posture ≠ .readOnly) &&
    (entry.observation.sourcePath.isSome || entry.localScratch) &&
    (recoveryFormat entry.observation.format).isSome

def fits : Bool :=
  decide (entry.observation.source.utf8ByteSize ≤ ({} : RecoveryRetention).maxItemBytes)

def fingerprint (focused : Bool) : host.Digest :=
  host.blake3 (fingerprintBytes entry.observation.source entry.observation.selection focused)

def recoveryRecord (id : RecoveryId) (focused : Bool) (sessionId : Option Uuid) :
    RecoveryRecord where
  id := id
  sourceText := entry.observation.source
  format := (recoveryFormat entry.observation.format).getD ""
  originalPath := entry.recoveryOrigin.or entry.observation.sourcePath
  originalAddress := entry.recoveryOriginAddress.or (some entry.observation.address)
  selection := entry.observation.selection
  activeHint := focused
  createdAtMs := 0
  updatedAtMs := 0
  sessionId := sessionId

def forget : DocumentEntry host :=
  { entry with
    recoveryId := none
    recoveryCandidate := false
    recoveryOrigin := none
    recoveryOriginAddress := none
    recoveryFingerprint := none }

end DocumentEntry

inductive SyncDecision (host : RecoveryDigest)
  | keep
  | resolve
  | oversized (message : String)
  | offer (id : RecoveryId) (fingerprint : host.Digest) (record : RecoveryRecord)

/-- What a sync draws and meets: new recovery ids, and the writer's steps while it runs. -/
structure SyncSchedule where
  draw : DocKey → RecoveryId
  clear : DocKey → Wait := fun _ => {}
  offer : DocKey → List WriterStep := fun _ => []
  retry : RecoveryId → List WriterStep := fun _ => []
  drain : List WriterStep := []

namespace DesktopRecovery

variable {host : RecoveryDigest} (desk : DesktopRecovery host)

def reportError (message : String) : DesktopRecovery host :=
  { desk with recoveryError := some message, log := desk.log ++ [.reported] }

def removeCopy (failure : String) (id : RecoveryId) (wait : Wait) : Bool × DesktopRecovery host :=
  match desk.recovery.clear id wait with
  | (.ok (), recovery) => (true, { desk with recovery, log := desk.log ++ [.removed id] })
  | (.error error, recovery) =>
    let waited := { desk with recovery, log := desk.log ++ [RecoveryEvent.uncleared id] }
    (false, waited.reportError s!"{failure}: {error}")

def clearRecoveryId (id : RecoveryId) (wait : Wait) : Bool × DesktopRecovery host :=
  desk.removeCopy "Could not clear document recovery copy" id wait

def clearRecoveryFor (key : DocKey) (wait : Wait) : DesktopRecovery host :=
  match desk.docs[key]?.bind DocumentEntry.recoveryId with
  | none => desk
  | some id =>
    match desk.clearRecoveryId id wait with
    | (true, cleared) =>
      { cleared with docs := cleared.docs.modify key DocumentEntry.forget }
    | (false, waited) => waited

def decision (schedule : SyncSchedule) (key : DocKey) (entry : DocumentEntry host) :
    SyncDecision host :=
  let focused := decide (desk.focused = some key)
  if !entry.unsaved then
    if entry.recoveryId.isSome then .resolve else .keep
  else if !entry.copyable then .keep
  else if !entry.fits then
    .oversized s!"{entry.observation.address} exceeds the local recovery item size limit."
  else if entry.recoveryFingerprint = some (entry.fingerprint focused) then .keep
  else
    let id := entry.recoveryId.getD (schedule.draw key)
    .offer id (entry.fingerprint focused)
      (entry.recoveryRecord id focused desk.recovery.sessionId)

def assign (decision : SyncDecision host) (entry : DocumentEntry host) : DocumentEntry host :=
  match decision with
  | .offer id _ _ => { entry with recoveryId := some id }
  | _ => entry

def decisions (schedule : SyncSchedule) : List (DocKey × SyncDecision host) :=
  desk.docs.toList.map fun item => (item.1, desk.decision schedule item.1 item.2)

def reportOversized (desk : DesktopRecovery host) (item : DocKey × SyncDecision host) :
    DesktopRecovery host :=
  match item.2 with
  | .oversized message => desk.reportError message
  | _ => desk

def observeAll (schedule : SyncSchedule) : DesktopRecovery host :=
  (desk.decisions schedule).foldl reportOversized
    { desk with docs := desk.docs.map fun key entry => assign (desk.decision schedule key entry) entry }

def resolvedOf (item : DocKey × SyncDecision host) : Option DocKey :=
  match item.2 with
  | .resolve => some item.1
  | _ => none

structure Offer (host : RecoveryDigest) where
  key : DocKey
  fingerprint : host.Digest
  record : RecoveryRecord

def offerOf (item : DocKey × SyncDecision host) : Option (Offer host) :=
  match item.2 with
  | .offer _ fingerprint record => some ⟨item.1, fingerprint, record⟩
  | _ => none

def clearAll (schedule : SyncSchedule) (keys : List DocKey) : DesktopRecovery host :=
  keys.foldl (fun desk key => desk.clearRecoveryFor key (schedule.clear key)) desk

def offerCopy (schedule : SyncSchedule) (state : RecoveryRuntime × List (Offer host))
    (offer : Offer host) : RecoveryRuntime × List (Offer host) :=
  match (state.1.work (schedule.offer offer.key)).offer offer.record with
  | (true, recovery) => (recovery, state.2 ++ [offer])
  | (false, recovery) => (recovery, state.2)

def accept (desk : DesktopRecovery host) (offer : Offer host) : DesktopRecovery host :=
  { desk with
    docs := desk.docs.modify offer.key fun entry =>
      { entry with recoveryFingerprint := some offer.fingerprint }
    log := desk.log ++ [.offered offer.key offer.record.id] }

def forgetFailed (failed : List RecoveryId) : DesktopRecovery host :=
  { desk with docs := desk.docs.map fun _ entry =>
      if entry.recoveryId.any failed.contains then { entry with recoveryFingerprint := none }
      else entry }

def reportDrained (error : Option String) : DesktopRecovery host :=
  match error with
  | some error => desk.reportError error
  | none => desk

def syncRecovery (schedule : SyncSchedule) : DesktopRecovery host :=
  let decided := desk.decisions schedule
  let cleared := (desk.observeAll schedule).clearAll schedule (decided.filterMap resolvedOf)
  let (offered, accepted) := (decided.filterMap offerOf).foldl (offerCopy schedule)
    (cleared.recovery, [])
  let ((error, failed), drained) := ((offered.retry schedule.retry).work schedule.drain).drainError
  ((accepted.foldl accept { cleared with recovery := drained }).forgetFailed failed).reportDrained
    error

end DesktopRecovery

inductive DiscardAction
  | closeDocument (key : DocKey)
  | closeSite (pages : List DocKey)
  | reload
  | quit
  deriving DecidableEq

/-- What the file system and the retention lane allow: `refused` documents are being retained, and
`reloaded` is the original as read from disk. -/
structure DiscardOutcome where
  refused : DocKey → Bool := fun _ => false
  reloaded : Option RecoveryObservation := none

inductive DocumentOperation
  | edit (key : DocKey) (observation : RecoveryObservation)
  | focus (key : Option DocKey)
  | openDocument (observation : RecoveryObservation)
  | save (key : DocKey) (saved : Option RecoveryObservation) (wait : Wait)
  | close (key : DocKey) (refused : Bool)
  | discard (action : DiscardAction) (outcome : DiscardOutcome) (wait : DocKey → Wait)
  | discardRecovery (id : RecoveryId) (refused : Bool) (wait : Wait)
  | flush (retry : RecoveryId → List WriterStep) (wait : Wait)

namespace DesktopRecovery

variable {host : RecoveryDigest} (desk : DesktopRecovery host)

def afterWake (retry : RecoveryId → List WriterStep) (drain : List WriterStep) :
    DesktopRecovery host :=
  let ((error, failed), drained) := ((desk.recovery.retry retry).work drain).drainError
  ({ desk with recovery := drained }.forgetFailed failed).reportDrained error

def edit (key : DocKey) (observation : RecoveryObservation) : DesktopRecovery host :=
  { desk with
    docs := desk.docs.modify key fun entry => { entry with observation }
    log := desk.log ++ [.changed key] }

def openDocument (observation : RecoveryObservation) : DesktopRecovery host :=
  { desk with
    docs := desk.docs.insert desk.nextDoc { observation }
    focused := some desk.nextDoc
    nextDoc := desk.nextDoc + 1
    log := desk.log ++ [.changed desk.nextDoc] }

def save (key : DocKey) (saved : Option RecoveryObservation) (wait : Wait) :
    DesktopRecovery host :=
  match saved with
  | none => desk
  | some observation =>
    (desk.edit key { observation with dirty := false }).clearRecoveryFor key wait

def closeDocument (key : DocKey) (refused : Bool) : DesktopRecovery host :=
  if refused then desk else { desk with docs := desk.docs.erase key }

def requestClose (key : DocKey) (refused : Bool) : DesktopRecovery host :=
  match desk.docs[key]? with
  | none => desk
  | some entry => if entry.unsaved then desk else desk.closeDocument key refused

def reload (outcome : DiscardOutcome) : DesktopRecovery host :=
  match desk.focused, outcome.reloaded with
  | some key, some observation =>
    if (desk.docs[key]?).any DocumentEntry.recoveryCandidate then
      (desk.openDocument observation).closeDocument key (outcome.refused key)
    else desk.edit key { observation with dirty := false }
  | _, _ => desk

def copiesOf : DiscardAction → List (DocKey × RecoveryId)
  | .closeDocument key => ((desk.docs[key]?.bind DocumentEntry.recoveryId).map (key, ·)).toList
  | .closeSite pages =>
    pages.filterMap fun key => (desk.docs[key]?).bind fun entry =>
      if entry.observation.dirty then entry.recoveryId.map (key, ·) else none
  | .reload =>
    (desk.focused.bind fun key =>
      (desk.docs[key]?.bind DocumentEntry.recoveryId).map (key, ·)).toList
  | .quit => []

def perform (outcome : DiscardOutcome) : DiscardAction → DesktopRecovery host
  | .closeDocument key => desk.closeDocument key (outcome.refused key)
  | .closeSite pages =>
    pages.foldl (fun desk key => desk.closeDocument key (outcome.refused key)) desk
  | .reload => desk.reload outcome
  | .quit => desk

def isUnsaved (key : DocKey) : Bool := (desk.docs[key]?).any DocumentEntry.unsaved

def clearCopy (wait : DocKey → Wait) (desk : DesktopRecovery host)
    (copy : DocKey × RecoveryId) : DesktopRecovery host :=
  if desk.isUnsaved copy.1 then desk else (desk.clearRecoveryId copy.2 (wait copy.1)).2

def dirtyDocuments : List DocKey :=
  (desk.docs.toList.filter fun item => item.2.unsaved).map Prod.fst

def confirmDiscard (action : DiscardAction) (outcome : DiscardOutcome) (wait : DocKey → Wait) :
    DesktopRecovery host :=
  match action with
  | .quit =>
    desk.dirtyDocuments.foldl (fun desk key => desk.clearRecoveryFor key (wait key)) desk
  | action => (desk.copiesOf action).foldl (clearCopy wait) (desk.perform outcome action)

def discardRecovery (id : RecoveryId) (refused : Bool) (wait : Wait) : DesktopRecovery host :=
  match desk.removeCopy "Recovery discard failed" id wait with
  | (true, cleared) =>
    match cleared.docs.toList.find? fun item => item.2.recoveryId = some id with
    | some (key, _) => cleared.closeDocument key refused
    | none => cleared
  | (false, waited) => waited

def flushRecovery (retry : RecoveryId → List WriterStep) (wait : Wait) : DesktopRecovery host :=
  match desk.recovery.flush retry wait with
  | (.ok (), recovery) => { desk with recovery }
  | (.error error, recovery) =>
    { desk with recovery }.reportError s!"Document recovery flush failed: {error}"

def operate : DocumentOperation → DesktopRecovery host
  | .edit key observation => desk.edit key observation
  | .focus key => { desk with focused := key }
  | .openDocument observation => desk.openDocument observation
  | .save key saved wait => desk.save key saved wait
  | .close key refused => desk.requestClose key refused
  | .discard action outcome wait => desk.confirmDiscard action outcome wait
  | .discardRecovery id refused wait => desk.discardRecovery id refused wait
  | .flush retry wait => desk.flushRecovery retry wait

end DesktopRecovery

inductive RecoveryPause
  | writer (step : WriterStep)
  | wake (retry : RecoveryId → List WriterStep) (drain : List WriterStep)

/-- One operation of the window, with what happens before it, where it leaves the focus if it moves
it, and the sync after it. -/
structure RecoveryTurn where
  before : List RecoveryPause := []
  operation : DocumentOperation
  refocused : Option (Option DocKey) := none
  sync : SyncSchedule

namespace DesktopRecovery

variable {host : RecoveryDigest} (desk : DesktopRecovery host)

def pause (desk : DesktopRecovery host) : RecoveryPause → DesktopRecovery host
  | .writer step => { desk with recovery := desk.recovery.writerStep step }
  | .wake retry drain => desk.afterWake retry drain

def refocus (focused : Option (Option DocKey)) : DesktopRecovery host :=
  { desk with focused := focused.getD desk.focused }

def operated (turn : RecoveryTurn) : DesktopRecovery host :=
  ((turn.before.foldl pause desk).operate turn.operation).refocus turn.refocused

def turn (turn : RecoveryTurn) : DesktopRecovery host :=
  (desk.operated turn).syncRecovery turn.sync

end DesktopRecovery

end KnotEditor.Desktop
