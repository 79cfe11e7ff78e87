import KnotEditor.Desktop.RecoveryStore

/-! The bounded writer of document recovery: what waits in the window, in the channel and at the
writer, and what this session has in the recovery directory. The writer's clock, its steps while the
window waits, and what the directory does with a call come in from outside. -/

namespace KnotEditor.Desktop

inductive Command
  | upsert (record : RecoveryRecord)
  | remove (id : RecoveryId) (reply : Nat)
  | flush (reply : Nat)
  | retention (policy : RecoveryRetention) (reply : Nat)
  | claim (id : RecoveryId) (reply : Nat)

/-- What the directory does with one call. A refused call may still have reached the disk. -/
inductive StoreVerdict
  | done
  | refused (error : RecoveryError) (reached : Bool)

def StoreVerdict.reached : StoreVerdict → Bool
  | done => true
  | refused _ reached => reached

def StoreVerdict.result : StoreVerdict → Except String Unit
  | done => .ok ()
  | refused error _ => .error error.text

/-- What the writer meets in one turn of its loop: whether the two-second deadline has passed, and
the directory's verdicts. `claimed` is what another session left under the id that is claimed. -/
structure WriterStep where
  elapsed : Bool := false
  verdict : RecoveryId → StoreVerdict := fun _ => .done
  retained : StoreVerdict := .done
  claimed : Option RecoveryRecord := none

/-- The writer's steps before the window first tries to send, while it sleeps before each further
try, and while it waits for the answer. -/
structure Wait where
  sleeps : List (List WriterStep) := []
  steps : List WriterStep := []
  early : List WriterStep := []

/-- `stored` are this session's records, but for the owner and the times that the directory stamps
on them: retention leaves those of a live session alone. `handed` lists the records given to the
directory, from the first. -/
structure RecoveryRuntime where
  sessionId : Option Uuid
  records : List RecoveryRecord := []
  deferred : RecoveryItems := ∅
  localError : Option String := none
  queue : List Command := []
  results : List (Option RecoveryId × String) := []
  replies : List (Nat × Except String (Option RecoveryRecord)) := []
  nextReply : Nat := 0
  pending : RecoveryItems := ∅
  stored : RecoveryItems := ∅
  handed : List RecoveryRecord := []

def channelBound : Nat := 8
def maxPendingDocuments : Nat := 20
def maxDeferredBytes : Nat := 100 * 1024 * 1024

def RecoveryRecord.size (record : RecoveryRecord) : Nat := record.sourceText.utf8ByteSize

namespace RecoveryRuntime

def start (host : RecoveryHost) (store : RecoveryStore) (live : Uuid → Bool)
    (items : RecoveryItems) : RecoveryRuntime :=
  let listing := store.list host items
  { sessionId := some store.sessionId
    records := listing.records.filter fun record => !store.isSessionLive live record.sessionId
    localError :=
      if listing.complete then none
      else some "Recovery inspection stopped at its safety limit; some copies may not be listed." }

variable (recovery : RecoveryRuntime)

section Writer

def answer (reply : Nat) (result : Except String (Option RecoveryRecord)) : RecoveryRuntime :=
  { recovery with replies := (reply, result) :: recovery.replies }

def report (id : RecoveryId) (message : String) : RecoveryRuntime :=
  { recovery with results := recovery.results ++ [(some id, message)] }

def storeUpsert (verdict : StoreVerdict) (record : RecoveryRecord) : RecoveryRuntime :=
  let given := { recovery with handed := recovery.handed ++ [record] }
  if verdict.reached then { given with stored := recovery.stored.insert record.id record }
  else given

def storeRemove (verdict : StoreVerdict) (id : RecoveryId) : RecoveryRuntime :=
  if verdict.reached then { recovery with stored := recovery.stored.erase id } else recovery

def flushRecord (verdict : RecoveryId → StoreVerdict) (state : Option String × RecoveryRuntime)
    (record : RecoveryRecord) : Option String × RecoveryRuntime :=
  let upserted := state.2.storeUpsert (verdict record.id) record
  match (verdict record.id).result with
  | .ok () => (state.1, upserted)
  | .error error =>
    let message := s!"Document recovery failed: {error}"
    (some message, upserted.report record.id message)

def flushPending (verdict : RecoveryId → StoreVerdict) : Except String Unit × RecoveryRuntime :=
  let flushed := recovery.pending.values.foldl (flushRecord verdict)
    (none, { recovery with pending := ∅ })
  match flushed.1 with
  | some error => (.error error, flushed.2)
  | none => (.ok (), flushed.2)

def receive (step : WriterStep) : Command → RecoveryRuntime
  | .upsert record =>
    if recovery.pending.size ≥ maxPendingDocuments ∧ !recovery.pending.contains record.id then
      recovery.report record.id "Document recovery has reached its 20 document queue limit."
    else
      let held := { recovery with pending := recovery.pending.insert record.id record }
      if step.elapsed then (held.flushPending step.verdict).2 else held
  | .remove id reply =>
    let removed := { recovery with pending := recovery.pending.erase id }.storeRemove
      (step.verdict id) id
    removed.answer reply ((step.verdict id).result.map fun _ => none)
  | .flush reply =>
    let flushed := recovery.flushPending step.verdict
    flushed.2.answer reply (flushed.1.map fun _ => none)
  | .retention _ reply => recovery.answer reply (step.retained.result.map fun _ => none)
  | .claim id reply =>
    match step.verdict id, recovery.stored[id]?.or step.claimed with
    | .refused error _, _ => recovery.answer reply (.error error.text)
    | .done, none => recovery.answer reply (.ok none)
    | .done, some record =>
      if record.id ≠ id then
        recovery.answer reply (.error
          (RecoveryError.serialization "record identity does not match requested id").text)
      else
        { recovery with stored := recovery.stored.insert record.id record }.answer reply
          (.ok (some record))

/-- One turn of the writer's loop: it receives a command, or times out on an empty channel. -/
def writerStep (step : WriterStep) : RecoveryRuntime :=
  match recovery.queue with
  | command :: rest => { recovery with queue := rest }.receive step command
  | [] => (recovery.flushPending step.verdict).2

def work (steps : List WriterStep) : RecoveryRuntime :=
  steps.foldl writerStep recovery

end Writer

def trySend (command : Command) : Option RecoveryRuntime :=
  if recovery.queue.length < channelBound then
    some { recovery with queue := recovery.queue ++ [command] }
  else none

def deferredBytes : Nat := (recovery.deferred.values.map RecoveryRecord.size).sum

def admits (record : RecoveryRecord) : Bool :=
  let old := (recovery.deferred[record.id]?).elim 0 RecoveryRecord.size
  (decide (recovery.deferred.size < maxPendingDocuments) ||
      recovery.deferred.contains record.id) &&
    decide (saturatingAdd (recovery.deferredBytes - old) record.size ≤ maxDeferredBytes)

def offer (record : RecoveryRecord) : Bool × RecoveryRuntime :=
  match recovery.trySend (.upsert record) with
  | some sent => (true, { sent with deferred := recovery.deferred.erase record.id })
  | none =>
    if recovery.admits record then
      (true, { recovery with deferred := recovery.deferred.insert record.id record })
    else
      (false, { recovery with
        localError := some
          "Document recovery queue is full; the latest edit was not copied yet." })

/-- `pause` are the writer's steps before each offer. -/
def retry (pause : RecoveryId → List WriterStep) : RecoveryRuntime :=
  recovery.deferred.values.foldl
    (fun recovery record => ((recovery.work (pause record.id)).offer record).2)
    { recovery with deferred := ∅ }

def sendBounded (command : Command) :
    List (List WriterStep) → RecoveryRuntime → Except String Unit × RecoveryRuntime
  | [], recovery =>
    match recovery.trySend command with
    | some sent => (.ok (), sent)
    | none =>
      (.error "recovery writer did not accept the operation within three seconds", recovery)
  | steps :: rest, recovery =>
    match recovery.trySend command with
    | some sent => (.ok (), sent)
    | none => sendBounded command rest (recovery.work steps)

def await (command : Nat → Command) (wait : Wait) (late : String) :
    Except String (Option RecoveryRecord) × RecoveryRuntime :=
  let reply := recovery.nextReply
  match sendBounded (command reply) wait.sleeps
      ({ recovery with nextReply := reply + 1 }.work wait.early) with
  | (.error error, waited) => (.error error, waited)
  | (.ok (), sent) =>
    let worked := sent.work wait.steps
    match worked.replies.lookup reply with
    | some result => (result, worked)
    | none => (.error late, worked)

def clear (id : RecoveryId) (wait : Wait) : Except String Unit × RecoveryRuntime :=
  match { recovery with deferred := recovery.deferred.erase id }.await (.remove id) wait
      "recovery cleanup did not finish within three seconds" with
  | (.ok _, cleared) =>
    (.ok (), { cleared with records := cleared.records.filter fun record => record.id ≠ id })
  | (.error error, waited) => (.error error, waited)

def drainError : (Option String × List RecoveryId) × RecoveryRuntime :=
  ((recovery.results.foldl (fun _ result => some result.2) recovery.localError,
      recovery.results.filterMap Prod.fst),
    { recovery with localError := none, results := [] })

def flush (pause : RecoveryId → List WriterStep) (wait : Wait) :
    Except String Unit × RecoveryRuntime :=
  let retried := recovery.retry pause
  if !retried.deferred.isEmpty then
    (.error "recovery queue is still full", retried)
  else
    let flushed := retried.await .flush wait "recovery flush did not finish within three seconds"
    (flushed.1.map fun _ => (), flushed.2)

def setRetentionDays (days : Nat) (wait : Wait) : Except String Unit × RecoveryRuntime :=
  let policy : RecoveryRetention := { maxAgeDays := some days }
  let updated := recovery.await (.retention policy) wait
    "recovery retention update did not finish within three seconds"
  (updated.1.map fun _ => (), updated.2)

def claim (id : RecoveryId) (wait : Wait) :
    Except String (Option RecoveryRecord) × RecoveryRuntime :=
  recovery.await (.claim id) wait "recovery claim did not finish within three seconds"

end RecoveryRuntime

end KnotEditor.Desktop
