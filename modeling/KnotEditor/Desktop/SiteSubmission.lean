import KnotEditor.DocumentFormat
import KnotEditor.Text
import KnotEditor.Utf8
import Mathlib.Logic.Function.Basic

/-! What one document sends to a site: the Titan or Spartan composer with its reviewed bytes, and
the Micron form with its reviewed request. A send runs on its own worker, which reports once through
the channel it was given, or is lost. -/

namespace KnotEditor.SiteSubmission

structure SubmissionReceipt where
  code : Nat
  metadata : String
  body : List UInt8

structure MicronResponse where
  body : List UInt8

structure MicronSubmissionConfig where
  timeoutSeconds : Nat
  maxResponseBytes : Nat

inductive FieldKind
  | text (name : String) (masked : Bool)
  | checkbox (name value : String)
  | radio (name value : String)
  deriving DecidableEq

structure PreparedAction where
  target : String
  values : List (String × String)

structure SiteHost where
  Path : Type
  Interface : Type
  Prepared : Type
  MicronRequest : Type
  Form : Type
  target : Prepared → String
  fromSavedFile : Path → Except String ByteArray → String → String → Except String Prepared
  fromBody : String → String → ByteArray → Except String Prepared
  newMicronRequest : String → List (String × String) → MicronSubmissionConfig →
    Except String MicronRequest
  parseInterface : String → Option Interface
  formFromSource : String → Except String Form
  hasActions : Form → Bool
  fields : Form → List (FieldKind × String)
  setText : Form → Nat → String → Form × Except String Unit
  setChecked : Form → Nat → Bool → Form × Except String Unit
  prepare : Form → Nat → String → Form × Except String PreparedAction

variable (host : SiteHost)

structure Submission where
  target : String := ""
  mime : String := "text/gemini"
  body : String := ""
  token : String := ""
  prepared : Option host.Prepared := none
  receiver : Option Nat := none
  result : Option String := none
  response : Option String := none

structure MicronPreparedRequest where
  target : String
  values : List (String × String)
  masked : List String
  inputSnapshot : List String
  deriving DecidableEq

structure MicronFormEditor where
  source : String
  address : String
  form : host.Form
  inputs : List String
  prepared : Option MicronPreparedRequest

structure MicronRequest where
  form : Option (MicronFormEditor host) := none
  receiver : Option Nat := none
  next : UInt64 := 0
  active : Option (UInt64 × String × String) := none
  cancel : Option Nat := none
  result : Option String := none
  response : Option String := none

structure DocumentSite where
  micron : MicronRequest host := {}
  submission : Submission host := {}

/-- What the operations read beside the site: the document, its file, the worker's wake handle and
the environment. -/
structure Surroundings where
  source : String
  address : String
  format : DocumentFormat
  dirty : Bool
  pageDraftDirty : Bool
  sourcePath : Option host.Path
  titanSubmissionError : Option String
  submissionWake : Bool
  nomadnetTcp : Option String
  timeoutSecs : Option String
  maxResponseBytes : Option String

inductive Worker
  | submission (prepared : host.Prepared) (token : Option String)
  | micron (id : UInt64) (request : host.MicronRequest) (interface : host.Interface)
      (config : MicronSubmissionConfig)

inductive Mail
  | empty
  | submission (outcome : Except String SubmissionReceipt)
  | micron (id : UInt64) (outcome : Except String MicronResponse)
  | disconnected

inductive WorkerOutcome
  | receipt (outcome : Except String SubmissionReceipt)
  | reply (outcome : Except String MicronResponse)
  | lost

/-- A request as it goes out: the document it was opened from, and the channel it answers on. -/
structure MicronSend where
  target : String
  values : List (String × String)
  inputs : List String
  source : String
  address : String
  channel : Nat

inductive SiteEvent
  | promptSelected
  | discarded
  | prepared (value : host.Prepared)
  | tokenTyped (token : String)
  | tokenCleared
  | sent (value : host.Prepared) (token : Option String)
  | formOpened (source address : String) (inputs : List String)
  | formClosed
  | fieldTyped (inputs : List String)
  | fieldChecked
  | micronPrepared (request : MicronPreparedRequest)
  | micronDiscarded
  | micronSent (send : MicronSend)
  | micronCancelled
  | micronShown (outcome : Option (Except String MicronResponse))
  | micronFinished

structure SiteWorld where
  site : DocumentSite host
  message : Option String
  surroundings : Surroundings host
  workers : List (Worker host)
  mail : Nat → Mail
  log : List (SiteEvent host)

def responseDisplayLimit : Nat := 8 * 1024

def responseDisplay (body : List UInt8) : Option String :=
  if body.isEmpty then none
  else
    let shown := fromUtf8Lossy (body.take responseDisplayLimit)
    let suffix :=
      if responseDisplayLimit < body.length then
        s!"\n\n[Response truncated after {responseDisplayLimit} bytes; {body.length} bytes received.]"
      else ""
    some (shown ++ suffix)

def parseUnsigned (text : String) : Option Nat :=
  let digits := match text.toList with
    | '+' :: rest => rest
    | all => all
  if digits.isEmpty || !digits.all Char.isDigit then none
  else
    let value := digits.foldl (fun value digit => 10 * value + (digit.toNat - 48)) 0
    if value < 2 ^ 64 then some value else none

def envBound (raw : Option String) (fallback low high : Nat) : Nat :=
  max low (min high ((raw.bind fun value => parseUnsigned (trim value)).getD fallback))

def micronSubmissionConfig (timeoutSecs maxResponseBytes : Option String) :
    MicronSubmissionConfig where
  timeoutSeconds := envBound timeoutSecs 30 1 120
  maxResponseBytes := envBound maxResponseBytes (4 * 1024 * 1024) 1 (64 * 1024 * 1024)

variable {host}

namespace Submission

variable (submission : Submission host)

def selectSpartanPrompt (target : String) : Submission host :=
  { submission with
    target
    mime := "text/plain"
    prepared := none
    token := ""
    result := none
    response := none }

def discard : Submission host :=
  { submission with prepared := none, token := "", result := none, response := none }

def takeForSend : Except String ((host.Prepared × Option String) × Submission host) :=
  match submission.prepared with
  | none => .error "Prepare reviewed bytes before sending."
  | some prepared =>
    let token :=
      if (host.target prepared).startsWith "titan://" ∧ submission.token ≠ "" then
        some submission.token
      else none
    .ok ((prepared, token), { submission with prepared := none, token := "" })

def drain (mail : Nat → Mail) : Submission host :=
  match submission.receiver with
  | none => submission
  | some channel =>
    match mail channel with
    | .submission (.ok receipt) =>
      { submission with
        result := some
          s!"Reply {receipt.code} {receipt.metadata} ({receipt.body.length} bytes)"
        response := responseDisplay receipt.body
        receiver := none }
    | .submission (.error error) =>
      { submission with
        result := some s!"Send failed: {error}"
        response := none
        receiver := none }
    | .disconnected =>
      { submission with
        result := some "Send outcome unavailable; check target before retrying."
        response := none
        receiver := none }
    | .empty => submission
    | .micron _ _ => submission

end Submission

namespace MicronRequest

variable (micron : MicronRequest host)

def openForm (source address : String) : Except String (MicronRequest host) := do
  let form ← host.formFromSource source
  if !host.hasActions form then .error "This Micron page has no request action."
  else .ok { micron with
    form := some {
      source
      address
      form
      inputs := (host.fields form).map Prod.snd
      prepared := none } }

def closeForm : MicronRequest host :=
  if micron.receiver.isNone then { micron with form := none, result := none, response := none }
  else { micron with form := none }

def cancelledText : String :=
  "Micron request cancelled locally. Its remote outcome may be unknown; do not retry automatically."

def cancelRequest : MicronRequest host :=
  match micron.cancel with
  | none => micron
  | some _ =>
    { micron with
      cancel := none
      active := none
      result := some cancelledText
      response := none }

def setChecked (index : Nat) (checked : Bool) : Except String Unit × MicronRequest host :=
  match micron.form with
  | none => (.error "Open the Micron form first.", micron)
  | some editor =>
    match host.setChecked editor.form index checked with
    | (form, .error error) => (.error error, { micron with form := some { editor with form } })
    | (form, .ok ()) =>
      (.ok (), { micron with form := some { editor with form, prepared := none } })

def setTexts (form : host.Form) : Nat → List String → host.Form × Except String Unit
  | _, [] => (form, .ok ())
  | index, input :: rest =>
    match (host.fields form)[index]? with
    | some (.text _ _, _) =>
      match host.setText form index input with
      | (form, .error error) => (form, .error error)
      | (form, .ok ()) => setTexts form (index + 1) rest
    | _ => setTexts form (index + 1) rest

def maskedNames (form : host.Form) : List String :=
  (host.fields form).filterMap fun field =>
    match field.1 with
    | .text name true => some s!"field_{name}"
    | _ => none

def prepare (source address : String) (action : Nat) : Except String Unit × MicronRequest host :=
  match micron.form with
  | none => (.error "Open the Micron form first.", micron)
  | some editor =>
    if editor.address ≠ address then
      (.error "The page address changed. Reopen the form before preparing a request.", micron)
    else
      match setTexts editor.form 0 editor.inputs with
      | (form, .error error) => (.error error, { micron with form := some { editor with form } })
      | (filled, .ok ()) =>
        match host.prepare filled action source with
        | (form, .error error) =>
          (.error error, { micron with form := some { editor with form } })
        | (form, .ok prepared) =>
          (.ok (), { micron with form := some { editor with
            form
            prepared := some {
              target := prepared.target
              values := prepared.values
              masked := maskedNames form
              inputSnapshot := editor.inputs } } })

def sentFromCurrent (source address : String) (id : Option UInt64) : Bool :=
  micron.active.any fun active =>
    id.all (active.1 == ·) && active.2.1 == source && active.2.2 == address

def drain (mail : Nat → Mail) (source address : String) : MicronRequest host :=
  match micron.receiver with
  | none => micron
  | some channel =>
    let finished := { micron with receiver := none, active := none, cancel := none }
    match mail channel with
    | .micron id outcome =>
      if !micron.sentFromCurrent source address (some id) then finished
      else
        match outcome with
        | .ok response =>
          { finished with
            result := some s!"Micron reply ({response.body.length} bytes)"
            response := responseDisplay response.body }
        | .error error =>
          { finished with
            result := some s!"Micron request failed: {error}"
            response := none }
    | .disconnected =>
      if micron.sentFromCurrent source address none then
        { finished with
          result := some "Micron request outcome unavailable; review before retrying."
          response := none }
      else finished
    | .empty => micron
    | .submission _ => micron

end MicronRequest

def DocumentSite.busy (site : DocumentSite host) : Bool :=
  site.submission.receiver.isSome || site.micron.receiver.isSome

variable (host) in
inductive SiteAction
  | selectSpartanPrompt (target : String)
  | prepareTitan (saved : Except String ByteArray)
  | prepareSpartan
  | sendSubmission
  | discard
  | typeTarget (text : String)
  | typeMime (text : String)
  | typeBody (text : String)
  | typeToken (text : String)
  | openMicronForm
  | typeField (index : Nat) (text : String)
  | setChecked (index : Nat) (checked : Bool)
  | prepareMicronForm (action : Nat)
  | discardPrepared
  | sendMicronForm
  | cancelMicron
  | closeMicronForm
  /-- The source or address edited, the file saved, the environment changed. -/
  | change (surroundings : Surroundings host)
  | finish (channel : Nat) (outcome : WorkerOutcome)
  | drain

namespace SiteWorld

variable (world : SiteWorld host)

def say (text : String) : SiteWorld host := { world with message := some text }

def withSubmission (submission : Submission host) : SiteWorld host :=
  { world with site := { world.site with submission } }

def withMicron (micron : MicronRequest host) : SiteWorld host :=
  { world with site := { world.site with micron } }

def observe (events : List (SiteEvent host)) : SiteWorld host :=
  { world with log := world.log ++ events }

def spawn (worker : Worker host) : SiteWorld host :=
  { world with workers := world.workers ++ [worker] }

def selectSpartanPrompt (target : String) : SiteWorld host :=
  (world.withSubmission (world.site.submission.selectSpartanPrompt target)).observe
    [.promptSelected]

def discard : SiteWorld host :=
  (world.withSubmission world.site.submission.discard).observe [.discarded]

def keepPrepared (prepared : host.Prepared) : SiteWorld host :=
  (world.withSubmission { world.site.submission with
    prepared := some prepared
    result := none
    response := none }).observe [.prepared prepared]

def prepareTitan (saved : Except String ByteArray) : SiteWorld host :=
  if world.site.busy then world.say "A submission is already sending."
  else
    match world.surroundings.titanSubmissionError with
    | some error => world.say s!"Titan upload is unavailable: {error}"
    | none =>
      if world.surroundings.dirty || world.surroundings.pageDraftDirty then
        world.say "Save source and metadata before preparing Titan upload."
      else
        match world.surroundings.sourcePath with
        | none => world.say "Save the source file before preparing Titan upload."
        | some path =>
          let submission := world.site.submission
          match host.fromSavedFile path saved submission.target submission.mime with
          | .error error => world.say s!"Prepare failed: {error}"
          | .ok prepared =>
            if (host.target prepared).startsWith "titan://" then world.keepPrepared prepared
            else world.say "Titan preparation requires a titan:// target."

def clearToken : SiteWorld host :=
  (world.withSubmission { world.site.submission with token := "" }).observe [.tokenCleared]

def prepareSpartan : SiteWorld host :=
  if world.site.busy then world.say "A submission is already sending."
  else
    let submission := world.site.submission
    match host.fromBody submission.target submission.mime submission.body.toUTF8 with
    | .error error => world.clearToken.say s!"Prepare failed: {error}"
    | .ok prepared =>
      if (host.target prepared).startsWith "spartan://" then
        world.clearToken.keepPrepared prepared
      else world.clearToken.say "Spartan preparation requires a spartan:// target."

def sendSubmission : SiteWorld host :=
  if world.site.busy then world.say "A submission is already sending."
  else if !world.surroundings.submissionWake then
    world.say "Submission worker is unavailable."
  else
    match world.site.submission.takeForSend with
    | .error error => world.say error
    | .ok ((prepared, token), submission) =>
      ((world.withSubmission { submission with
        result := some "Sending reviewed bytes…"
        receiver := some world.workers.length }).spawn (.submission prepared token)).observe
          [.sent prepared token]

def openMicronForm : SiteWorld host :=
  let document := world.surroundings
  if document.format ≠ .micron then
    world.say "Micron forms are available only for a Micron document."
  else
    match world.site.micron.openForm document.source document.address with
    | .error error => world.say s!"Micron form: {error}"
    | .ok micron =>
      ((world.withMicron micron).say ("Form values are local and temporary. Prepare an action " ++
        "before any request can be considered.")).observe
          [.formOpened document.source document.address
            ((micron.form.map MicronFormEditor.inputs).getD [])]

def typeField (index : Nat) (text : String) : SiteWorld host :=
  match world.site.micron.form with
  | none => world
  | some editor =>
    let inputs := editor.inputs.set index text
    (world.withMicron { world.site.micron with form := some { editor with inputs } }).observe
      [.fieldTyped inputs]

def setChecked (index : Nat) (checked : Bool) : SiteWorld host :=
  match world.site.micron.setChecked index checked with
  | (.error error, micron) => (world.withMicron micron).say s!"Micron form: {error}"
  | (.ok (), micron) => (world.withMicron micron).observe [.fieldChecked]

def prepareMicronForm (action : Nat) : SiteWorld host :=
  let document := world.surroundings
  match world.site.micron.prepare document.source document.address action with
  | (.error error, micron) =>
    (world.withMicron micron).say s!"Micron request was not prepared: {error}"
  | (.ok (), micron) =>
    ((world.withMicron micron).say ("Request prepared locally. Knot's static preview does not " ++
      "execute Micron request handlers.")).observe
        ((micron.form.bind MicronFormEditor.prepared).toList.map .micronPrepared)

def discardPrepared : SiteWorld host :=
  match world.site.micron.form with
  | none => world
  | some editor =>
    (world.withMicron { world.site.micron with
      form := some { editor with prepared := none } }).observe [.micronDiscarded]

def sendReviewed (interface : host.Interface) : SiteWorld host :=
  let document := world.surroundings
  let micron := world.site.micron
  match micron.form with
  | none => world.say "Open and prepare a Micron form first."
  | some editor =>
    if editor.source ≠ document.source ∨ editor.address ≠ document.address then
      world.say ("The source or page address changed. Reopen and review the Micron form before " ++
        "sending.")
    else
      match editor.prepared with
      | none => world.say "Prepare the current Micron request before sending."
      | some prepared =>
        if prepared.inputSnapshot ≠ editor.inputs then
          world.say ("Field values changed after review. Prepare the request again before " ++
            "sending.")
        else
          let config := micronSubmissionConfig document.timeoutSecs document.maxResponseBytes
          match host.newMicronRequest prepared.target prepared.values config with
          | .error error => world.say s!"Micron request cannot be sent: {error}"
          | .ok request =>
            let channel := world.workers.length
            ((world.withMicron { micron with
              form := some { editor with prepared := none }
              result := some "Sending reviewed Micron request…"
              response := none
              receiver := some channel
              cancel := some channel
              next := micron.next + 1
              active := some (micron.next, editor.source, editor.address) }).spawn
                (.micron micron.next request interface config)).observe
                  [.micronSent ⟨prepared.target, prepared.values, editor.inputs,
                    editor.source, editor.address, channel⟩]

def sendMicronForm : SiteWorld host :=
  if world.site.busy then world.say "A submission is already sending."
  else if !world.surroundings.submissionWake then
    world.say "Submission worker is unavailable."
  else
    match world.surroundings.nomadnetTcp with
    | none =>
      world.say ("Set KNOT_NOMADNET_TCP to an explicit Reticulum TCP interface before sending " ++
        "a Micron request.")
    | some value =>
      match host.parseInterface value with
      | none =>
        world.say ("KNOT_NOMADNET_TCP must be a host:port interface for the remote " ++
          "Reticulum peer.")
      | some interface => world.sendReviewed interface

def cancelMicron : SiteWorld host :=
  (world.withMicron world.site.micron.cancelRequest).observe
    (if world.site.micron.cancel.isSome then [.micronCancelled] else [])

def closeMicronForm : SiteWorld host :=
  (world.withMicron world.site.micron.closeForm).observe [.formClosed]

def finish (channel : Nat) (outcome : WorkerOutcome) : SiteWorld host :=
  match world.workers[channel]?, world.mail channel, outcome with
  | some (.submission _ _), .empty, .receipt outcome =>
    { world with mail := Function.update world.mail channel (.submission outcome) }
  | some (.micron id _ _ _), .empty, .reply outcome =>
    { world with mail := Function.update world.mail channel (.micron id outcome) }
  | some _, .empty, .lost =>
    { world with mail := Function.update world.mail channel .disconnected }
  | _, _, _ => world

def drained : List (SiteEvent host) :=
  let micron := world.site.micron
  let document := world.surroundings
  match micron.receiver.map world.mail with
  | some (.micron id outcome) =>
    if micron.sentFromCurrent document.source document.address (some id) then
      [.micronShown (some outcome), .micronFinished]
    else [.micronFinished]
  | some .disconnected =>
    if micron.sentFromCurrent document.source document.address none then
      [.micronShown none, .micronFinished]
    else [.micronFinished]
  | _ => []

/-- `drain_submissions` looks only at documents that are busy. -/
def drain : SiteWorld host :=
  if world.site.busy then
    { world with
      site := {
        submission := world.site.submission.drain world.mail
        micron := world.site.micron.drain world.mail world.surroundings.source
          world.surroundings.address }
      log := world.log ++ world.drained }
  else world

def step : SiteAction host → SiteWorld host
  | .selectSpartanPrompt target => world.selectSpartanPrompt target
  | .prepareTitan saved => world.prepareTitan saved
  | .prepareSpartan => world.prepareSpartan
  | .sendSubmission => world.sendSubmission
  | .discard => world.discard
  | .typeTarget target => world.withSubmission { world.site.submission with target }
  | .typeMime mime => world.withSubmission { world.site.submission with mime }
  | .typeBody body => world.withSubmission { world.site.submission with body }
  | .typeToken token =>
    (world.withSubmission { world.site.submission with token }).observe [.tokenTyped token]
  | .openMicronForm => world.openMicronForm
  | .typeField index text => world.typeField index text
  | .setChecked index checked => world.setChecked index checked
  | .prepareMicronForm action => world.prepareMicronForm action
  | .discardPrepared => world.discardPrepared
  | .sendMicronForm => world.sendMicronForm
  | .cancelMicron => world.cancelMicron
  | .closeMicronForm => world.closeMicronForm
  | .change surroundings => { world with surroundings }
  | .finish channel outcome => world.finish channel outcome
  | .drain => world.drain

end SiteWorld

def SiteWorld.fresh (surroundings : Surroundings host) : SiteWorld host where
  site := {}
  message := none
  surroundings
  workers := []
  mail _ := .empty
  log := []

end KnotEditor.SiteSubmission
