import KnotEditor.Publish

/-! The resident host of one publishing service: the steps of every accepted session between the
owner's changes to the catalog, the revocations and the clock. -/

namespace KnotEditor

structure KnotPublishHostLimits where
  wire : PublishWireLimits := {}
  maxConcurrentSessions : UInt32 := 8

structure PublishService where
  host : SyncHost
  codec : PublishCodec
  limits : KnotPublishHostLimits

/-- How a session ends. A failed one met an error of the stream, the codec or the store, or was
cancelled. -/
inductive KnotPublishServeOutcome (Lapse : Type)
  | responded
  | capacityExhausted
  | lapsed (lapse : Lapse)
  | failed

structure PublishDraft where
  request : PublishRequest
  selectedSource : Option String
  response : PublishResponse

structure PublishAnswer (Ledger : Type) where
  draft : PublishDraft
  ledger : Ledger
  catalog : KnotPublishCatalog
  nowMs : UInt64
  response : PublishResponse

/-- Where a session stands in `accept_and_serve`. From `reserved` to `finished` it holds a slot, from
`ledgerHeld` to `writing` a read guard on the revocations, and from `guarded` on one on the catalog. -/
inductive ServePhase (Ledger Lapse : Type)
  | arrived
  | counted (current : UInt32)
  | reserved
  | clocked (nowMs : UInt64)
  | standing (nowMs : UInt64)
  | requested (nowMs : UInt64) (request : PublishRequest)
  | ledgerRead (nowMs : UInt64) (request : PublishRequest) (initialLedger : Ledger)
  | catalogRead (nowMs : UInt64) (request : PublishRequest) (initialLedger : Ledger)
      (initialCatalog : KnotPublishCatalog)
  | materialized (draft : PublishDraft)
  | ledgerHeld (draft : PublishDraft)
  | guarded (draft : PublishDraft)
  | timed (draft : PublishDraft) (nowMs : UInt64)
  | writing (answer : PublishAnswer Ledger)
  | finished (outcome : KnotPublishServeOutcome Lapse) (answer : Option (PublishAnswer Ledger))
  | ended (outcome : KnotPublishServeOutcome Lapse) (answer : Option (PublishAnswer Ledger))

namespace ServePhase

variable {Ledger Lapse : Type}

def holdsSlot : ServePhase Ledger Lapse → Bool
  | arrived => false
  | counted _ => false
  | ended _ _ => false
  | _ => true

def holdsLedger : ServePhase Ledger Lapse → Bool
  | ledgerHeld _ => true
  | guarded _ => true
  | timed _ _ => true
  | writing _ => true
  | _ => false

def holdsCatalog : ServePhase Ledger Lapse → Bool
  | guarded _ => true
  | timed _ _ => true
  | writing _ => true
  | _ => false

def answer : ServePhase Ledger Lapse → Option (PublishAnswer Ledger)
  | writing answer => some answer
  | finished _ answer => answer
  | ended _ answer => answer
  | _ => none

end ServePhase

structure PublishSession (Ledger Lapse : Type) where
  authority : RetainedAuthority Ledger Lapse
  phase : ServePhase Ledger Lapse := .arrived

structure KnotPublishHost (Ledger Lapse : Type) where
  catalog : KnotPublishCatalog
  revocations : Ledger
  clock : UInt64
  activeSessions : UInt32 := 0
  sessions : List (PublishSession Ledger Lapse) := []

/-- What a session's step meets outside the host: the next frame of its stream, the store as it then
is, and whether the stream takes the response. -/
structure ServeMeets where
  frame : Option ByteArray := none
  store : KnotSyncStore
  vault : SyncVault
  written : Bool := true

section Serve

variable {Ledger Lapse : Type} (service : PublishService)

def materialize (authority : RetainedAuthority Ledger Lapse) (meets : ServeMeets) (nowMs : UInt64)
    (initialLedger : Ledger) (initialCatalog : KnotPublishCatalog) :
    PublishRequest → Except KnotPublishError PublishResponse
  | .list => .ok (.catalog (initialCatalog.list authority initialLedger nowMs))
  | .getCurrent publication =>
    (initialCatalog.getCurrent service.host meets.store meets.vault authority initialLedger nowMs
      publication).map KnotPublishRead.response
  | .getVersion publication operation =>
    (initialCatalog.getVersion service.host meets.store meets.vault authority initialLedger nowMs
      publication operation).map KnotPublishRead.response

def drafted (authority : RetainedAuthority Ledger Lapse) (meets : ServeMeets) (nowMs : UInt64)
    (initialLedger : Ledger) (initialCatalog : KnotPublishCatalog) (request : PublishRequest) :
    Except KnotPublishError PublishDraft :=
  (materialize service authority meets nowMs initialLedger initialCatalog request).map
    fun response =>
      { request
        selectedSource := request.publication.bind fun publication =>
          initialCatalog.publications[publication]?.map KnotPublication.sourceDocument
        response }

def finalResponse (authority : RetainedAuthority Ledger Lapse) (ledger : Ledger)
    (catalog : KnotPublishCatalog) (nowMs : UInt64) (draft : PublishDraft) : PublishResponse :=
  match draft.request.publication with
  | none => .catalog (catalog.list authority ledger nowMs)
  | some publication =>
    if (catalog.publications[publication]?).any fun selection =>
        some selection.sourceDocument == draft.selectedSource then draft.response
    else .notAvailable

def withinLimits (response : PublishResponse) : Except PublishWireError PublishResponse :=
  match encodeResponse service.codec service.limits.wire response with
  | .ok _ => .ok response
  | .error .responseLimit | .error .tooLarge =>
    (encodeResponse service.codec service.limits.wire .notAvailable).map fun _ => .notAvailable
  | .error error => .error error

def advance (host : KnotPublishHost Ledger Lapse) (meets : ServeMeets)
    (session : PublishSession Ledger Lapse) : ServePhase Ledger Lapse × UInt32 :=
  match session.phase with
  | .arrived => (.counted host.activeSessions, host.activeSessions)
  | .counted current =>
    if current ≥ service.limits.maxConcurrentSessions then
      (.ended .capacityExhausted none, host.activeSessions)
    else if host.activeSessions = current then (.reserved, current + 1)
    else (.arrived, host.activeSessions)
  | .reserved => (.clocked host.clock, host.activeSessions)
  | .clocked nowMs =>
    match session.authority.lapse host.revocations nowMs with
    | some lapse => (.finished (.lapsed lapse) none, host.activeSessions)
    | none => (.standing nowMs, host.activeSessions)
  | .standing nowMs =>
    match meets.frame.map (decodeRequest service.codec service.limits.wire) with
    | some (.ok request) => (.requested nowMs request, host.activeSessions)
    | _ => (.finished .failed none, host.activeSessions)
  | .requested nowMs request => (.ledgerRead nowMs request host.revocations, host.activeSessions)
  | .ledgerRead nowMs request initialLedger =>
    (.catalogRead nowMs request initialLedger host.catalog, host.activeSessions)
  | .catalogRead nowMs request initialLedger initialCatalog =>
    match drafted service session.authority meets nowMs initialLedger initialCatalog request with
    | .ok draft => (.materialized draft, host.activeSessions)
    | .error _ => (.finished .failed none, host.activeSessions)
  | .materialized draft => (.ledgerHeld draft, host.activeSessions)
  | .ledgerHeld draft => (.guarded draft, host.activeSessions)
  | .guarded draft => (.timed draft host.clock, host.activeSessions)
  | .timed draft nowMs =>
    match session.authority.lapse host.revocations nowMs with
    | some lapse => (.finished (.lapsed lapse) none, host.activeSessions)
    | none =>
      match withinLimits service
          (finalResponse session.authority host.revocations host.catalog nowMs draft) with
      | .ok response =>
        (.writing ⟨draft, host.revocations, host.catalog, nowMs, response⟩,
          host.activeSessions)
      | .error _ => (.finished .failed none, host.activeSessions)
  | .writing answer =>
    (.finished (if meets.written then .responded else .failed) (some answer), host.activeSessions)
  | .finished outcome answer => (.ended outcome answer, host.activeSessions - 1)
  | .ended outcome answer => (.ended outcome answer, host.activeSessions)

def abandon (host : KnotPublishHost Ledger Lapse) (session : PublishSession Ledger Lapse) :
    ServePhase Ledger Lapse × UInt32 :=
  match session.phase with
  | .finished outcome answer => (.ended outcome answer, host.activeSessions - 1)
  | .ended outcome answer => (.ended outcome answer, host.activeSessions)
  | phase =>
    (.ended .failed phase.answer,
      if phase.holdsSlot then host.activeSessions - 1 else host.activeSessions)

end Serve

inductive PublishAction (Ledger Lapse : Type)
  | arrive (authority : RetainedAuthority Ledger Lapse)
  | proceed (session : Nat) (meets : ServeMeets)
  | abandon (session : Nat)
  | publishAs (id : PublicationId) (sourceDocument : String)
  | unpublish (id : PublicationId)
  | revoke (ledger : Ledger)
  | tick (nowMs : UInt64)

namespace KnotPublishHost

variable {Ledger Lapse : Type} (service : PublishService) (host : KnotPublishHost Ledger Lapse)

def moved (index : Nat) (move : PublishSession Ledger Lapse → ServePhase Ledger Lapse × UInt32) :
    KnotPublishHost Ledger Lapse :=
  match host.sessions[index]? with
  | none => host
  | some session =>
    { host with
      activeSessions := (move session).2
      sessions := host.sessions.set index { session with phase := (move session).1 } }

/-- A change waits while a session holds a read guard on what it changes. The clock never goes
back. -/
def step : PublishAction Ledger Lapse → KnotPublishHost Ledger Lapse
  | .arrive authority => { host with sessions := host.sessions ++ [{ authority }] }
  | .proceed index meets => host.moved index (advance service host meets)
  | .abandon index => host.moved index (KnotEditor.abandon host)
  | .publishAs id sourceDocument =>
    if host.sessions.any fun session => session.phase.holdsCatalog then host
    else { host with catalog := host.catalog.publishAs id sourceDocument }
  | .unpublish id =>
    if host.sessions.any fun session => session.phase.holdsCatalog then host
    else { host with catalog := host.catalog.unpublish id }
  | .revoke ledger =>
    if host.sessions.any fun session => session.phase.holdsLedger then host
    else { host with revocations := ledger }
  | .tick nowMs => if host.clock ≤ nowMs then { host with clock := nowMs } else host

def run (actions : List (PublishAction Ledger Lapse)) : KnotPublishHost Ledger Lapse :=
  actions.foldl (fun host action => host.step service action) host

end KnotPublishHost

end KnotEditor
