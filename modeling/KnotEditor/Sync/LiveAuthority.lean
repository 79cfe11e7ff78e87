import KnotEditor.Sync.SpaceAuthority

/-! A host applies each new authority snapshot to the store's writers, to the evidence it serves
and fetches, and to its routes. -/

namespace KnotEditor

inductive KnotSyncHostError
  | authority (reason : String)
  | transport (reason : String)
  deriving DecidableEq

structure TransportHost (Network Readers Sources : Type) where
  blake3 : List UInt8 → Bytes32
  bind : Bytes32 → List String → Except String Network
  seedPeers : Network → List Bytes32 → Except String Network
  join : Network → KnotSyncStore → Except String Unit
  addPeer : Network → Bytes32 → Except String Unit × Network
  removePeer : Network → Bytes32 → Except String Unit × Network
  addPeerTicket : Network → String → Except String Bytes32 × Network
  newReaders : Readers
  replaceReaders : Readers → Bytes32 → List Bytes32 → Readers
  serves : Readers → Bytes32 → Bytes32 → Bool
  sourcesFromPeers : List Bytes32 → Sources
  replaceSources : Sources → List Bytes32 → Sources
  fetchesFrom : Sources → Bytes32 → Bool

structure TransportHost.Documented {Network Readers Sources : Type}
    (transport : TransportHost Network Readers Sources) : Prop where
  readersReplaced : ∀ readers scope peers peer,
    transport.serves (transport.replaceReaders readers scope peers) scope peer = peers.contains peer
  sourcesMade : ∀ peers peer,
    transport.fetchesFrom (transport.sourcesFromPeers peers) peer = peers.contains peer
  sourcesReplaced : ∀ sources peers peer,
    transport.fetchesFrom (transport.replaceSources sources peers) peer = peers.contains peer

structure KnotEvidenceHost (Readers Sources : Type) where
  readers : Readers
  scope : Bytes32
  sources : Sources

structure KnotSyncHostConfig where
  authority : KnotSpaceAuthoritySnapshot
  relayUrls : List String

structure KnotSyncHost (Network Readers Sources : Type) where
  network : Network
  store : KnotSyncStore
  spaceId : Bytes32
  evidence : Option (KnotEvidenceHost Readers Sources)
  authority : KnotSpaceAuthoritySnapshot

namespace KnotSyncStore

def admittedWriters (store : KnotSyncStore) : List Bytes32 := store.policy.writers

def withWriters (store : KnotSyncStore) (writers : List Bytes32) : KnotSyncStore :=
  { store with policy := { store.policy with writers } }

def admitWriter (store : KnotSyncStore) (writer : Bytes32) : Bool × KnotSyncStore :=
  if writer ∈ store.policy.writers then (false, store)
  else (true, store.withWriters (writer :: store.policy.writers))

def denyWriter (store : KnotSyncStore) (writer : Bytes32) : Bool × KnotSyncStore :=
  if writer ∈ store.policy.writers then
    (true, store.withWriters (store.policy.writers.filter (· ≠ writer)))
  else (false, store)

def replaceAdmittedWriters (store : KnotSyncStore) (writers : List Bytes32) : Bool × KnotSyncStore :=
  if store.policy.writers ⊆ writers ∧ writers ⊆ store.policy.writers then (false, store)
  else (true, store.withWriters writers)

end KnotSyncStore

def validateAuthoritySource (profile : KnotEncryptionProfile) (source : KnotAuthoritySource) :
    Except KnotSyncHostError Unit :=
  match profile, source with
  | .personalVaultV1, .personalPairing => .ok ()
  | .commonsDataV1, .gemotCapabilities => .ok ()
  | .personalVaultV1, .gemotCapabilities =>
    .error (.authority "Gemot authority cannot alter a personal Knot space")
  | .commonsDataV1, .personalPairing =>
    .error (.authority "Personae pairing cannot alter a communal Knot space")

namespace PeerSet

def difference (left right : PeerSet) : List Bytes32 :=
  left.toList.filter fun peer => !right.contains peer

end PeerSet

namespace KnotSyncHost

variable {Network Readers Sources : Type}

def addRoutes (transport : TransportHost Network Readers Sources) (network : Network)
    (authority : KnotSpaceAuthoritySnapshot) : Network :=
  authority.routeHints.toList.foldl (fun network hint => (transport.addPeerTicket network hint.2).2)
    network

def openInner (transport : TransportHost Network Readers Sources) (store : KnotSyncStore)
    (signingSeed : Bytes32) (config : KnotSyncHostConfig)
    (evidence : Option (KnotEvidenceHost Readers Sources)) :
    Except KnotSyncHostError (KnotSyncHost Network Readers Sources) := do
  validateAuthoritySource store.policy.encryption config.authority.source
  let network ← (transport.bind signingSeed config.relayUrls).mapError .transport
  let network ← (transport.seedPeers network config.authority.writers.toList).mapError .transport
  let network := addRoutes transport network config.authority
  (transport.join network store).mapError .transport
  .ok { network, store, spaceId := store.policy.spaceId, evidence, authority := config.authority }

def open_ (transport : TransportHost Network Readers Sources) (store : KnotSyncStore)
    (signingSeed : Bytes32) (config : KnotSyncHostConfig) :
    Except KnotSyncHostError (KnotSyncHost Network Readers Sources) :=
  openInner transport store signingSeed config none

def evidenceHost (transport : TransportHost Network Readers Sources) (store : KnotSyncStore)
    (config : KnotSyncHostConfig) (readers : Readers) : KnotEvidenceHost Readers Sources where
  readers := transport.replaceReaders readers store.policy.spaceId
    config.authority.evidenceReaders.toList
  scope := store.policy.spaceId
  sources := transport.sourcesFromPeers config.authority.evidenceSources.toList

def openWithScopedEvidence (transport : TransportHost Network Readers Sources)
    (store : KnotSyncStore) (signingSeed : Bytes32) (config : KnotSyncHostConfig)
    (readers : Readers) : Except KnotSyncHostError (KnotSyncHost Network Readers Sources) :=
  if store.policy.encryption ≠ .personalVaultV1 then
    .error (.authority "personal pairing cannot authorize a communal Knot space")
  else
    openInner transport store signingSeed config (some (evidenceHost transport store config readers))

def openWithEvidence (transport : TransportHost Network Readers Sources) (store : KnotSyncStore)
    (signingSeed : Bytes32) (config : KnotSyncHostConfig) :
    Except KnotSyncHostError (KnotSyncHost Network Readers Sources) :=
  if store.policy.encryption ≠ .personalVaultV1 then
    .error (.authority "personal pairing cannot authorize a communal Knot space")
  else openWithScopedEvidence transport store signingSeed config transport.newReaders

def openWithCommunalEvidence (transport : TransportHost Network Readers Sources)
    (store : KnotSyncStore) (signingSeed : Bytes32) (config : KnotSyncHostConfig) :
    Except KnotSyncHostError (KnotSyncHost Network Readers Sources) :=
  let named := config.authority.writers.toList
  if store.policy.encryption ≠ .commonsDataV1 then
    .error (.authority "Gemot authority requires a communal Knot space")
  else if config.authority.source ≠ .gemotCapabilities then
    .error (.authority "communal Knot host requires Gemot capability authority")
  else if ¬ (store.admittedWriters ⊆ named ∧ named ⊆ store.admittedWriters) then
    .error (.authority "communal store writers do not match materialized Gemot authority")
  else
    openInner transport store signingSeed config
      (some (evidenceHost transport store config transport.newReaders))

/-- Apply one new authority materialization to every live consumer. A failed route call is only
logged. -/
def applyAuthority (transport : TransportHost Network Readers Sources)
    (host : KnotSyncHost Network Readers Sources) (next : KnotSpaceAuthoritySnapshot) :
    Except KnotSyncHostError Bool × KnotSyncHost Network Readers Sources :=
  match validateAuthoritySource host.store.policy.encryption next.source with
  | .error error => (.error error, host)
  | .ok () =>
    if host.authority.revision transport.blake3 = next.revision transport.blake3 then
      (.ok false, host)
    else
      let revoked := PeerSet.difference host.authority.writers next.writers
      let granted := PeerSet.difference next.writers host.authority.writers
      let store := match next.source with
        | .personalPairing =>
          let denied := revoked.foldl (fun store writer => (store.denyWriter writer).2) host.store
          granted.foldl (fun store writer => (store.admitWriter writer).2) denied
        | .gemotCapabilities => (host.store.replaceAdmittedWriters next.writers.toList).2
      let evidence := host.evidence.map fun evidence => { evidence with
        readers := transport.replaceReaders evidence.readers evidence.scope
          next.evidenceReaders.toList
        sources := transport.replaceSources evidence.sources next.evidenceSources.toList }
      let network := revoked.foldl (fun network writer => (transport.removePeer network writer).2)
        host.network
      let network := granted.foldl (fun network writer => (transport.addPeer network writer).2)
        network
      let network := addRoutes transport network next
      (.ok true, { host with network, store, evidence, authority := next })

end KnotSyncHost

end KnotEditor
