import KnotEditor.Vault

/-! Search across files on disk and sealed vault documents. The embedders, their vectors and the
record sealing belong to other crates; what produced a sealed index is recorded beside it. -/

namespace KnotEditor.Search

def diskScope : String := "knot/search/disk"
def vaultScope : String := "knot/search/vault"
def indexIdentityVersion : UInt32 := 1
def lexicalModel : String := "esp-lexical-hashing"

inductive KnotEmbeddingProvider
  | lexical
  | bertCpu
  | bertWgpu
  deriving DecidableEq

namespace KnotEmbeddingProvider

def needsWeights : KnotEmbeddingProvider → Bool
  | lexical => false
  | _ => true

def label : KnotEmbeddingProvider → String
  | lexical => "lexical"
  | bertCpu => "bert-cpu"
  | bertWgpu => "bert-wgpu"

def requiredFeature : KnotEmbeddingProvider → Option String
  | lexical => none
  | bertCpu => some "embed-bert"
  | bertWgpu => some "embed-bert-wgpu"

end KnotEmbeddingProvider

/-- The embedding crate: providers, the vectors they make and the sessions that search them. -/
structure Esp where
  Metric : Type
  Provider : Type
  Vectors : Type
  Session : Type
  Score : Type
  metricEq : DecidableEq Metric
  lexical : Nat → Except String Provider
  dimensions : Provider → Nat
  metric : Provider → Metric
  vectorsNew : Nat → Metric → Vectors
  vectorDimensions : Vectors → Nat
  vectorMetric : Vectors → Metric
  session : Provider → Session
  withIndex : Provider → Vectors → Except String Session
  ingest : Session → String → String → Except String Session
  search : Session → String → Nat → Except String (List (String × Score))
  index : Session → Vectors
  partialCmp : Score → Score → Option Ordering

instance (esp : Esp) : DecidableEq esp.Metric := esp.metricEq

structure KnotIndexIdentity (esp : Esp) where
  version : UInt32
  provider : KnotEmbeddingProvider
  model : String
  weightsDigest : Option String
  dimensions : Nat
  metric : esp.Metric
  deriving DecidableEq

variable {esp : Esp}

namespace KnotIndexIdentity

def lexical (dimensions : Nat) (metric : esp.Metric) : KnotIndexIdentity esp where
  version := indexIdentityVersion
  provider := .lexical
  model := lexicalModel
  weightsDigest := none
  dimensions
  metric

def isSameModel (identity other : KnotIndexIdentity esp) : Bool :=
  let labelIdentifies := identity.weightsDigest.isNone
  identity.version == other.version && identity.provider == other.provider &&
    identity.weightsDigest == other.weightsDigest && identity.dimensions == other.dimensions &&
    identity.metric == other.metric && (!labelIdentifies || identity.model == other.model)

def answers (identity requested : KnotIndexIdentity esp) : Bool := identity.isSameModel requested

end KnotIndexIdentity

inductive KnotSearchError (esp : Esp)
  | identityMismatch (sealed requested : KnotIndexIdentity esp)
  | weightsNotSupplied (provider : KnotEmbeddingProvider)
  | weightsUnreadable (path reason : String)
  | weightsDigestMismatch (path recorded found : String)
  | providerUnavailable (provider : KnotEmbeddingProvider) (feature : String)
  | modelLoad (provider : KnotEmbeddingProvider) (path reason : String)
  | configuration (reason : String)
  | vault (reason : String)
  | index (reason : String)

structure SearchHost (esp : Esp) where
  Path : Type
  Envelope : Type
  Cap : Type
  fileName : Path → Option String
  display : Path → String
  digestOf : Path → Except (KnotSearchError esp) String
  compiled : KnotEmbeddingProvider → Bool
  loadBert : KnotEmbeddingProvider → Path → Except String esp.Provider
  capScope : String → Except String Cap
  sealSearch : Bytes32 → KnotIndexIdentity esp → esp.Vectors → Envelope
  /-- An index beside its identity, or bare as it was sealed before identities were recorded. -/
  unsealSearch : Bytes32 → Envelope →
    Except String ((KnotIndexIdentity esp × esp.Vectors) ⊕ esp.Vectors)

variable (host : SearchHost esp)

structure KnotModelWeights where
  path : host.Path
  digest : Option String

structure KnotEmbeddingPreference where
  provider : KnotEmbeddingProvider
  weights : Option (KnotModelWeights host)

structure SearchConfig where
  dimensions : Nat
  maxFileBytes : Nat
  embedding : KnotEmbeddingPreference host

structure KnotSealedSearchIndex (esp : Esp) where
  identity : Option (KnotIndexIdentity esp)
  index : esp.Vectors

inductive SearchLane
  | disk
  | vault
  deriving DecidableEq

structure SearchHit (esp : Esp) where
  id : String
  lane : SearchLane
  score : esp.Score

structure DiskDocument where
  id : String
  title : String
  path : host.Path
  byteSize : Nat

structure SearchVault where
  vault : KnotVault
  searchIndex : Option host.Envelope

structure SearchFaults where
  loadRecord : Option String := none
  saveRecord : Option String := none

structure KnotSearch (esp : Esp) where
  identity : KnotIndexIdentity esp
  provider : esp.Provider
  disk : esp.Session

variable {host}

def KnotModelWeights.modelName (weights : KnotModelWeights host) : String :=
  (host.fileName weights.path).getD (host.display weights.path)

def KnotModelWeights.verify (weights : KnotModelWeights host) :
    Except (KnotSearchError esp) String := do
  let found ← host.digestOf weights.path
  match weights.digest with
  | some recorded =>
    if recorded ≠ found then
      .error (.weightsDigestMismatch (host.display weights.path) recorded found)
    else .ok found
  | none => .ok found

def loadModel (provider : KnotEmbeddingProvider) (weights : KnotModelWeights host) :
    Except (KnotSearchError esp) esp.Provider :=
  match provider.requiredFeature with
  | none => .error (.configuration s!"{provider.label} loads no model")
  | some feature =>
    if host.compiled provider then
      (host.loadBert provider weights.path).mapError
        (.modelLoad provider (host.display weights.path))
    else .error (.providerUnavailable provider feature)

def resolveEmbeddings (preference : KnotEmbeddingPreference host) (lexicalDimensions : Nat) :
    Except (KnotSearchError esp) (esp.Provider × KnotIndexIdentity esp) :=
  if !preference.provider.needsWeights then do
    let lexical ← (esp.lexical lexicalDimensions).mapError fun error =>
      .configuration s!"invalid Knot search configuration: {error}"
    .ok (lexical, .lexical (esp.dimensions lexical) (esp.metric lexical))
  else
    match preference.weights with
    | none => .error (.weightsNotSupplied preference.provider)
    | some weights => do
        let digest ← weights.verify
        let loaded ← loadModel preference.provider weights
        .ok (loaded, {
          version := indexIdentityVersion
          provider := preference.provider
          model := weights.modelName
          weightsDigest := some digest
          dimensions := esp.dimensions loaded
          metric := esp.metric loaded })

namespace SearchVault

variable (vault : SearchVault host)

def isLocked : Bool := vault.vault.store.isNone

def documents : List VaultDocument := vault.vault.index.documents

def storeSearchIndex (identity : KnotIndexIdentity esp) (index : esp.Vectors)
    (faults : SearchFaults) : Except String (SearchVault host) :=
  match vault.vault.store with
  | none => .error "Knot vault is locked"
  | some key =>
    match faults.saveRecord with
    | some error => .error s!"could not save Knot vault search index: {error}"
    | none => .ok { vault with searchIndex := some (host.sealSearch key identity index) }

def loadSearchIndex (faults : SearchFaults) : Except String (Option (KnotSealedSearchIndex esp)) :=
  match vault.vault.store, faults.loadRecord, vault.searchIndex with
  | none, _, _ => .error "Knot vault is locked"
  | some _, some error, _ => .error s!"could not load Knot vault search index: {error}"
  | some _, none, none => .ok none
  | some key, none, some envelope =>
    match host.unsealSearch key envelope with
    | .error error => .error s!"could not load Knot vault search index: {error}"
    | .ok (.inl (identity, index)) => .ok (some { identity := some identity, index })
    | .ok (.inr index) => .ok (some { identity := none, index })

end SearchVault

def KnotSealedSearchIndex.recorded (sealed : KnotSealedSearchIndex esp) : KnotIndexIdentity esp :=
  sealed.identity.getD
    (.lexical (esp.vectorDimensions sealed.index) (esp.vectorMetric sealed.index))

def admitSealed (sealed : KnotSealedSearchIndex esp) (requested : KnotIndexIdentity esp) :
    Except (KnotSearchError esp) esp.Vectors :=
  if sealed.recorded.answers requested then .ok sealed.index
  else .error (.identityMismatch sealed.recorded requested)

def covers (authority : Bytes32 → host.Cap → Bool) (subject : Bytes32) (scope : String) :
    Except (KnotSearchError esp) Bool := do
  let cap ← (host.capScope scope).mapError fun error =>
    .configuration s!"invalid Knot search scope: {error}"
  .ok (authority subject cap)

def ingestDisk (read : host.Path → Option String) (maxFileBytes : Nat) (session : esp.Session)
    (document : DiskDocument host) : Except (KnotSearchError esp) esp.Session :=
  let body := if document.byteSize ≤ maxFileBytes then read document.path else none
  match body with
  | none => .ok session
  | some body =>
    (esp.ingest session document.id s!"{document.title}\n{body}").mapError fun error =>
      .index s!"could not index {host.display document.path}: {error}"

def ingestVault (session : esp.Session) (document : VaultDocument) :
    Except (KnotSearchError esp) esp.Session :=
  match String.fromUTF8? document.body with
  | none => .ok session
  | some body =>
    (esp.ingest session document.id s!"{document.title}\n{body}").mapError fun error =>
      .index s!"could not index vault document {document.id}: {error}"

def hitOrder (left right : SearchHit esp) : Ordering :=
  ((esp.partialCmp right.score left.score).getD .eq).then (compare left.id right.id)

namespace KnotSearch

variable (search : KnotSearch esp)

def sealVaultIndex (vault : SearchVault host) (faults : SearchFaults) :
    Except (KnotSearchError esp) (SearchVault host) := do
  let index := esp.vectorsNew search.identity.dimensions search.identity.metric
  let empty ← (esp.withIndex search.provider index).mapError fun error =>
    .index s!"could not build Knot vault index: {error}"
  let sealed ← vault.documents.foldlM ingestVault empty
  (vault.storeSearchIndex search.identity (esp.index sealed) faults).mapError .vault

def checkSealed (vault : SearchVault host) (identity : KnotIndexIdentity esp)
    (faults : SearchFaults) : Except (KnotSearchError esp) Unit := do
  match ← (vault.loadSearchIndex faults).mapError .vault with
  | some sealed =>
    let _ ← admitSealed sealed identity
    .ok ()
  | none => .ok ()

def build (directory : List (DiskDocument host)) (read : host.Path → Option String)
    (vault : Option (SearchVault host)) (config : SearchConfig host) (faults : SearchFaults) :
    Except (KnotSearchError esp) (KnotSearch esp × Option (SearchVault host)) :=
  if vault.any SearchVault.isLocked then
    .error (.vault "cannot build the Knot vault index while locked")
  else do
    let resolved ← resolveEmbeddings config.embedding config.dimensions
    vault.forM fun vault => checkSealed vault resolved.2 faults
    let disk ← directory.foldlM (ingestDisk read config.maxFileBytes) (esp.session resolved.1)
    let search : KnotSearch esp := { identity := resolved.2, provider := resolved.1, disk }
    let left ← vault.mapM fun vault => search.sealVaultIndex vault faults
    .ok (search, left)

def rebuildVaultIndex (vault : SearchVault host) (faults : SearchFaults) :
    Except (KnotSearchError esp) (SearchVault host) :=
  if vault.isLocked then .error (.vault "cannot rebuild the Knot vault index while locked")
  else search.sealVaultIndex vault faults

def diskHits (query : String) (k : Nat) (subject : Bytes32)
    (authority : Bytes32 → host.Cap → Bool) : Except (KnotSearchError esp) (List (SearchHit esp)) := do
  if ← covers authority subject diskScope then
    let found ← (esp.search search.disk query k).mapError fun error =>
      .index s!"could not search Knot disk index: {error}"
    .ok (found.map fun hit => { id := hit.1, lane := .disk, score := hit.2 })
  else .ok []

def vaultHits (vault : SearchVault host) (query : String) (k : Nat) (faults : SearchFaults) :
    Except (KnotSearchError esp) (List (SearchHit esp)) := do
  match ← (vault.loadSearchIndex faults).mapError .vault with
  | none => .ok []
  | some sealed =>
    let index ← admitSealed sealed search.identity
    let session ← (esp.withIndex search.provider index).mapError fun error =>
      .index s!"could not open Knot vault index: {error}"
    let found ← (esp.search session query k).mapError fun error =>
      .index s!"could not search Knot vault index: {error}"
    .ok (found.map fun hit => { id := hit.1, lane := .vault, score := hit.2 })

def query (vault : Option (SearchVault host)) (query : String) (k : Nat) (subject : Bytes32)
    (authority : Bytes32 → host.Cap → Bool) (faults : SearchFaults) :
    Except (KnotSearchError esp) (List (SearchHit esp)) := do
  if k = 0 then
    .error (.configuration "Knot search result count must be positive")
  let disk ← search.diskHits query k subject authority
  let granted ← covers authority subject vaultScope
  let unlocked := vault.filter fun vault => !vault.isLocked
  let sealed ← match granted, unlocked with
    | true, some vault => search.vaultHits vault query k faults
    | _, _ => .ok []
  .ok (((disk ++ sealed).mergeSort fun left right => hitOrder left right != .gt).take k)

end KnotSearch

end KnotEditor.Search
