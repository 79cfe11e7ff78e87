import KnotEditor.DocumentFormat
import KnotEditor.Mark.Request
import KnotEditor.Publish
import Mathlib.Data.List.Infix

/-! The Mark read adapter: owner-selected exports, their numbered snapshots, and the index from
current content hashes to paths. -/

namespace KnotEditor.Mark

structure MarkHost where
  sha256 : ByteArray → Bytes32
  blake3 : ByteArray → Bytes32
  toMarkdown : DocumentFormat → String → ByteArray → Except String String

inductive MarkReadAccess
  | everyone
  | tokenHash (digest : Bytes32)
  deriving DecidableEq

def constantTimeEq (left right : Bytes32) : Bool :=
  (List.zip left.bytes right.bytes).foldl
    (fun difference pair => difference ||| (pair.1 ^^^ pair.2)) 0 == 0

def MarkReadAccess.allows (host : MarkHost) (access : MarkReadAccess)
    (candidate : Option String) : Bool :=
  match access with
  | .everyone => true
  | .tokenHash expected =>
    candidate.any fun candidate => constantTimeEq expected (host.sha256 candidate.toUTF8)

structure MarkVersion where
  id : Nat
  modified : MarkTimestamp
  sourceOperation : Bytes32
  sourceMediaType : String
  body : ByteArray
  stored : ByteArray
  etag : Bytes32
  contentHash : Bytes32
  deriving DecidableEq

def MarkVersion.etagText (version : MarkVersion) : String := hex32 version.etag

def MarkVersion.contentHashText (version : MarkVersion) : String :=
  s!"sha256-{hex32 version.contentHash}"

structure MarkDocument where
  access : MarkReadAccess
  publication : PublicationId
  versions : List MarkVersion
  deriving DecidableEq

structure MarkReadAdapter where
  maxDocumentBytes : Nat
  documents : Std.ExtTreeMap String MarkDocument := ∅
  currentContent : Std.ExtTreeMap Bytes32 String := ∅

structure MarkResponse where
  status : String
  metadata : List (String × String)
  body : ByteArray
  deriving DecidableEq

namespace MarkResponse

def ok (metadata : List (String × String)) (body : ByteArray) : MarkResponse :=
  { status := "ok", metadata, body }

def notModified : MarkResponse :=
  { status := "not-modified", metadata := [], body := .empty }

def notFound : MarkResponse :=
  { status := "not-found", metadata := [],
    body := "# Not found\n\nThis document is not available.\n".toUTF8 }

def badRequest : MarkResponse :=
  { status := "bad-request", metadata := [],
    body := "# Bad request\n\nThe Mark request is malformed.\n".toUTF8 }

def notPermitted : MarkResponse :=
  { status := "not-permitted", metadata := [],
    body := "# Not permitted\n\nThis Mark adapter is read-only.\n".toUTF8 }

def metadataLine (entry : String × String) : String :=
  s!"{entry.1}: {entry.2}\n"

def toWire (response : MarkResponse) : ByteArray :=
  ("---\nstatus: " ++ response.status ++ "\n" ++
    String.join (response.metadata.map metadataLine) ++ "---\n").toUTF8 ++ response.body

end MarkResponse

inductive MarkSnapshotOutcome
  | created (version : Nat)
  | unchanged (version : Nat)
  deriving DecidableEq

def healthBody : ByteArray := "# Knot Mark read adapter\n\nReady.\n".toUTF8

def previousHashLine (previous : Bytes32) : String :=
  "previous-hash: sha256-" ++ hex32 previous ++ "\n"

def markSourceLines (source : KnotPublishedDocument) : String :=
  s!"meta.mere-source-operation: {hex32 source.operation}\n" ++
    s!"meta.mere-source-body-blake3: {hex32 source.bodyDigest}\n" ++
    s!"meta.mere-source-media-type: {source.mediaType}\n" ++
    "meta.mere-projection: canonical-commonmark\n"

def versionLines (id : Nat) : String :=
  s!"---\nversion: {id}\narchived: false\n"

def markStoredHeader (id : Nat) (previousHash : Option Bytes32)
    (source : KnotPublishedDocument) : String :=
  versionLines id ++
    ((previousHash.map previousHashLine).getD "" ++ (markSourceLines source ++ "---\n"))

def markStoredVersion (id : Nat) (previousHash : Option Bytes32)
    (source : KnotPublishedDocument) (body : ByteArray) : ByteArray :=
  (markStoredHeader id previousHash source).toUTF8 ++ body

def linksTo (host : MarkHost) (previous current : MarkVersion) : Bool :=
  current.etag == host.sha256 current.stored &&
    (String.fromUTF8? current.stored).any fun stored =>
      decide ((previousHashLine previous.etag).toList <:+: stored.toList)

def markChainIsValid (host : MarkHost) : List MarkVersion → Bool
  | previous :: current :: rest =>
    linksTo host previous current && markChainIsValid host (current :: rest)
  | _ => true

namespace MarkReadAdapter

def new (maxBytes : Nat) : MarkReadAdapter :=
  { maxDocumentBytes := min maxBytes Mark.maxDocumentBytes }

def contentIndex (entries : List (String × MarkDocument)) : Std.ExtTreeMap Bytes32 String :=
  entries.foldl (fun index entry =>
    match entry.2.versions.getLast? with
    | some version => index.insertIfNew version.contentHash entry.1
    | none => index) ∅

def rebuildContentIndex (adapter : MarkReadAdapter) : MarkReadAdapter :=
  { adapter with currentContent := contentIndex adapter.documents.toList }

def configureExport (adapter : MarkReadAdapter) (path : String) (publication : PublicationId)
    (access : MarkReadAccess) : Except MarkAdapterError Unit × MarkReadAdapter :=
  match validateDocumentPath path with
  | .error error => (.error error, adapter)
  | .ok path =>
    match adapter.documents[path]? with
    | some document =>
      if document.publication ≠ publication then
        (.error .rebindPath, adapter)
      else
        (.ok (), { adapter with
          documents := adapter.documents.insert path { document with access } })
    | none =>
      (.ok (), { adapter with
        documents := adapter.documents.insert path { access, publication, versions := [] } })

def withdraw (adapter : MarkReadAdapter) (path : String) : Bool × MarkReadAdapter :=
  match adapter.documents[path]? with
  | some _ =>
    (true, rebuildContentIndex { adapter with documents := adapter.documents.erase path })
  | none => (false, adapter)

def snapshotFormat (source : KnotPublishedDocument) : Except MarkAdapterError DocumentFormat :=
  match DocumentFormat.fromMediaType source.mediaType with
  | some .knot => .ok .knot
  | some .djot => .ok .djot
  | _ => .error (.unsupportedSource source.mediaType)

def snapshotBody (host : MarkHost) (adapter : MarkReadAdapter) (document : MarkDocument)
    (source : KnotPublishedDocument) : Except MarkAdapterError ByteArray := do
  if document.publication ≠ source.publication then
    .error .publicationMismatch
  if host.blake3 source.body ≠ source.bodyDigest then
    .error .invalidSourceDigest
  let format ← snapshotFormat source
  let markdown ← (host.toMarkdown format s!"knot-publication:{source.publication.text}"
    source.body).mapError .commonMarkConversion
  let body := markdown.toUTF8
  if body.size > adapter.maxDocumentBytes then
    .error .documentTooLarge
  .ok body

def nextVersion (host : MarkHost) (versions : List MarkVersion) (source : KnotPublishedDocument)
    (modified : MarkTimestamp) (body : ByteArray) : MarkVersion :=
  let id := versions.length + 1
  let stored := markStoredVersion id (versions.getLast?.map MarkVersion.etag) source body
  { id, modified, sourceOperation := source.operation, sourceMediaType := source.mediaType,
    etag := host.sha256 stored, contentHash := host.sha256 body, body, stored }

def snapshot (host : MarkHost) (adapter : MarkReadAdapter) (path : String)
    (source : KnotPublishedDocument) (modified : MarkTimestamp) :
    Except MarkAdapterError MarkSnapshotOutcome × MarkReadAdapter :=
  match adapter.documents[path]? with
  | none => (.error .unknownExport, adapter)
  | some document =>
    match snapshotBody host adapter document source with
    | .error error => (.error error, adapter)
    | .ok body =>
      match document.versions.getLast?.filter fun current => current.body = body with
      | some current => (.ok (.unchanged current.id), adapter)
      | none =>
        if document.versions.length + 1 > usizeMax then
          (.error .versionOverflow, adapter)
        else
          let version := nextVersion host document.versions source modified body
          let grown := { document with versions := document.versions ++ [version] }
          (.ok (.created version.id),
            rebuildContentIndex { adapter with
              documents := adapter.documents.insert path grown })

def selectVersion (document : MarkDocument) (requested : Option Nat) : Option MarkVersion :=
  match requested with
  | some id => document.versions[id - 1]?
  | none => document.versions.getLast?

def versionMetadata (document : MarkDocument) (version : MarkVersion) (requested : Option Nat) :
    List (String × String) :=
  [("modified", version.modified.value), ("etag", version.etagText),
    ("version", toString version.id), ("content-hash", version.contentHashText)] ++
    match requested with
    | some _ => [("current-version", toString document.versions.length)]
    | none => []

def serveVersion (document : MarkDocument) (version : MarkVersion) (requested : Option Nat)
    (ifNoneMatch : Option String) (ifModifiedSince : Option MarkTimestamp) : MarkResponse :=
  if ifNoneMatch = some version.etagText ∨
      (ifModifiedSince.any fun since => decide (version.modified.value ≤ since.value)) then
    .notModified
  else
    .ok (versionMetadata document version requested) version.body

def fetchDocument (host : MarkHost) (document : MarkDocument) (requested : Option Nat)
    (auth ifNoneMatch : Option String) (ifModifiedSince : Option MarkTimestamp) : MarkResponse :=
  if !document.access.allows host auth then .notFound
  else
    match selectVersion document requested with
    | none => .notFound
    | some version => serveVersion document version requested ifNoneMatch ifModifiedSince

def locate (adapter : MarkReadAdapter) (path : String) : Option String :=
  match parseContentHash path with
  | some contentHash => adapter.currentContent[contentHash]?
  | none => some path

def fetch (host : MarkHost) (adapter : MarkReadAdapter) (path : String)
    (auth ifNoneMatch : Option String) (ifModifiedSince : Option MarkTimestamp) : MarkResponse :=
  if path = "/health" then
    .ok [("content-hash", s!"sha256-{hex32 (host.sha256 healthBody)}")] healthBody
  else
    match resolveMarkPath path with
    | .error _ => .notFound
    | .ok (path, requested) =>
      match (adapter.locate path).bind fun path => adapter.documents[path]? with
      | none => .notFound
      | some document =>
        fetchDocument host document requested auth ifNoneMatch ifModifiedSince

def versionLine (path : String) (version : MarkVersion) : String :=
  s!"- [v{version.id}]({path}/v{version.id}) - {version.modified.value}\n"

def versionHistory (path : String) (versions : List MarkVersion) : String :=
  s!"# Version History: {path}\n" ++ String.join (versions.reverse.map (versionLine path))

def versions (host : MarkHost) (adapter : MarkReadAdapter) (path : String)
    (auth : Option String) : MarkResponse :=
  match resolveMarkPath path with
  | .error _ => .notFound
  | .ok (_, some _) => .notFound
  | .ok (path, none) =>
    match adapter.documents[path]? with
    | none => .notFound
    | some document =>
      if !document.access.allows host auth || document.versions.isEmpty then
        .notFound
      else
        let chainValid := markChainIsValid host document.versions
        .ok ([("total", toString document.versions.length),
            ("current", toString document.versions.length),
            ("chain-valid", toString chainValid)] ++
          (if chainValid then []
            else [("chain-error", "stored version hash chain is broken")]))
          (versionHistory path document.versions).toUTF8

def respondTo (host : MarkHost) (adapter : MarkReadAdapter) : MarkRequest → MarkResponse
  | .fetch path auth ifNoneMatch ifModifiedSince =>
    adapter.fetch host path auth ifNoneMatch ifModifiedSince
  | .versions path auth => adapter.versions host path auth
  | .other _ _ => .notPermitted

def respond (host : MarkHost) (adapter : MarkReadAdapter) (request : ByteArray) : MarkResponse :=
  match decodeMarkRequest request with
  | .ok request => adapter.respondTo host request
  | .error _ => .badRequest

end MarkReadAdapter

inductive MarkAction
  | configureExport (path : String) (publication : PublicationId) (access : MarkReadAccess)
  | withdraw (path : String)
  | snapshot (path : String) (source : KnotPublishedDocument) (modified : MarkTimestamp)

def MarkAction.path : MarkAction → String
  | .configureExport path _ _ => path
  | .withdraw path => path
  | .snapshot path _ _ => path

def MarkReadAdapter.perform (host : MarkHost) (adapter : MarkReadAdapter) :
    MarkAction → MarkReadAdapter
  | .configureExport path publication access =>
    (adapter.configureExport path publication access).2
  | .withdraw path => (adapter.withdraw path).2
  | .snapshot path source modified => (adapter.snapshot host path source modified).2

end KnotEditor.Mark
