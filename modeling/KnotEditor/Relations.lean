import KnotEditor.Bytes
import KnotEditor.Text

/-! Authored relation captures, as signed events carry them and as replay projects them. -/

namespace KnotEditor

inductive KnotCorePredicateV1
  | cites
  | quotes
  | supports
  | contradicts
  | questions
  | elaborates
  | exampleOf
  | summarizes
  deriving DecidableEq

namespace KnotCorePredicateV1

def all : List KnotCorePredicateV1 :=
  [cites, quotes, supports, contradicts, questions, elaborates, exampleOf, summarizes]

def slug : KnotCorePredicateV1 → String
  | cites => "cites"
  | quotes => "quotes"
  | supports => "supports"
  | contradicts => "contradicts"
  | questions => "questions"
  | elaborates => "elaborates"
  | exampleOf => "example-of"
  | summarizes => "summarizes"

def iri (core : KnotCorePredicateV1) : String := "https://mere.computer/ns/rel#" ++ core.slug

def subKind (core : KnotCorePredicateV1) : String := core.slug

def defaultLabel : KnotCorePredicateV1 → String
  | exampleOf => "example of"
  | core => core.slug

def fromSlug (value : String) : Option KnotCorePredicateV1 :=
  all.find? fun core => core.slug == value

def fromIri (value : String) : Option KnotCorePredicateV1 :=
  all.find? fun core => core.iri == value

end KnotCorePredicateV1

inductive KnotPredicateRefV1
  | core (predicate : KnotCorePredicateV1)
  | defined (id : Bytes32)
  | unrecognized (label : String)
  deriving DecidableEq

structure KnotRelationPositionV1 where
  start : UInt64
  finish : UInt64
  deriving DecidableEq

structure KnotRelationEndpointV1 where
  documentId : String
  documentHead : Bytes32
  quote : String
  position : Option KnotRelationPositionV1
  prefixText : String
  suffixText : String
  deriving DecidableEq

structure KnotRelationRetractionV1 where
  operation : Bytes32
  author : Bytes32
  withdrawnAtMs : Option UInt64
  deriving DecidableEq

structure KnotRelationAssertionV1 where
  id : Bytes32
  author : Bytes32
  operation : Bytes32
  scope : Bytes32
  predicate : KnotPredicateRefV1
  subject : KnotRelationEndpointV1
  object : KnotRelationEndpointV1
  evidence : Option String
  qualification : Option String
  retractions : List KnotRelationRetractionV1
  assertedAtMs : Option UInt64
  deriving DecidableEq

structure KnotUnverifiedRelationV1 where
  assertion : KnotRelationAssertionV1
  reason : String
  deriving DecidableEq

structure KnotRejectedRelationV1 where
  operation : Bytes32
  author : Bytes32
  reason : String
  deriving DecidableEq

def knotRelationContextBytes : Nat := 4 * 32

def validateContext (role field value : String) : Except String Unit :=
  if containsNul value || knotRelationContextBytes < value.utf8ByteSize then
    .error s!"relation {role} {field} must be NUL-free and at most {knotRelationContextBytes} bytes"
  else .ok ()

def validateEndpoint (endpoint : KnotRelationEndpointV1) (role : String) : Except String Unit := do
  if endpoint.documentId.isEmpty || trim endpoint.documentId != endpoint.documentId ||
      containsNul endpoint.documentId then
    .error s!"relation {role} document id must be non-empty and trimmed"
  validateContext role "prefix" endpoint.prefixText
  validateContext role "suffix" endpoint.suffixText
  match endpoint.quote.isEmpty, endpoint.position with
  | true, none =>
    if !endpoint.prefixText.isEmpty || !endpoint.suffixText.isEmpty then
      .error s!"relation {role} captures context without a quote and position"
  | quoteEmpty, some position =>
    if position.finish < position.start then
      .error s!"relation {role} position ends before it starts"
    -- An empty quote with a position that is in order has no arm of its own.
    else if quoteEmpty then
      .error s!"relation {role} must capture both a quote and UTF-8 byte position, or neither"
  | false, none =>
    .error s!"relation {role} must capture both a quote and UTF-8 byte position, or neither"

def validateRelationPayload (predicate : KnotPredicateRefV1)
    (subject object : KnotRelationEndpointV1) : Except String Unit := do
  if let .unrecognized label := predicate then
    .error s!"relation predicate '{label}' is neither a core predicate nor a defined predicate"
  validateEndpoint subject "subject"
  validateEndpoint object "object"

end KnotEditor
