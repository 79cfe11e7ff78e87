import KnotEditor.Relations

/-! `did:key` naming for ed25519 verifying keys. -/

namespace KnotEditor

def base58Alphabet : List Char :=
  "123456789ABCDEFGHJKLMNPQRSTUVWXYZabcdefghijkmnopqrstuvwxyz".toList

def carryDigits (base : Nat) : Nat → Nat → List Nat
  | 0, _ => []
  | fuel + 1, carry =>
    if carry = 0 then [] else carry % base :: carryDigits base fuel (carry / base)

def pushByte : List Nat → Nat → List Nat
  | [], carry => carryDigits 58 carry carry
  | digit :: digits, carry =>
    let shifted := carry + digit * 256
    shifted % 58 :: pushByte digits (shifted / 58)

def base58btc (bytes : List UInt8) : String :=
  let leadingZeros := (bytes.takeWhile (· == 0)).length
  let digits := (bytes.drop leadingZeros).foldl (fun digits byte => pushByte digits byte.toNat) []
  String.ofList (List.replicate leadingZeros '1' ++
    digits.reverse.map fun digit => base58Alphabet.getD digit '1')

def didKey (verifyingKey : Bytes32) : String :=
  "did:key:z" ++ base58btc ([0xed, 0x01] ++ verifyingKey.bytes)

example : base58btc [0, 0, 0x28, 0x7f, 0xb4, 0xcd] = "11233QC4" := by decide

end KnotEditor

/-! Writer-defined relation predicates: identity minted once, label mutable. -/

namespace KnotEditor

def mereSubKinds : List String :=
  ["hyperlink", "user-grouped", "agent-derived", "cites", "quotes", "summarizes", "elaborates",
    "example-of", "supports", "contradicts", "questions", "same-entity-as", "duplicate-of",
    "canonical-mirror-of", "depends-on", "blocks", "next-step"]

inductive KnotPredicateReplacementV1
  | retired
  | predicate (successor : KnotPredicateRefV1)
  deriving DecidableEq

structure KnotPredicateDefinitionV1 where
  id : Bytes32
  author : Bytes32
  operation : Bytes32
  scope : Bytes32
  root : Bytes32
  iri : String
  slug : String
  label : String
  description : Option String
  subpropertyOf : Option String
  lowersTo : Option String
  supersedes : Option Bytes32
  replacedBy : Option KnotPredicateReplacementV1
  assertedAtMs : Option UInt64
  deriving DecidableEq

structure KnotRejectedPredicateV1 where
  operation : Bytes32
  author : Bytes32
  reason : String
  deriving DecidableEq

structure KnotPredicateCatalogV1 where
  definitions : List KnotPredicateDefinitionV1 := []
  rejected : List KnotRejectedPredicateV1 := []
  deriving DecidableEq

namespace KnotPredicateCatalogV1

variable (catalog : KnotPredicateCatalogV1)

def definition (id : Bytes32) : Option KnotPredicateDefinitionV1 :=
  catalog.definitions.find? fun definition => definition.id == id

def rootOf (id : Bytes32) : Option Bytes32 :=
  (catalog.definition id).map KnotPredicateDefinitionV1.root

def current (id : Bytes32) : Option KnotPredicateDefinitionV1 := do
  let root ← catalog.rootOf id
  catalog.definitions.reverse.find? fun definition => definition.root == root

def isRetired (id : Bytes32) : Bool :=
  (catalog.rootOf id).any fun root =>
    catalog.definitions.any fun definition =>
      definition.root == root && definition.replacedBy.isSome

def labelOf : KnotPredicateRefV1 → Option String
  | .core core => some core.defaultLabel
  | .defined id => (catalog.current id).map KnotPredicateDefinitionV1.label
  | .unrecognized _ => none

def iriOf : KnotPredicateRefV1 → Option String
  | .core core => some core.iri
  | .defined id => (catalog.current id).map KnotPredicateDefinitionV1.iri
  | .unrecognized _ => none

def lowersTo : KnotPredicateRefV1 → Option String
  | .core core => some core.subKind
  | .defined id => (catalog.current id).bind KnotPredicateDefinitionV1.lowersTo
  | .unrecognized _ => none

end KnotPredicateCatalogV1

/-- `str::strip_prefix`. -/
def stripStart (value start : String) : Option String :=
  if start.toList.isPrefixOf value.toList then
    some (String.ofList (value.toList.drop start.toList.length))
  else none

def mintPredicateIri (author root : Bytes32) : String :=
  let multibase := (stripStart (didKey author) "did:key:").getD ""
  s!"urn:knot:rel:{multibase}:{hex32 root}"

def isAsciiAlphabetic (character : Char) : Bool :=
  ('a' ≤ character && character ≤ 'z') || ('A' ≤ character && character ≤ 'Z')

def isAsciiDigit (character : Char) : Bool := '0' ≤ character && character ≤ '9'

def isAbsoluteIri (value : String) : Bool :=
  let characters := value.toList
  let scheme := characters.takeWhile (· != ':')
  let rest := (characters.dropWhile (· != ':')).drop 1
  !containsNul value && !characters.any isWhitespace && characters.contains ':' &&
    !rest.isEmpty && scheme.head?.any isAsciiAlphabetic &&
    scheme.all fun character =>
      isAsciiAlphabetic character || isAsciiDigit character || ['+', '-', '.'].contains character

def isSlugCharacter (character : Char) : Bool :=
  ('a' ≤ character && character ≤ 'z') || isAsciiDigit character || character == '-'

def validatePredicateDefinitionPayload (slug label : String)
    (description subpropertyOf lowersTo : Option String) : Except String Unit := do
  if slug.isEmpty || trim slug != slug || !slug.toList.all isSlugCharacter then
    .error s!"predicate slug '{slug}' must be a non-empty trimmed [a-z0-9-] identifier"
  if (KnotCorePredicateV1.fromSlug slug).isSome then
    .error s!"predicate slug '{slug}' is a core predicate"
  if label.isEmpty || trim label != label || containsNul label then
    .error "predicate label must be non-empty and trimmed"
  if let some description := description then
    if description.isEmpty || trim description != description || containsNul description then
      .error "predicate description must be non-empty and trimmed"
  if let some subpropertyOf := subpropertyOf then
    if !isAbsoluteIri subpropertyOf then
      .error s!"predicate subproperty_of '{subpropertyOf}' is not an absolute IRI"
  if let some lowersTo := lowersTo then
    if !mereSubKinds.contains lowersTo then
      .error s!"predicate lowers_to '{lowersTo}' is not a Mere sub-kind Knot knows"

example : validatePredicateDefinitionPayload "corroborates" "corroborates" none
    (some "urn:knot:rel:z6Mk:abc") (some "supports") = .ok () := by decide

end KnotEditor
