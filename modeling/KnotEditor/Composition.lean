import KnotEditor.Text

/-! Retained composition material: the items and organizations that sync events carry as JSON.
Scenes and recipes belong to other crates, so their own checks come in through `CompositionHost`. -/

namespace KnotEditor

namespace Composition

def maxStoreBytes : Nat := 16 * 1024 * 1024
def maxTextBytes : Nat := 1024 * 1024
def maxLabelBytes : Nat := 16 * 1024
def maxIdBytes : Nat := 256
def maxTags : Nat := 64
def maxTagBytes : Nat := 1024
def maxPackSources : Nat := 64

end Composition

open KnotEditor.Composition

inductive AnchorError
  | invalidAddress
  | invalidRange
  | invalidHash
  | staleSource
  | quoteMismatch
  deriving DecidableEq

def AnchorError.text : AnchorError → String
  | invalidAddress => "document address is empty or too large"
  | invalidRange => "quotation range is invalid, too large, or not a UTF-8 byte range"
  | invalidHash => "source hash is not a lowercase BLAKE3 digest"
  | staleSource => "document source differs from the captured source"
  | quoteMismatch => "original byte range no longer matches the copied quotation"

inductive CollectionError
  | malformed (reason : String)
  | invalid (reason : String)
  | anchor (error : AnchorError)
  deriving DecidableEq

def CollectionError.text : CollectionError → String
  | malformed reason => s!"collection store is malformed: {reason}"
  | invalid reason => s!"invalid collection material: {reason}"
  | anchor error => s!"invalid document provenance: {error.text}"

inductive ItemKind
  | word
  | passage
  | sense
  | pronunciation
  | note
  | projectionRecipe
  | metreAlignment
  deriving DecidableEq

structure PackSource where
  packId : String
  packVersion : String
  entryRef : String
  deriving DecidableEq

structure ByteSpan where
  start : UInt64
  finish : UInt64
  deriving DecidableEq

structure DocumentAnchor where
  documentAddress : String
  exactQuote : String
  byteSpan : ByteSpan
  sourceHash : Option String
  deriving DecidableEq

def isLowercaseHexDigit (character : Char) : Bool :=
  ('0' ≤ character && character ≤ '9') || ('a' ≤ character && character ≤ 'f')

def DocumentAnchor.validateShape (anchor : DocumentAnchor) : Except AnchorError Unit := do
  if (trim anchor.documentAddress).isEmpty ||
      maxLabelBytes < anchor.documentAddress.utf8ByteSize then
    .error .invalidAddress
  if anchor.exactQuote.isEmpty || maxTextBytes < anchor.exactQuote.utf8ByteSize ||
      anchor.byteSpan.finish < anchor.byteSpan.start ||
      anchor.byteSpan.finish.toNat - anchor.byteSpan.start.toNat
        != anchor.exactQuote.utf8ByteSize then
    .error .invalidRange
  if anchor.sourceHash.any fun hash =>
      hash.utf8ByteSize != 64 || !hash.toList.all isLowercaseHexDigit then
    .error .invalidHash

structure CollectionItem (Scene Recipe : Type) where
  id : String
  collection : String
  kind : ItemKind
  label : String
  text : String
  projectionRecipe : Option Recipe
  metreScene : Option Scene
  packSources : List PackSource
  documentSource : Option DocumentAnchor
  authorNotes : String
  tags : List String
  order : Int64
  deriving DecidableEq

structure CollectionOrganization where
  label : String
  collection : String
  authorNotes : String
  tags : List String
  order : Int64
  archived : Bool
  deriving DecidableEq

/-- What the composition crate takes from `serde_json` and from the scene crates. -/
structure CompositionHost where
  Scene : Type
  Recipe : Type
  parseItem : String → Except String (CollectionItem Scene Recipe)
  parseOrganization : String → Except String CollectionOrganization
  sceneIsMetreGrid : Scene → Bool
  validateScene : Scene → Except String Unit
  sceneJsonLength : Scene → Except String Nat
  maxSceneInputBytes : Nat
  validateRecipe : Recipe → Except CollectionError Unit

def boundedNonempty (name value : String) (max : Nat) : Except CollectionError Unit :=
  if (trim value).isEmpty || max < value.utf8ByteSize then
    .error (.invalid s!"{name} is empty or too large")
  else .ok ()

namespace CollectionItem

variable {host : CompositionHost}

def validateMetre (item : CollectionItem host.Scene host.Recipe) : Except CollectionError Unit :=
  match item.kind, item.metreScene with
  | .metreAlignment, some scene => do
      if !host.sceneIsMetreGrid scene then
        .error (.invalid "Metre alignment requires metrical facts")
      (host.validateScene scene).mapError .invalid
      let length ← (host.sceneJsonLength scene).mapError .malformed
      if host.maxSceneInputBytes < length then
        .error (.invalid "Metre scene exceeds one MiB")
  | .metreAlignment, none => .error (.invalid "Metre kind and payload must match")
  | _, some _ => .error (.invalid "Metre kind and payload must match")
  | _, none => .ok ()

def validateProjectionRecipe (item : CollectionItem host.Scene host.Recipe) :
    Except CollectionError Unit :=
  match item.kind, item.projectionRecipe with
  | .projectionRecipe, some material => host.validateRecipe material
  | .projectionRecipe, none =>
    .error (.invalid "projection recipe kind and typed payload must match")
  | _, some _ => .error (.invalid "projection recipe kind and typed payload must match")
  | _, none => .ok ()

def validate (item : CollectionItem host.Scene host.Recipe) : Except CollectionError Unit := do
  item.validateMetre
  item.validateProjectionRecipe
  boundedNonempty "item id" item.id maxIdBytes
  boundedNonempty "collection" item.collection maxIdBytes
  boundedNonempty "label" item.label maxLabelBytes
  if item.text.isEmpty || maxTextBytes < item.text.utf8ByteSize then
    .error (.invalid "copied text is empty or too large")
  if maxTextBytes < item.authorNotes.utf8ByteSize then
    .error (.invalid "author notes are too large")
  if maxTags < item.tags.length || maxPackSources < item.packSources.length then
    .error (.invalid "too many tags or pack references")
  for tag in item.tags do
    boundedNonempty "tag" tag maxTagBytes
  for source in item.packSources do
    boundedNonempty "pack id" source.packId maxLabelBytes
    boundedNonempty "pack version" source.packVersion maxLabelBytes
    boundedNonempty "pack entry reference" source.entryRef maxLabelBytes
  if let some source := item.documentSource then
    source.validateShape.mapError .anchor

end CollectionItem

def CollectionOrganization.validate (organization : CollectionOrganization) :
    Except CollectionError Unit := do
  boundedNonempty "label" organization.label maxLabelBytes
  boundedNonempty "collection" organization.collection maxIdBytes
  if maxTextBytes < organization.authorNotes.utf8ByteSize ||
      maxTags < organization.tags.length then
    .error (.invalid "organization exceeds metadata bounds")
  for tag in organization.tags do
    boundedNonempty "tag" tag maxTagBytes

end KnotEditor
