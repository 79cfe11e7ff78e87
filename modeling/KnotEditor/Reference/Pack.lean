import KnotEditor.Library.Fallible
import KnotEditor.Text
import KnotEditor.Utf8

/-! Reference packs: lexical entries of one source and version, with the manifest they come under.
Packs hold data alone, and are checked whole before anything is made of them. -/

namespace KnotEditor.Reference

def schemaVersion : Nat := 1

structure SourceKey where
  source : String
  version : String
  deriving DecidableEq

structure ReferenceId where
  source : String
  version : String
  entry : String
  deriving DecidableEq

def ReferenceId.sourceKey (id : ReferenceId) : SourceKey := ⟨id.source, id.version⟩

inductive ReferenceFeature
  | definitions
  | examples
  | relations
  | pronunciations
  deriving DecidableEq

structure LicenseInfo where
  name : String
  text : Option String
  url : Option String
  deriving DecidableEq

structure SourceManifest where
  id : String
  version : String
  label : String
  language : String
  features : List ReferenceFeature
  license : LicenseInfo
  attribution : String
  upstream : Option String
  digest : Option String
  deriving DecidableEq

def SourceManifest.sourceKey (manifest : SourceManifest) : SourceKey :=
  ⟨manifest.id, manifest.version⟩

inductive PartOfSpeech
  | noun
  | verb
  | adjective
  | adverb
  | other
  deriving DecidableEq

inductive RelationKind
  | synonym
  | antonym
  | hypernym
  | hyponym
  | meronym
  | holonym
  | derivation
  | related
  deriving DecidableEq

structure LexicalRelation where
  kind : RelationKind
  target : ReferenceId
  targetSense : Option String
  deriving DecidableEq

structure LexicalSense where
  id : String
  conceptId : Option String
  definition : String
  examples : List String
  relations : List LexicalRelation
  deriving DecidableEq

structure Pronunciation where
  notation_ : String
  value : String
  variant : Option String
  deriving DecidableEq

structure LexicalEntry where
  id : ReferenceId
  lemma_ : String
  language : String
  partOfSpeech : Option PartOfSpeech
  senses : List LexicalSense
  pronunciations : List Pronunciation
  relations : List LexicalRelation
  deriving DecidableEq

structure NormalizedPack where
  schemaVersion : Nat
  manifest : SourceManifest
  entries : List LexicalEntry
  deriving DecidableEq

inductive ReferenceError
  | io (error : String)
  | json (error : String)
  | invalid (error : String)
  | limit (what : String)
  | digestMismatch
  | busy
  | notInstalled
  | conflict
  | commitUncertain (error : String)
  deriving DecidableEq

structure Limits where
  maxPackBytes : Nat := 32 * 1024 * 1024
  maxInstalledBytes : Nat := 128 * 1024 * 1024
  maxRegistryBytes : Nat := 1024 * 1024
  maxSources : Nat := 128
  maxEntries : Nat := 100000
  maxSenses : Nat := 200000
  maxRelations : Nat := 500000
  maxStringBytes : Nat := 16 * 1024
  maxLemmaBytes : Nat := 256
  maxQuerySources : Nat := 16
  maxLookupResults : Nat := 256

/-- What checking a pack takes from `serde_json` and `blake3`. -/
structure PackHost where
  parsePack : List UInt8 → Except String NormalizedPack
  relationJson : LexicalRelation → String
  entriesJson : List LexicalEntry → Except String (List UInt8)
  blake3Hex : List UInt8 → String

section Checks

def isAsciiAlphanumeric (character : Char) : Bool :=
  ('0' ≤ character && character ≤ '9') || ('A' ≤ character && character ≤ 'Z') ||
    ('a' ≤ character && character ≤ 'z')

def identifier (value : String) : Except ReferenceError Unit :=
  if value.isEmpty || 128 < value.utf8ByteSize || !value.toList.any isAsciiAlphanumeric ||
      !value.toList.all fun character =>
        isAsciiAlphanumeric character || character == '_' || character == '-' ||
          character == '.' then
    .error (.invalid ("identifier must be 1..128 ASCII letters, digits, '_', '-' or '.', " ++
      "with an alphanumeric character"))
  else .ok ()

def versionIdentifier (value : String) : Except ReferenceError Unit :=
  if 128 < value.utf8ByteSize then .error (.invalid "version identifier is too long")
  else (value.toList.splitOn '.').forM fun segment => identifier (String.ofList segment)

def validateReference (id : ReferenceId) : Except ReferenceError Unit := do
  identifier id.source
  versionIdentifier id.version
  identifier id.entry

def language (value : String) : Except ReferenceError Unit :=
  if 64 < value.utf8ByteSize || (value.toList.splitOn '-').any fun part =>
      part.isEmpty || !part.all isAsciiAlphanumeric then
    .error (.invalid "invalid language tag")
  else .ok ()

def text (value : String) (max : Nat) : Except ReferenceError Unit :=
  if max < value.utf8ByteSize then .error (.limit "text bytes")
  else if (trim value).isEmpty || value.toList.any fun character =>
      isControl character && character != '\n' && character != '\t' then
    .error (.invalid "empty text or control character")
  else .ok ()

def validateDigest (value : String) : Except ReferenceError Unit :=
  if value.utf8ByteSize != 64 || !value.toList.all fun character =>
      ('0' ≤ character && character ≤ '9') || ('a' ≤ character && character ≤ 'f') then
    .error (.invalid "digest must be lowercase BLAKE3 hex")
  else .ok ()

def url (value : String) (limits : Limits) : Except ReferenceError Unit := do
  text value limits.maxStringBytes
  if !("https://".toList.isPrefixOf value.toList || "http://".toList.isPrefixOf value.toList) ||
      value.toList.any isWhitespace then
    .error (.invalid "metadata URL must be HTTP(S) without whitespace")
  else .ok ()

def validateManifest (manifest : SourceManifest) (limits : Limits) :
    Except ReferenceError Unit := do
  identifier manifest.id
  versionIdentifier manifest.version
  language manifest.language
  text manifest.label limits.maxStringBytes
  text manifest.license.name limits.maxStringBytes
  text manifest.attribution limits.maxStringBytes
  manifest.license.text.forM fun value => text value limits.maxStringBytes
  manifest.license.url.forM fun value => url value limits
  manifest.upstream.forM fun value => url value limits
  manifest.digest.forM validateDigest
  if manifest.features.Nodup then .ok () else .error (.invalid "duplicate feature")

end Checks

end KnotEditor.Reference

/-! Checking a pack's bytes before anything is made of them. -/

namespace KnotEditor.Reference

structure ValidatedPack where
  pack : NormalizedPack
  deriving DecidableEq

def ValidatedPack.manifest (validated : ValidatedPack) : SourceManifest := validated.pack.manifest

def requireFeature (manifest : SourceManifest) (feature : ReferenceFeature) :
    Except ReferenceError Unit :=
  if feature ∈ manifest.features then .ok ()
  else .error (.invalid "entry data is not declared by source features")

/-- `usize::checked_add`, refused as the limit it is checked against. -/
def addWithin (what : String) (total more : Nat) : Except ReferenceError Nat :=
  if total + more ≤ usizeMax then .ok (total + more) else .error (.limit what)

structure PackTotals where
  ids : List String := []
  senses : Nat := 0
  relations : Nat := 0

def validateSense (manifest : SourceManifest) (limits : Limits) (state : List String × Nat)
    (sense : LexicalSense) : Except ReferenceError (List String × Nat) := do
  identifier sense.id
  sense.conceptId.forM identifier
  if sense.id ∈ state.1 then .error (.invalid "duplicate sense id in entry")
  text sense.definition limits.maxStringBytes
  requireFeature manifest .definitions
  sense.examples.forM fun sample => do
    text sample limits.maxStringBytes
    requireFeature manifest .examples
  let relations ← addWithin "relations" state.2 sense.relations.length
  return (sense.id :: state.1, relations)

def validatePronunciation (manifest : SourceManifest) (limits : Limits)
    (pronunciation : Pronunciation) : Except ReferenceError Unit := do
  text pronunciation.notation_ 128
  text pronunciation.value limits.maxStringBytes
  pronunciation.variant.forM fun variant => text variant limits.maxStringBytes
  requireFeature manifest .pronunciations

def validateEntry (manifest : SourceManifest) (limits : Limits) (totals : PackTotals)
    (entry : LexicalEntry) : Except ReferenceError PackTotals := do
  validateReference entry.id
  if entry.id.sourceKey ≠ manifest.sourceKey then
    .error (.invalid "entry source/version differs from manifest")
  if entry.id.entry ∈ totals.ids then .error (.invalid "duplicate entry id")
  text entry.lemma_ limits.maxLemmaBytes
  language entry.language
  if manifest.language ≠ "mul" ∧ manifest.language ≠ entry.language then
    .error (.invalid "entry language differs from source")
  let senses ← addWithin "senses" totals.senses entry.senses.length
  let relations ← addWithin "relations" totals.relations entry.relations.length
  let checked ← entry.senses.foldlM (validateSense manifest limits) ([], relations)
  entry.pronunciations.forM (validatePronunciation manifest limits)
  if limits.maxSenses < senses then .error (.limit "senses")
  if limits.maxRelations < checked.2 then .error (.limit "relations")
  return { ids := entry.id.entry :: totals.ids, senses, relations := checked.2 }

def validateRelation (pack : NormalizedPack) (relation : LexicalRelation) :
    Except ReferenceError Unit := do
  requireFeature pack.manifest .relations
  validateReference relation.target
  match pack.entries.find? fun entry => entry.id.entry = relation.target.entry with
  | none => .error (.invalid "relation target is outside this pack or missing")
  | some target =>
    if relation.target.sourceKey ≠ pack.manifest.sourceKey then
      .error (.invalid "relation target is outside this pack or missing")
    relation.targetSense.forM fun sense => do
      identifier sense
      if target.senses.any fun candidate => candidate.id = sense then .ok ()
      else .error (.invalid "relation target sense is missing from target entry")

def validateUnique (host : PackHost) (relations : List LexicalRelation) :
    Except ReferenceError Unit :=
  if (relations.map host.relationJson).Nodup then .ok ()
  else .error (.invalid "duplicate relation")

def validateRelations (host : PackHost) (pack : NormalizedPack) (entry : LexicalEntry) :
    Except ReferenceError Unit := do
  (entry.relations ++ entry.senses.flatMap LexicalSense.relations).forM (validateRelation pack)
  (entry.relations :: entry.senses.map LexicalSense.relations).forM (validateUnique host)

def digestEntries (host : PackHost) (entries : List LexicalEntry) :
    Except ReferenceError String :=
  ((host.entriesJson entries).mapError .json).map host.blake3Hex

def validatePack (host : PackHost) (pack : NormalizedPack) (expectedDigest : Option String)
    (limits : Limits) : Except ReferenceError ValidatedPack := do
  if pack.schemaVersion ≠ schemaVersion then .error (.invalid "unsupported pack schema")
  validateManifest pack.manifest limits
  match pack.manifest.digest with
  | none => .error (.invalid "installed pack requires a digest")
  | some digest =>
    expectedDigest.forM fun expected => do
      validateDigest expected
      if expected ≠ digest then .error .digestMismatch
    if limits.maxEntries < pack.entries.length then .error (.limit "entries")
    let _ ← pack.entries.foldlM (validateEntry pack.manifest limits) {}
    pack.entries.forM (validateRelations host pack)
    let computed ← digestEntries host pack.entries
    if computed ≠ digest then .error .digestMismatch
    return ⟨pack⟩

def ValidatedPack.fromJson (host : PackHost) (bytes : List UInt8)
    (expectedDigest : Option String) (limits : Limits) : Except ReferenceError ValidatedPack :=
  if limits.maxPackBytes < bytes.length then .error (.limit "pack bytes")
  else if (fromUtf8 bytes).isNone then .error (.invalid "pack is not UTF-8")
  else do
    let pack ← (host.parsePack bytes).mapError .json
    validatePack host pack expectedDigest limits

end KnotEditor.Reference
