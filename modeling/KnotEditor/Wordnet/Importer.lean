import KnotEditor.Wordnet.Parser
import Std.Data.ExtTreeSet

/-! The explicit lemma subset of a lexicon: the selected entries and those one hop from them, as a
reference pack, with a report of what is left out. -/

namespace KnotEditor.Wordnet

open Reference (LexicalEntry LexicalRelation LexicalSense LicenseInfo Limits NormalizedPack PackHost
  PartOfSpeech ReferenceError ReferenceId RelationKind SourceManifest ValidatedPack)

def maxXmlBytes : Nat := 256 * 1024 * 1024

def maxEstimatedBytes : Nat := 512 * 1024 * 1024

def maxOutputEntries : Nat := 4096

def defaultLimits : Limits := {}

structure ImportOptions where
  source : String
  version : String
  lemmas : List String

structure ImportReport where
  source : String
  version : String
  requestedLemmas : List String
  inputEntries : Nat
  outputEntries : Nat
  excludedEntries : Nat
  excludedRelations : Counts
  ignoredElements : Counts
  ignoredAttributes : Counts
  senseSynsets : Std.ExtTreeMap String String

structure ImportedWordnet where
  pack : NormalizedPack
  report : ImportReport

/-- What importing takes from the XML reader, `serde_json` and the bundled notices. -/
structure Host extends PackHost where
  events : List UInt8 → List Event
  packJson : NormalizedPack → Except String (List UInt8)
  oewnNotices : String

def relationKind : String → Option RelationKind
  | "synonym" => some .synonym
  | "antonym" => some .antonym
  | "hypernym" => some .hypernym
  | "hyponym" => some .hyponym
  | "meronym" => some .meronym
  | "holonym" => some .holonym
  | "derivation" => some .derivation
  | _ => none

def partOfSpeech (value : String) : Except ImportError PartOfSpeech :=
  if value = "n" then .ok .noun
  else if value = "v" then .ok .verb
  else if value = "a" ∨ value = "s" then .ok .adjective
  else if value = "r" then .ok .adverb
  else if value ∈ ["t", "c", "p", "x", "u", "z"] then .ok .other
  else invalid s!"unsupported part of speech: {value}"

def referenceErrorText : ReferenceError → String
  | .io error => s!"reference store I/O: {error}"
  | .json error => s!"reference JSON: {error}"
  | .invalid error => s!"invalid reference data: {error}"
  | .limit what => s!"reference limit exceeded: {what}"
  | .digestMismatch => "reference payload digest mismatch"
  | .busy => "reference registry is already open or cannot acquire a temporary name"
  | .notInstalled => "reference source is not installed"
  | .conflict => "reference source/version already has different metadata or data"
  | .commitUncertain error =>
    s!"reference commit durability uncertain; close and reopen: {error}"

def trimEndMatches (value : String) (character : Char) : String :=
  String.ofList (value.toList.reverse.dropWhile (· = character)).reverse

def unsupportedKey (kind : String) : String := "unsupported:" ++ kind

def outsideKey : String := "outside_one_hop_subset"

def memberlessKey : String := "synset_without_lexical_members"

section Indexing

structure LexiconIndex where
  excluded : Counts := ∅
  senseOwner : Std.ExtTreeMap String (Nat × RawSense) := ∅
  members : Std.ExtTreeMap String (List (Nat × RawSense)) := ∅
  entryIds : Std.ExtTreeSet String := ∅
  selected : Std.ExtTreeSet Nat := ∅
  found : Std.ExtTreeSet String := ∅

def countUnsupported (excluded : Counts) (relation : RawRelation) : Except ImportError Counts :=
  if (relationKind relation.kind).isNone then count excluded (unsupportedKey relation.kind)
  else .ok excluded

def indexSense (raw : RawWordnet) (position : Nat) (index : LexiconIndex) (sense : RawSense) :
    Except ImportError LexiconIndex := do
  let excluded ← sense.relations.foldlM countUnsupported index.excluded
  if index.senseOwner.contains sense.id then invalid s!"duplicate sense ID {sense.id}"
  if !raw.synsets.contains sense.synset then
    invalid s!"sense {sense.id} references missing synset {sense.synset}"
  return { index with
    excluded
    senseOwner := index.senseOwner.insert sense.id (position, sense)
    members := index.members.insert sense.synset
      (index.members[sense.synset]?.getD [] ++ [(position, sense)]) }

def LexiconIndex.choose (index : LexiconIndex) (options : ImportOptions) (entry : RawEntry)
    (position : Nat) : LexiconIndex :=
  if entry.lemma_ ∈ options.lemmas then
    { index with
      selected := index.selected.insert position
      found := index.found.insert entry.lemma_ }
  else index

def indexEntry (raw : RawWordnet) (options : ImportOptions) (index : LexiconIndex)
    (item : RawEntry × Nat) : Except ImportError LexiconIndex := do
  if index.entryIds.contains item.1.id then invalid s!"duplicate lexical entry ID {item.1.id}"
  let known := { index with entryIds := index.entryIds.insert item.1.id }
  item.1.senses.foldlM (indexSense raw item.2) (known.choose options item.1 item.2)

def indexLexicon (raw : RawWordnet) (options : ImportOptions) :
    Except ImportError LexiconIndex := do
  let index ← raw.entries.zipIdx.foldlM (indexEntry raw options) {}
  let excluded ← (raw.synsets.values.flatMap RawSynset.relations).foldlM countUnsupported
    index.excluded
  options.lemmas.forM fun lemma_ =>
    if index.found.contains lemma_ then .ok ()
    else invalid s!"selected lemma not found (exact case): {lemma_}"
  return { index with excluded }

end Indexing

structure Lexicon where
  options : ImportOptions
  raw : RawWordnet
  senseOwner : Std.ExtTreeMap String (Nat × RawSense)
  members : Std.ExtTreeMap String (List (Nat × RawSense))

namespace Lexicon

variable (lexicon : Lexicon)

def entryAt (position : Nat) : Except ImportError RawEntry :=
  expect lexicon.raw.entries[position]? "index out of bounds"

def synsetOf (sense : RawSense) : Except ImportError RawSynset :=
  expect lexicon.raw.synsets[sense.synset]? "no entry found for key"

def membersOf (sense : RawSense) : Except ImportError (List (Nat × RawSense)) :=
  expect lexicon.members[sense.synset]? "no entry found for key"

def ownerOf (target : String) : Except ImportError (Nat × RawSense) :=
  match lexicon.senseOwner[target]? with
  | none => invalid s!"missing sense relation target {target}"
  | some owner => .ok owner

section Selecting

abbrev Selected := Std.ExtTreeSet Nat

def selectMembers (selected : Selected) (members : List (Nat × RawSense)) : Selected :=
  members.foldl (fun selected member => selected.insert member.1) selected

def selectRelation (selected : Selected) (relation : RawRelation) : Except ImportError Selected :=
  if (relationKind relation.kind).isSome then
    (lexicon.ownerOf relation.target).map fun owner => selected.insert owner.1
  else .ok selected

def selectSynsetRelation (selected : Selected) (relation : RawRelation) :
    Except ImportError Selected :=
  if (relationKind relation.kind).isSome then
    if lexicon.raw.synsets.contains relation.target then
      .ok (selectMembers selected (lexicon.members[relation.target]?.getD []))
    else invalid s!"missing synset relation target {relation.target}"
  else .ok selected

def selectSense (selected : Selected) (sense : RawSense) : Except ImportError Selected := do
  let members ← lexicon.membersOf sense
  let linked ← sense.relations.foldlM lexicon.selectRelation (selectMembers selected members)
  let synset ← lexicon.synsetOf sense
  synset.relations.foldlM lexicon.selectSynsetRelation linked

def selectNeighbors (selected : Selected) (position : Nat) : Except ImportError Selected := do
  let entry ← lexicon.entryAt position
  let selected ← entry.senses.foldlM lexicon.selectSense selected
  if maxOutputEntries < selected.size then
    invalid "selected lemmas and one-hop neighbors exceed 4096 entries"
  return selected

end Selecting

section Projecting

structure Projection where
  budget : MemoryBudget
  outputRelations : Nat
  excluded : Counts
  relations : List LexicalRelation := []
  unique : Std.ExtTreeSet String := ∅

def Projection.exclude (projection : Projection) (key : String) : Except ImportError Projection :=
  (count projection.excluded key).map fun excluded => { projection with excluded }

def Projection.push (projection : Projection) (relation : LexicalRelation) (key : String)
    (bytes : Nat) : Except ImportError Projection := do
  let budget ← projection.budget.charge bytes
  if defaultLimits.maxRelations < projection.outputRelations + 1 then
    invalid "output relation count exceeds the reference pack limit"
  return { projection with
    budget
    outputRelations := projection.outputRelations + 1
    relations := projection.relations ++ [relation]
    unique := projection.unique.insert key }

def Projection.pushUnique (projection : Projection) (relation : LexicalRelation) (key : String)
    (bytes : Nat) : Except ImportError Projection :=
  if projection.unique.contains key then .ok projection else projection.push relation key bytes

def reference (entry : RawEntry) : ReferenceId :=
  ⟨lexicon.options.source, lexicon.options.version, entry.id⟩

variable (host : Host) (selected : Selected)

def add (kind : RelationKind) (projection : Projection) (target : Nat × RawSense) :
    Except ImportError Projection := do
  let entry ← lexicon.entryAt target.1
  let relation : LexicalRelation :=
    { kind, target := lexicon.reference entry, targetSense := some target.2.id }
  projection.pushUnique relation (host.relationJson relation)
    (512 + entry.id.utf8ByteSize + target.2.id.utf8ByteSize)

def addSynonym (sense : RawSense) (projection : Projection) (member : Nat × RawSense) :
    Except ImportError Projection :=
  if member.2.id ≠ sense.id ∧ member.1 ∈ selected then
    lexicon.add host .synonym projection member
  else .ok projection

def addOrExclude (kind : RelationKind) (projection : Projection) (owner : Nat × RawSense) :
    Except ImportError Projection :=
  if owner.1 ∈ selected then lexicon.add host kind projection owner
  else projection.exclude outsideKey

def addRelation (projection : Projection) (relation : RawRelation) :
    Except ImportError Projection :=
  match relationKind relation.kind with
  | none => .ok projection
  | some kind => do
      let owner ← lexicon.ownerOf relation.target
      lexicon.addOrExclude host selected kind projection owner

def addIncluded (kind : RelationKind) (state : Projection × Bool) (target : Nat × RawSense) :
    Except ImportError (Projection × Bool) :=
  if target.1 ∈ selected then
    (lexicon.add host kind state.1 target).map fun projection => (projection, true)
  else .ok state

def excludeUnless (state : Projection × Bool) : Except ImportError Projection :=
  if state.2 then .ok state.1 else state.1.exclude outsideKey

def addTargets (kind : RelationKind) (projection : Projection) :
    Option (List (Nat × RawSense)) → Except ImportError Projection
  | none => projection.exclude memberlessKey
  | some targets => do
      let state ← targets.foldlM (lexicon.addIncluded host selected kind) (projection, false)
      excludeUnless state

def addSynsetRelation (projection : Projection) (relation : RawRelation) :
    Except ImportError Projection :=
  match relationKind relation.kind with
  | none => .ok projection
  | some kind =>
    if lexicon.raw.synsets.contains relation.target then
      lexicon.addTargets host selected kind projection lexicon.members[relation.target]?
    else invalid s!"missing synset relation target {relation.target}"

def project (projection : Projection) (sense : RawSense) (synset : RawSynset) :
    Except ImportError Projection := do
  let members ← lexicon.membersOf sense
  let synonyms ← members.foldlM (lexicon.addSynonym host selected sense) projection
  let related ← sense.relations.foldlM (lexicon.addRelation host selected) synonyms
  synset.relations.foldlM (lexicon.addSynsetRelation host selected) related

end Projecting

section Output

structure Output where
  budget : MemoryBudget
  outputRelations : Nat := 0
  outputSenses : Nat := 0
  excluded : Counts
  senseSynsets : Std.ExtTreeMap String String := ∅

variable (host : Host) (selected : Selected)

def onlyDefinition (synset : RawSynset) : Except ImportError String :=
  match synset.definitions with
  | [definition] => .ok definition
  | _ =>
    invalid (s!"imported synset {synset.id} needs exactly one definition; " ++
      "refusing ambiguous flattening")

def outputSense (state : Output × List LexicalSense) (sense : RawSense) :
    Except ImportError (Output × List LexicalSense) := do
  let charged ← state.1.budget.charge
    (384 + sense.id.utf8ByteSize + sense.synset.utf8ByteSize)
  if defaultLimits.maxSenses < state.1.outputSenses + 1 then
    invalid "output sense count exceeds the reference pack limit"
  let synset ← lexicon.synsetOf sense
  let definition ← onlyDefinition synset
  let projection ← lexicon.project host selected
    { budget := charged
      outputRelations := state.1.outputRelations
      excluded := state.1.excluded } sense synset
  let examples := sense.examples ++ synset.examples
  let budget ← projection.budget.charge
    (definition.utf8ByteSize + (examples.map String.utf8ByteSize).sum)
  let written : LexicalSense :=
    { id := sense.id
      conceptId := some sense.synset
      definition
      examples
      relations := projection.relations }
  return ({ budget
            outputRelations := projection.outputRelations
            outputSenses := state.1.outputSenses + 1
            excluded := projection.excluded
            senseSynsets := state.1.senseSynsets.insert sense.id sense.synset },
    state.2 ++ [written])

def outputEntry (language : String) (state : Output × List LexicalEntry) (position : Nat) :
    Except ImportError (Output × List LexicalEntry) := do
  let entry ← lexicon.entryAt position
  let budget ← state.1.budget.charge (512 + entry.id.utf8ByteSize + entry.lemma_.utf8ByteSize)
  let (output, senses) ← entry.senses.foldlM (lexicon.outputSense host selected)
    ({ state.1 with budget }, [])
  let partOfSpeech ← partOfSpeech entry.pos
  let written : LexicalEntry :=
    { id := lexicon.reference entry
      lemma_ := entry.lemma_
      language
      partOfSpeech := some partOfSpeech
      senses
      pronunciations := entry.pronunciations
      relations := [] }
  return (output, state.2 ++ [written])

end Output

end Lexicon

section Manifest

variable (host : Host) (options : ImportOptions) (metadata : Attributes)

def checkOptions (maxBytes : Nat) (xml : List UInt8) : Except ImportError Unit := do
  if maxEstimatedBytes < maxBytes then
    invalid "memory budget may only lower the 512 MiB ceiling"
  if maxXmlBytes < xml.length then invalid "WN-LMF input exceeds 256 MiB"
  if (fromUtf8 xml).isNone then invalid "WN-LMF input must be UTF-8"
  if options.source.isEmpty ∨ 128 < options.source.utf8ByteSize ∨ options.version.isEmpty ∨
      128 < options.version.utf8ByteSize then
    invalid "explicit source and version must be 1..128 bytes"
  if options.lemmas.isEmpty ∨ 64 < options.lemmas.length then
    invalid "explicitly select between 1 and 64 lemmas"
  options.lemmas.forM fun lemma_ =>
    if (trim lemma_).isEmpty ∨ 256 < lemma_.utf8ByteSize then
      invalid "selected lemma is empty or exceeds 256 UTF-8 bytes"
    else .ok ()

def checkIdentity : Except ImportError Unit := do
  let id ← required metadata "id"
  let version ← required metadata "version"
  if id ≠ options.source ∨ version ≠ options.version then
    invalid "explicit source/version differs from the XML Lexicon identity"
  else .ok ()

def licenseOf (licenseUrl : String) : Except ImportError LicenseInfo :=
  if options.source = "oewn" then
    if trimEndMatches licenseUrl '/' ∈ ["https://creativecommons.org/licenses/by/4.0",
        "http://creativecommons.org/licenses/by/4.0"] then
      .ok { name := "Princeton WordNet License and CC BY 4.0 (Open English WordNet)"
            text := some host.oewnNotices
            url := some licenseUrl }
    else
      invalid ("OEWN declares an unreviewed license; refusing to apply the bundled paired " ++
        "notices")
  else
    .ok { name := "License declared by source WN-LMF Lexicon"
          text := none
          url := some licenseUrl }

def attributionOf (label : String) : String :=
  if options.source = "oewn" then
    s!"Princeton University WordNet; The Open English WordNet Team, edition {options.version}. " ++
      "Explicit lemma subset converted by Knot; see license notices and exclusion report." ++
      ((metadata["citation"]?.map fun value => s!" Source citation: {value}").getD "")
  else
    (metadata["citation"]?.filter fun value => !(trim value).isEmpty).getD
      s!"{label} {options.version}"

def manifestOf (language : String) (license : LicenseInfo) (entries : List LexicalEntry) :
    Except ImportError SourceManifest := do
  let label ← required metadata "label"
  let digest ← (Reference.digestEntries host.toPackHost entries).mapError fun error =>
    .invalid (referenceErrorText error)
  return { id := options.source
           version := options.version
           label := s!"{label} (explicit lemma subset)"
           language
           features := [.definitions, .examples, .relations, .pronunciations]
           license
           attribution := attributionOf options metadata label
           upstream := metadata["url"]?
           digest := some digest }

end Manifest

def checkWritten (host : Host) (budget : MemoryBudget) (pack : NormalizedPack) :
    Except ImportError Unit := do
  let json ← (host.packJson pack).mapError .invalid
  if defaultLimits.maxPackBytes < json.length then
    invalid "output exceeds the 32 MiB reference pack limit"
  let _ ← budget.charge (min (json.length * 2) usizeMax)
  let checked := (ValidatedPack.fromJson host.toPackHost json none defaultLimits).map fun _ => ()
  checked.mapError fun error => .invalid (referenceErrorText error)

def convert (host : Host) (options : ImportOptions) (maxBytes : Nat) (raw : RawWordnet) :
    Except ImportError (Lexicon.Output × List LexicalEntry × SourceManifest) := do
  checkIdentity options raw.metadata
  let language ← required raw.metadata "language"
  let licenseUrl ← required raw.metadata "license"
  let license ← licenseOf host options licenseUrl
  let index ← indexLexicon raw options
  let lexicon : Lexicon := ⟨options, raw, index.senseOwner, index.members⟩
  let selected ← index.selected.toList.foldlM lexicon.selectNeighbors index.selected
  let (output, entries) ← selected.toList.foldlM (lexicon.outputEntry host selected language)
    ({ budget := ⟨raw.retainedBytes, maxBytes⟩, excluded := index.excluded }, [])
  let manifest ← manifestOf host options raw.metadata language license entries
  return (output, entries, manifest)

def importRaw (host : Host) (options : ImportOptions) (maxBytes : Nat) (raw : RawWordnet) :
    Except ImportError ImportedWordnet := do
  let (output, entries, manifest) ← convert host options maxBytes raw
  let pack : NormalizedPack := ⟨Reference.schemaVersion, manifest, entries⟩
  checkWritten host output.budget pack
  return { pack
           report :=
             { source := options.source
               version := options.version
               requestedLemmas := options.lemmas
               inputEntries := raw.entries.length
               outputEntries := entries.length
               excludedEntries := raw.entries.length - entries.length
               excludedRelations := output.excluded
               ignoredElements := raw.ignoredElements
               ignoredAttributes := raw.ignoredAttributes
               senseSynsets := output.senseSynsets } }

def importWordnetWithBudget (host : Host) (xml : List UInt8) (options : ImportOptions)
    (maxBytes : Nat) : Except ImportError ImportedWordnet := do
  checkOptions options maxBytes xml
  let raw ← parse xml.length maxBytes (host.events xml)
  importRaw host options maxBytes raw

end KnotEditor.Wordnet
