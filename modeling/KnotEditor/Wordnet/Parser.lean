import KnotEditor.Reference.Pack
import Mathlib.Algebra.GroupWithZero.Nat
import Std.Data.ExtTreeMap

/-! The WN-LMF reader: a stack of open elements, the parts that are being built, and counts of what
the subset leaves out. The events come from an XML reader, decoded. -/

namespace KnotEditor.Wordnet

open Reference (Pronunciation)

def maxDiagnosticKeys : Nat := 1024

def maxXmlEntries : Nat := 300000

def maxXmlSynsets : Nat := 200000

def maxXmlSenses : Nat := 500000

def maxXmlRelations : Nat := 2000000

def maxStringBytes : Nat := 16 * 1024

/-- How reading or importing ends without a result: refused, or by an `expect` that fires. -/
inductive ImportError
  | invalid (message : String)
  | panicked (message : String)
  deriving DecidableEq

def invalid {α : Type} (message : String) : Except ImportError α := .error (.invalid message)

def expect {α : Type} (value : Option α) (message : String) : Except ImportError α :=
  match value with
  | none => .error (.panicked message)
  | some value => .ok value

abbrev Attributes := Std.ExtTreeMap String String

abbrev Counts := Std.ExtTreeMap String Nat

structure RawRelation where
  kind : String
  target : String

structure RawSense where
  id : String
  synset : String
  relations : List RawRelation := []
  examples : List String := []

structure RawEntry where
  id : String
  lemma_ : String := ""
  pos : String := ""
  senses : List RawSense := []
  pronunciations : List Pronunciation := []

structure RawSynset where
  id : String
  definitions : List String := []
  examples : List String := []
  relations : List RawRelation := []

structure RawWordnet where
  metadata : Attributes
  entries : List RawEntry
  synsets : Std.ExtTreeMap String RawSynset
  ignoredElements : Counts
  ignoredAttributes : Counts
  retainedBytes : Nat

structure MemoryBudget where
  used : Nat
  limit : Nat

def MemoryBudget.charge (budget : MemoryBudget) (bytes : Nat) : Except ImportError MemoryBudget :=
  if usizeMax < budget.used + bytes then invalid "retained-memory budget exceeded"
  else if budget.limit < budget.used + bytes then
    invalid "estimated retained-memory budget exceeded"
  else .ok { budget with used := budget.used + bytes }

abbrev AttributeEvent := Except String (String × Except String String)

/-- What the XML reader hands out. `failed` is whatever it, or the decoding of it, refuses. -/
inductive Event
  | start (name : String) (attributes : List AttributeEvent)
  | empty (name : String) (attributes : List AttributeEvent)
  | end_ (name : String)
  | text (value : String)
  | docType (internal : Bool)
  | declaration (encoding : Option String)
  | comment
  | processingInstruction
  | failed (message : String)

def required (attributes : Attributes) (name : String) : Except ImportError String :=
  match attributes[name]?.filter fun value => !(trim value).isEmpty with
  | none => invalid s!"missing required WN-LMF attribute {name}"
  | some value => .ok value

def count (counts : Counts) (key : String) : Except ImportError Counts :=
  if !counts.contains key && maxDiagnosticKeys ≤ counts.size then
    invalid "distinct diagnostic names exceed 1024"
  else .ok (counts.insert key (counts[key]?.getD 0 + 1))

def readAttribute (values : Attributes) : AttributeEvent → Except ImportError Attributes
  | .error message => invalid message
  | .ok (name, decoded) =>
    if 128 < name.utf8ByteSize then invalid "XML attribute name exceeds 128 bytes"
    else match decoded with
      | .error message => invalid message
      | .ok value =>
        if name ∈ ["id", "synset", "target"] ∧ 128 < value.utf8ByteSize then
          invalid "WN-LMF identity/reference exceeds 128 bytes"
        else if maxStringBytes < value.utf8ByteSize ∨ 64 ≤ values.size then
          invalid "WN-LMF attribute size/count limit exceeded"
        else if values.contains name then invalid "duplicate XML attribute"
        else .ok (values.insert name value)

def attributes (event : List AttributeEvent) : Except ImportError Attributes :=
  event.foldlM readAttribute ∅

inductive Placement
  | resource
  | lexicon
  | entry
  | lemma_
  | sense
  | synset
  | senseRelation
  | synsetRelation
  | definition
  | sample
  | pronunciation
  | external
  | misplaced
  | unsupported
  | ignored
  deriving DecidableEq

def lexicalNames : List String :=
  ["LexicalResource", "Lexicon", "LexicalEntry", "Lemma", "Sense", "Synset", "SenseRelation",
    "SynsetRelation", "Definition", "Example", "Pronunciation"]

def externalNames : List String :=
  ["LexiconExtension", "ExternalLexicalEntry", "ExternalSynset", "ExternalSense"]

def classify (name : String) (parent : Option String) : Placement :=
  if name = "LexicalResource" ∧ parent = none then .resource
  else if name = "Lexicon" ∧ parent = some "LexicalResource" then .lexicon
  else if name = "LexicalEntry" ∧ parent = some "Lexicon" then .entry
  else if name = "Lemma" ∧ parent = some "LexicalEntry" then .lemma_
  else if name = "Sense" ∧ parent = some "LexicalEntry" then .sense
  else if name = "Synset" ∧ parent = some "Lexicon" then .synset
  else if name = "SenseRelation" ∧ parent = some "Sense" then .senseRelation
  else if name = "SynsetRelation" ∧ parent = some "Synset" then .synsetRelation
  else if name = "Definition" ∧ parent = some "Synset" then .definition
  else if name = "Example" ∧ (parent = some "Sense" ∨ parent = some "Synset") then .sample
  else if name = "Pronunciation" ∧ parent = some "Lemma" then .pronunciation
  else if name ∈ externalNames then .external
  else if name ∈ lexicalNames then .misplaced
  else if parent = none ∨ parent = some "LexicalResource" ∨ parent = some "Definition" ∨
      parent = some "Example" ∨ parent = some "Pronunciation" then .unsupported
  else .ignored

def Placement.consumed : Placement → List String
  | .resource => ["xmlns:dc"]
  | .lexicon => ["id", "version", "language", "label", "license", "citation", "url"]
  | .entry => ["id"]
  | .lemma_ => ["writtenForm", "partOfSpeech"]
  | .sense => ["id", "synset"]
  | .synset => ["id"]
  | .senseRelation => ["relType", "target"]
  | .synsetRelation => ["relType", "target"]
  | .pronunciation => ["notation", "variety"]
  | _ => []

def Placement.cost : Placement → Option Nat
  | .entry => some 512
  | .sense => some 384
  | .synset => some 512
  | .senseRelation => some 160
  | .synsetRelation => some 160
  | _ => none

structure Reading where
  metadata : Attributes := ∅
  entries : List RawEntry := []
  synsets : Std.ExtTreeMap String RawSynset := ∅
  stack : List String := []
  entry : Option RawEntry := none
  sense : Option RawSense := none
  synset : Option RawSynset := none
  text : String := ""
  pronunciationAttributes : Attributes := ∅
  lexicons : Nat := 0
  roots : Nat := 0
  senses : Nat := 0
  relations : Nat := 0

structure ReaderState extends Reading where
  budget : MemoryBudget
  ignoredElements : Counts := ∅
  ignoredAttributes : Counts := ∅
  ignoredDepth : Option Nat := none

def rawRelation (attributes : Attributes) : Except ImportError RawRelation := do
  let kind ← required attributes "relType"
  let target ← required attributes "target"
  return { kind, target }

def Reading.begin (reading : Reading) (name : String) (attributes : Attributes) :
    Placement → Except ImportError Reading
  | .resource =>
    if reading.roots + 1 ≠ 1 then invalid "multiple XML roots"
    else .ok { reading with roots := reading.roots + 1 }
  | .lexicon =>
    if reading.lexicons + 1 ≠ 1 then
      invalid "multiple lexicons are unsupported; choose one local source"
    else .ok { reading with lexicons := reading.lexicons + 1, metadata := attributes }
  | .entry => do
      let id ← required attributes "id"
      return { reading with entry := some { id } }
  | .lemma_ => do
      let current ← expect reading.entry "entry parent"
      if !current.lemma_.isEmpty then invalid "multiple Lemma elements"
      let lemma_ ← required attributes "writtenForm"
      let pos ← required attributes "partOfSpeech"
      return { reading with entry := some { current with lemma_, pos } }
  | .sense => do
      let id ← required attributes "id"
      let synset ← required attributes "synset"
      if maxXmlSenses < reading.senses + 1 then invalid "XML sense limit exceeded"
      return { reading with sense := some { id, synset }, senses := reading.senses + 1 }
  | .synset => do
      let id ← required attributes "id"
      return { reading with synset := some { id } }
  | .senseRelation => do
      let current ← expect reading.sense "sense parent"
      let relation ← rawRelation attributes
      return { reading with
        sense := some { current with relations := current.relations ++ [relation] }
        relations := reading.relations + 1 }
  | .synsetRelation => do
      let current ← expect reading.synset "synset parent"
      let relation ← rawRelation attributes
      return { reading with
        synset := some { current with relations := current.relations ++ [relation] }
        relations := reading.relations + 1 }
  | .definition => .ok { reading with text := "" }
  | .sample => .ok { reading with text := "" }
  | .pronunciation => .ok { reading with text := "", pronunciationAttributes := attributes }
  | .external =>
    invalid "external/extended lexicons are unsupported; references must be local"
  | .misplaced => invalid s!"invalid WN-LMF element placement: {name}"
  | .unsupported => invalid s!"unsupported important WN-LMF element: {name}"
  | .ignored => .ok reading

def Reading.finish (reading : Reading) (name : String) : Except ImportError Reading :=
  if name = "LexicalEntry" then do
    let value ← expect reading.entry "entry opened"
    if value.lemma_.isEmpty then invalid "lexical entry has no lemma"
    if maxXmlEntries < reading.entries.length + 1 then invalid "XML entry count exceeded"
    return { reading with entry := none, entries := reading.entries ++ [value] }
  else if name = "Sense" then do
    let current ← expect reading.entry "entry parent"
    let value ← expect reading.sense "sense opened"
    return { reading with
      entry := some { current with senses := current.senses ++ [value] }
      sense := none }
  else if name = "Synset" then do
    let value ← expect reading.synset "synset opened"
    if reading.synsets.contains value.id then invalid "duplicate synset ID"
    let synsets := reading.synsets.insert value.id value
    if maxXmlSynsets < synsets.size then invalid "XML synset count exceeded"
    return { reading with synset := none, synsets }
  else if name = "Definition" then do
    let current ← expect reading.synset "synset parent"
    return { reading with
      synset := some { current with definitions := current.definitions ++ [reading.text] }
      text := "" }
  else if name = "Example" then
    match reading.sense with
    | some current =>
      .ok { reading with
        sense := some { current with examples := current.examples ++ [reading.text] }
        text := "" }
    | none => do
        let current ← expect reading.synset "synset parent"
        return { reading with
          synset := some { current with examples := current.examples ++ [reading.text] }
          text := "" }
  else if name = "Pronunciation" then do
    let current ← expect reading.entry "entry parent"
    let spoken : Pronunciation :=
      { notation_ := reading.pronunciationAttributes["notation"]?.getD "unspecified"
        value := reading.text
        variant := reading.pronunciationAttributes["variety"]? }
    return { reading with
      entry := some { current with pronunciations := current.pronunciations ++ [spoken] }
      text := "" }
  else .ok reading

def Reading.appendText (reading : Reading) (value : String) : Except ImportError Reading :=
  if reading.stack.head? = some "Definition" ∨ reading.stack.head? = some "Example" ∨
      reading.stack.head? = some "Pronunciation" then
    if maxStringBytes < reading.text.utf8ByteSize + value.utf8ByteSize then
      invalid "XML text exceeds 16 KiB"
    else .ok { reading with text := reading.text ++ value }
  else if (trim value).isEmpty then .ok reading
  else invalid "unexpected text outside lexical text elements"

namespace ReaderState

variable (state : ReaderState)

def charge (bytes : Nat) : Except ImportError ReaderState :=
  (state.budget.charge bytes).map fun budget => { state with budget }

def countAttributes (placement : Placement) (name : String) (attributes : Attributes) :
    Except ImportError ReaderState := do
  let keys := attributes.keys.filter fun key => key ∉ placement.consumed
  let counts ← keys.foldlM (fun counts key => count counts s!"{name}:{key}")
    state.ignoredAttributes
  return { state with ignoredAttributes := counts }

def chargePlacement (placement : Placement) : Except ImportError ReaderState :=
  match placement.cost with
  | some bytes => state.charge bytes
  | none => .ok state

def ignoreIf (placement : Placement) (name : String) : Except ImportError ReaderState :=
  if placement = .ignored then
    (count state.ignoredElements name).map fun counts =>
      { state with ignoredElements := counts, ignoredDepth := some state.stack.length }
  else .ok state

def place (name : String) (attributes : Attributes) : Except ImportError ReaderState :=
  let placement := classify name state.stack.head?
  do
    let charged ← state.chargePlacement placement
    let reading ← charged.toReading.begin name attributes placement
    let placed ← { charged with toReading := reading }.ignoreIf placement name
    placed.countAttributes placement name attributes

def placeUnlessIgnored (name : String) (attributes : Attributes) :
    Except ImportError ReaderState :=
  if state.ignoredDepth.isNone then state.place name attributes else .ok state

def enter (name : String) (event : List AttributeEvent) : Except ImportError ReaderState := do
  if 128 < name.utf8ByteSize then invalid "XML element name exceeds 128 bytes"
  let attributes ← attributes event
  let charged ← state.charge (attributes.toList.map fun pair =>
    pair.1.utf8ByteSize + pair.2.utf8ByteSize).sum
  if 32 ≤ charged.stack.length then invalid "XML nesting exceeds 32 levels"
  let placed ← charged.placeUnlessIgnored name attributes
  if maxXmlRelations < placed.relations then invalid "XML relation limit exceeded"
  return { placed with stack := name :: placed.stack }

def leave (name : String) : Except ImportError ReaderState :=
  let popped := { state.toReading with stack := state.stack.tail }
  match state.ignoredDepth with
  | none => (popped.finish name).map fun reading => { state with toReading := reading }
  | some depth =>
    .ok { state with
      toReading := popped
      ignoredDepth := if depth = popped.stack.length then none else some depth }

def appendUnlessIgnored (value : String) : Except ImportError ReaderState :=
  if state.ignoredDepth.isSome then .ok state
  else (state.toReading.appendText value).map fun reading => { state with toReading := reading }

def readText (value : String) : Except ImportError ReaderState := do
  let charged ← state.charge value.utf8ByteSize
  charged.appendUnlessIgnored value

def read : Event → Except ImportError ReaderState
  | .start name attributes => state.enter name attributes
  | .empty name attributes => do
      let entered ← state.enter name attributes
      entered.leave name
  | .end_ name =>
    if state.stack.head? = some name then state.leave name
    else invalid "mismatched XML end element"
  | .text value => state.readText value
  | .docType internal =>
    if internal then
      invalid "internal DTD/entities are unsupported; no external entities are fetched"
    else .ok state
  | .declaration encoding =>
    match encoding with
    | none => .ok state
    | some encoding =>
      if encoding.toList.map Char.toLower = "utf-8".toList then .ok state
      else invalid "only UTF-8 XML is supported"
  | .comment => .ok state
  | .processingInstruction => invalid "XML processing instructions are unsupported"
  | .failed message => invalid message

def complete : Except ImportError RawWordnet :=
  if state.roots ≠ 1 ∨ state.lexicons ≠ 1 ∨ state.stack ≠ [] then
    invalid "incomplete WN-LMF LexicalResource/Lexicon"
  else
    .ok { metadata := state.metadata
          entries := state.entries
          synsets := state.synsets
          ignoredElements := state.ignoredElements
          ignoredAttributes := state.ignoredAttributes
          retainedBytes := state.budget.used }

end ReaderState

def startReading (size maxEstimatedBytes : Nat) : Except ImportError ReaderState :=
  (MemoryBudget.charge ⟨0, maxEstimatedBytes⟩ (size + 1024 * 1024)).map fun budget => { budget }

def parse (size maxEstimatedBytes : Nat) (events : List Event) : Except ImportError RawWordnet := do
  let start ← startReading size maxEstimatedBytes
  let state ← events.foldlM ReaderState.read start
  state.complete

end KnotEditor.Wordnet
