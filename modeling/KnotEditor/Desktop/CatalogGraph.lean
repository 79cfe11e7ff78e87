import KnotEditor.FileCatalog

/-! The catalog graph's requests: one worker reads a snapshot of the catalog at a time, one more
request waits behind it, and a reading is shown when no later request was made meanwhile. -/

namespace KnotEditor.Desktop

inductive KnotFileCatalogAvailability
  | available
  | unavailable
  deriving DecidableEq

structure KnotFileCatalogRecord where
  id : String
  relativePath : FilePath
  availability : KnotFileCatalogAvailability
  deriving DecidableEq

structure KnotFileCatalogSnapshot where
  root : FilePath
  bindings : List StoredBinding
  deriving DecidableEq

namespace KnotFileCatalogSnapshot

def records (catalog : KnotFileCatalogSnapshot)
    (availability : StoredBinding → KnotFileCatalogAvailability) : List KnotFileCatalogRecord :=
  catalog.bindings.map fun binding => ⟨binding.id, binding.relativePath, availability binding⟩

end KnotFileCatalogSnapshot

structure CatalogReader where
  Disk : Type
  Reading : Type
  decideReading : DecidableEq Reading
  blake3 : List UInt8 → String
  toStringLossy : FilePath → String
  readCatalog : KnotFileCatalogSnapshot → Nat → Disk → Reading

instance (reader : CatalogReader) : DecidableEq reader.Reading := reader.decideReading

structure CatalogRequest where
  catalog : KnotFileCatalogSnapshot
  maxBytes : Nat
  generation : Nat
  deriving DecidableEq

structure CatalogCompletion (reader : CatalogReader) where
  reading : reader.Reading
  generation : Nat

inductive CatalogWorker (reader : CatalogReader)
  | reads (request : CatalogRequest)
  | sent (completion : CatalogCompletion reader)
  | gone

/-- `accepted`, `spawned` and `waited` are the history; nothing reads them. -/
structure GraphState (reader : CatalogReader) where
  reading : Option reader.Reading := none
  receiver : Option (CatalogWorker reader) := none
  queued : Option CatalogRequest := none
  wake : Bool := false
  notice : Option String := none
  configured : Bool := false
  requestedSignature : Option String := none
  desiredGeneration : Nat := 0
  generationExhausted : Bool := false
  installed : Option Nat := none
  running : Option Nat := none
  invalidated : Bool := false
  accepted : Option KnotFileCatalogSnapshot := none
  spawned : List CatalogRequest := []
  waited : List CatalogRequest := []

namespace GraphState

variable {reader : CatalogReader} (graph : GraphState reader)

def generationLimit : Nat := 2 ^ 64

def littleEndian (width value : Nat) : List UInt8 :=
  (List.range width).map fun place => UInt8.ofNat (value / 256 ^ place % 256)

def availabilityText : KnotFileCatalogAvailability → String
  | .available => "Available"
  | .unavailable => "Unavailable"

def signature (reader : CatalogReader) (records : List KnotFileCatalogRecord) (maxBytes : Nat) :
    String :=
  reader.blake3 ((records.flatMap fun record =>
    record.id.toUTF8.data.toList ++ (reader.toStringLossy record.relativePath).toUTF8.data.toList ++
      (availabilityText record.availability).toUTF8.data.toList) ++ littleEndian 8 maxBytes)

def invalidateCatalog : GraphState reader := { graph with invalidated := true }

def discardQueued : GraphState reader := { graph with queued := none }

def advanceGeneration : GraphState reader × Bool :=
  if !graph.generationExhausted && decide (graph.desiredGeneration + 1 < generationLimit) then
    ({ graph with desiredGeneration := graph.desiredGeneration + 1 }, true)
  else
    ({ ({ graph with generationExhausted := true }).discardQueued with
        reading := none
        installed := none
        requestedSignature := none
        notice := some "The catalog graph request identity is exhausted." }, false)

def spawn (request : CatalogRequest) (starts : Bool) : GraphState reader :=
  let started := { graph with
    receiver := some (.reads request)
    reading := none
    installed := none
    running := some request.generation
    spawned := graph.spawned ++ [request] }
  if starts then started
  else
    { started with
      receiver := none
      running := none
      notice := some "The catalog graph worker could not start." }

def request (catalog : KnotFileCatalogSnapshot) (maxBytes : Nat) (signature : String)
    (starts : Bool) : GraphState reader :=
  if !graph.invalidated && decide (graph.requestedSignature = some signature) &&
      (graph.reading.isSome || graph.receiver.isSome || graph.queued.isSome) then
    { graph with accepted := some catalog }
  else
    match ({ graph with invalidated := false }).advanceGeneration with
    | (exhausted, false) => exhausted
    | (advanced, true) =>
      let request : CatalogRequest := ⟨catalog, maxBytes, advanced.desiredGeneration⟩
      let asked := { advanced with
        requestedSignature := some signature
        accepted := some catalog }
      if asked.receiver.isSome then
        { asked.discardQueued with queued := some request, waited := asked.waited ++ [request] }
      else asked.spawn request starts

def withdraw : GraphState reader :=
  match ({ graph with configured := false, notice := none }).advanceGeneration with
  | (exhausted, false) => exhausted
  | (advanced, true) =>
    { ({ advanced with reading := none, installed := none }).discardQueued with
      requestedSignature := none
      invalidated := false }

def startWithCause (catalog : Option (KnotFileCatalogSnapshot × List KnotFileCatalogRecord))
    (maxBytes : Nat) (starts : Bool) : GraphState reader :=
  match catalog with
  | none => graph.withdraw
  | some (catalog, records) =>
    let configured := { graph with configured := true, notice := none }
    if graph.generationExhausted then configured.advanceGeneration.1
    else if !graph.wake then { configured with requestedSignature := none }
    else configured.request catalog maxBytes (signature reader records maxBytes) starts

def drainCatalog (starts : Bool) : GraphState reader :=
  match graph.receiver with
  | none => graph
  | some (.reads _) => graph
  | some (.sent completion) =>
    let drained := { graph with receiver := none, running := none }
    match graph.queued with
    | some request => ({ drained with queued := none }).spawn request starts
    | none =>
      if graph.configured && !graph.generationExhausted &&
          decide (completion.generation = graph.desiredGeneration) then
        { drained with
          installed := some completion.generation
          reading := some completion.reading }
      else drained
  | some .gone =>
    let drained := { graph with receiver := none, running := none }
    match graph.queued with
    | some request => ({ drained with queued := none }).spawn request starts
    | none =>
      { drained with
        notice := some "The catalog graph worker stopped before returning a reading." }

def complete (disk : reader.Disk) : GraphState reader :=
  match graph.receiver with
  | some (.reads request) =>
    { graph with
      receiver := some (.sent
        ⟨reader.readCatalog request.catalog request.maxBytes disk, request.generation⟩) }
  | _ => graph

def disconnect : GraphState reader :=
  match graph.receiver with
  | some (.reads _) => { graph with receiver := some .gone }
  | _ => graph

end GraphState

/-- What happens to the graph, in any order: calls of the window, and steps of its worker. -/
inductive GraphAction (reader : CatalogReader)
  | setWake
  | invalidateCatalog
  | start (catalog : Option (KnotFileCatalogSnapshot × List KnotFileCatalogRecord))
      (maxBytes : Nat) (starts : Bool)
  | drain (starts : Bool)
  | complete (disk : reader.Disk)
  | disconnect

def GraphState.step {reader : CatalogReader} (graph : GraphState reader) :
    GraphAction reader → GraphState reader
  | .setWake => { graph with wake := true }
  | .invalidateCatalog => graph.invalidateCatalog
  | .start catalog maxBytes starts => graph.startWithCause catalog maxBytes starts
  | .drain starts => graph.drainCatalog starts
  | .complete disk => graph.complete disk
  | .disconnect => graph.disconnect

end KnotEditor.Desktop
