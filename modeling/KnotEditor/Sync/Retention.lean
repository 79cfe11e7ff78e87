import KnotEditor.Library.KeyedCollection
import KnotEditor.Sync.Authoring

/-! Retained composition material: the strict replay of retained items and of the changes to their
organization, and the two calls that add to it. -/

namespace KnotEditor

open KeyedCollections

/-- What retention adds to the sync host: the JSON writers, and equality of foreign material. -/
structure RetentionHost extends SyncHost where
  itemToJson : CollectionItem composition.Scene composition.Recipe → Except String String
  organizationToJson : CollectionOrganization → Except String String
  sameScene : composition.Scene → composition.Scene → Bool
  sameRecipe : composition.Recipe → composition.Recipe → Bool

abbrev RetentionHost.Item (host : RetentionHost) : Type :=
  CollectionItem host.composition.Scene host.composition.Recipe

def sameOption {α : Type} (same : α → α → Bool) : Option α → Option α → Bool
  | some left, some right => same left right
  | none, none => true
  | _, _ => false

/-- The derived `==` of two items. -/
def RetentionHost.sameItem (host : RetentionHost) (left right : host.Item) : Bool :=
  decide (left.id = right.id) && decide (left.collection = right.collection) &&
    decide (left.kind = right.kind) && decide (left.label = right.label) &&
    decide (left.text = right.text) &&
    sameOption host.sameRecipe left.projectionRecipe right.projectionRecipe &&
    sameOption host.sameScene left.metreScene right.metreScene &&
    decide (left.packSources = right.packSources) &&
    decide (left.documentSource = right.documentSource) &&
    decide (left.authorNotes = right.authorNotes) && decide (left.tags = right.tags) &&
    decide (left.order = right.order)

def CollectionOrganization.fromItem {Scene Recipe : Type} (item : CollectionItem Scene Recipe) :
    CollectionOrganization where
  label := item.label
  collection := item.collection
  authorNotes := item.authorNotes
  tags := item.tags
  order := item.order
  archived := false

structure RetentionKey where
  author : Bytes32
  itemId : String
  deriving DecidableEq

namespace RetentionKey

def pair (key : RetentionKey) : Bytes32 ×ₗ String := toLex (key.author, key.itemId)

theorem pair_injective : Function.Injective pair := by
  rintro ⟨author, itemId⟩ ⟨other, otherId⟩ same
  cases toLex.injective same
  rfl

instance : LinearOrder RetentionKey := LinearOrder.lift' pair pair_injective

instance : Std.TransOrd RetentionKey := inferInstance

instance : Std.LawfulEqOrd RetentionKey where
  eq_of_compare same := compare_eq_iff_eq.mp same

end RetentionKey

structure RetainedComposition (host : RetentionHost) where
  item : host.Item
  operation : Bytes32
  author : Bytes32

structure OrganizedComposition (host : RetentionHost) where
  item : host.Item
  operation : Bytes32
  author : Bytes32
  organization : CollectionOrganization
  revision : Bytes32

structure OrganizeComposition where
  author : Bytes32
  itemId : String
  expectedRevision : Bytes32
  organization : CollectionOrganization
  deriving DecidableEq

abbrev RetentionItems (host : RetentionHost) :=
  Std.ExtTreeMap RetentionKey (RetainedComposition host)

abbrev OrganizationItems (host : RetentionHost) :=
  Std.ExtTreeMap RetentionKey (OrganizedComposition host)

section Replay

variable (host : RetentionHost) (cipher : KnotSyncCipher) (maxItems maxBytes : Nat)

def retainStep (state : RetentionItems host × Nat) (operation : Operation) :
    Except KnotSyncError (RetentionItems host × Nat) := do
  match ← decodeEvent host.toSyncHost cipher operation with
  | .retainCompositionV1 itemJson =>
    let item ← compositionItem host.composition itemJson
    let total := saturatingAdd state.2 itemJson.utf8ByteSize
    if total > maxBytes then
      .error (.payload "composition projection exceeds byte limit")
    let key : RetentionKey := ⟨operation.author, item.id⟩
    match state.1[key]? with
    | some previous =>
      if !host.sameItem previous.item item then
        .error (.payload "conflicting immutable composition item")
      if operation.hash < previous.operation then
        .ok (state.1.insert key { previous with operation := operation.hash }, total)
      else
        .ok (state.1, total)
    | none =>
      let items := state.1.insert key ⟨item, operation.hash, operation.author⟩
      if items.size > maxItems then
        .error (.payload "composition projection exceeds item limit")
      .ok (items, total)
  | _ => .ok state

def organizeEvent (causal : CausalIndex) (state : OrganizationItems host × Nat)
    (operation : Bytes32) :
    KnotSyncEvent → Except KnotSyncError (OrganizationItems host × Nat)
  | .retainCompositionV1 itemJson =>
    .ok (state.1, saturatingAdd state.2 itemJson.utf8ByteSize)
  | .organizeCompositionV1 originalAuthor itemId previous organizationJson =>
    match state.1[RetentionKey.mk originalAuthor itemId]? with
    | none => .error (.payload "organization refers to an unavailable retained item")
    | some entry =>
      if entry.revision ≠ previous ∨ !causal.happensBefore previous operation then
        .error (.payload
          "conflicting or noncausal collection organization; explicit reconciliation required")
      else do
        let organization ← compositionOrganization host.composition organizationJson
        .ok (state.1.insert ⟨originalAuthor, itemId⟩
          { entry with organization, revision := operation },
          saturatingAdd state.2 organizationJson.utf8ByteSize)
  | _ => .ok state

def organizeStep (causal : CausalIndex) (state : OrganizationItems host × Nat)
    (operation : Operation) : Except KnotSyncError (OrganizationItems host × Nat) := do
  let event ← decodeEvent host.toSyncHost cipher operation
  let after ← organizeEvent host causal state operation.hash event
  if after.2 > maxBytes then
    .error (.payload "composition history exceeds byte limit")
  .ok after

end Replay

namespace KnotSyncStore

variable (store : KnotSyncStore) (host : RetentionHost) (cipher : KnotSyncCipher)
variable (maxItems maxBytes : Nat)

def compositionWithCipher : Except KnotSyncError (List (RetainedComposition host)) := do
  store.requireCipher cipher
  let (order, pending) ← store.closedOperations host.toSyncHost
  if !pending.isEmpty then
    .error (.payload "composition retention requires complete causal history")
  let (items, _) ← order.foldlM (retainStep host cipher maxItems maxBytes) (∅, 0)
  .ok items.values

def startOrganized {host : RetentionHost} (retained : RetainedComposition host) :
    OrganizedComposition host where
  item := retained.item
  operation := retained.operation
  author := retained.author
  organization := .fromItem retained.item
  revision := retained.operation

def organizedCompositionWithCipher :
    Except KnotSyncError (List (OrganizedComposition host) × Nat) := do
  let original ← store.compositionWithCipher host cipher maxItems maxBytes
  let items : OrganizationItems host := collect
    (fun retained => RetentionKey.mk retained.author retained.item.id)
    (fun retained => some (startOrganized retained)) original
  let (order, pending) ← store.closedOperations host.toSyncHost
  if !pending.isEmpty then
    .error (.payload "collection organization requires complete causal history")
  let (items, total) ← order.foldlM
    (organizeStep host cipher maxBytes (store.causal host.toSyncHost)) (items, 0)
  .ok (items.values, total)

def requireAdmittedWriter (writer : Bytes32) : Except KnotSyncError Unit :=
  if store.policy.writers.contains writer then .ok ()
  else .error (.payload "signing writer is not admitted to this Knot vault")

def organizeCompositionWithCipher (signingSeed : Bytes32) (change : OrganizeComposition) :
    Except KnotSyncError ((Bytes32 × Bool) × KnotSyncStore) := do
  store.requireCipher cipher
  store.requireAdmittedWriter (host.verifyingKey signingSeed)
  change.organization.validate.mapError fun error => .payload error.text
  let (items, total) ← store.organizedCompositionWithCipher host cipher maxItems maxBytes
  let some current := items.find? fun entry =>
      entry.author == change.author && entry.item.id == change.itemId
    | .error (.payload "retained item is unavailable")
  if current.revision ≠ change.expectedRevision then
    .error (.payload "collection organization changed; refresh before editing")
  if current.organization = change.organization then
    .ok ((current.revision, true), store)
  else
    let organizationJson ← (host.organizationToJson change.organization).mapError .payload
    if saturatingAdd total organizationJson.utf8ByteSize > maxBytes then
      .error (.payload "composition history byte limit reached")
    let (operation, accepted) ← store.authorUnderGate host.toSyncHost signingSeed cipher
      (.organizeCompositionV1 change.author change.itemId change.expectedRevision
        organizationJson) .now
    .ok ((operation.hash, false), accepted)

def retainCompositionWithCipher (signingSeed : Bytes32) (item : host.Item) :
    Except KnotSyncError ((Bytes32 × Bool) × KnotSyncStore) := do
  store.requireCipher cipher
  let writer := host.verifyingKey signingSeed
  store.requireAdmittedWriter writer
  let (_, historyBytes) ← store.organizedCompositionWithCipher host cipher maxItems maxBytes
  let existing ← store.compositionWithCipher host cipher maxItems maxBytes
  match existing.find? fun candidate =>
      candidate.author == writer && candidate.item.id == item.id with
  | some candidate =>
    if host.sameItem candidate.item item then
      .ok ((candidate.operation, true), store)
    else
      .error (.payload "composition item id already retained with different content")
  | none =>
    if existing.length ≥ maxItems then
      .error (.payload "composition item limit reached")
    let itemJson ← (host.itemToJson item).mapError .payload
    let _ ← compositionItem host.composition itemJson
    if saturatingAdd historyBytes itemJson.utf8ByteSize > maxBytes then
      .error (.payload "composition byte limit reached")
    let (operation, accepted) ← store.authorUnderGate host.toSyncHost signingSeed cipher
      (.retainCompositionV1 itemJson) .now
    .ok ((operation.hash, false), accepted)

end KnotSyncStore

inductive CompositionCall (host : RetentionHost)
  | retain (item : host.Item)
  | organize (change : OrganizeComposition)

namespace KnotSyncStore

variable (host : RetentionHost) (cipher : KnotSyncCipher) (signingSeed : Bytes32)
variable (maxItems maxBytes : Nat)

def callComposition (store : KnotSyncStore) :
    CompositionCall host → Except KnotSyncError ((Bytes32 × Bool) × KnotSyncStore)
  | .retain item =>
    store.retainCompositionWithCipher host cipher maxItems maxBytes signingSeed item
  | .organize change =>
    store.organizeCompositionWithCipher host cipher maxItems maxBytes signingSeed change

def performComposition (store : KnotSyncStore) (call : CompositionCall host) : KnotSyncStore :=
  match store.callComposition host cipher signingSeed maxItems maxBytes call with
  | .ok (_, accepted) => accepted
  | .error _ => store

end KnotSyncStore

end KnotEditor
