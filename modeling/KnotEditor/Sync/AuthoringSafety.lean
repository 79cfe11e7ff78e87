import KnotEditor.Sync.Placement

/-! What authoring lets into the signed history. Nothing checks a resolution before it is signed, so
replay may refuse the whole history for it. -/

namespace KnotEditor

open Fallible KeyedCollections

/-- The check replay makes of a resolution, asked of the frontier it will be signed on. -/
structure NamesObserved (causal : CausalIndex) (parents : List Bytes32)
    (eventDocuments : HashMap String) (id : String) (supersedes : List Bytes32)
    (document : Option VaultDocument) : Prop where
  named : supersedes ≠ []
  bounded : supersedes.length ≤ maxParents
  chosen : ∀ chosen, document = some chosen → chosen.id = id
  distinct : supersedes.Nodup
  targets : ∀ target ∈ supersedes, eventDocuments[target]? = some id ∧
    frontierObserves causal parents target = true

section

variable {host : SyncHost} {store accepted : KnotSyncStore} {operation : Operation}
variable {before after : List Operation} {events : Operation → Option KnotSyncEvent}
variable {id : String} {supersedes : List Bytes32} {document : Option VaultDocument}

theorem Admissible.of_index {one two : CausalIndex} {eventDocuments : HashMap String}
    {resolution : Bytes32} (agrees : ∀ target, one.happensBefore target resolution =
      two.happensBefore target resolution)
    (admissible : Admissible one eventDocuments resolution id supersedes document) :
    Admissible two eventDocuments resolution id supersedes document where
  named := admissible.named
  bounded := admissible.bounded
  chosen := admissible.chosen
  distinct := admissible.distinct
  targets := fun target member => by
    obtain ⟨found, before⟩ := admissible.targets target member
    exact ⟨found, (agrees target).symm.trans before⟩

theorem Placement.eventDocuments_eq (placed : Placement host store accepted operation before after)
    {target resolution : Bytes32}
    (observed : (accepted.causal host).happensBefore target resolution = true) :
    (eventDocumentsOf events (before ++ operation :: after))[target]? =
      (eventDocumentsOf events (before ++ after))[target]? := by
  refine getElem?_collect_middle placed.ordered.distinct fun same => ?_
  rw [← same, placed.leaf] at observed
  cases observed

theorem Placement.names_observed_iff
    (placed : Placement host store accepted operation before after) :
    Admissible (accepted.causal host) (eventDocumentsOf events (before ++ operation :: after))
        operation.hash id supersedes document ↔
      NamesObserved (store.causal host) operation.header.extensions.parents
        (eventDocumentsOf events (before ++ after)) id supersedes document := by
  constructor
  · intro admissible
    refine ⟨admissible.named, admissible.bounded, admissible.chosen, admissible.distinct,
      fun target listed => ?_⟩
    obtain ⟨found, observed⟩ := admissible.targets target listed
    rw [placed.eventDocuments_eq observed] at found
    exact ⟨found, (placed.observes target).symm.trans observed⟩
  · intro names
    refine ⟨names.named, names.bounded, names.chosen, names.distinct, fun target listed => ?_⟩
    obtain ⟨found, observed⟩ := names.targets target listed
    rw [← placed.observes target] at observed
    rw [placed.eventDocuments_eq observed]
    exact ⟨found, observed⟩

theorem Placement.resolvesAdmissible_iff
    (placed : Placement host store accepted operation before after) :
    ResolvesAdmissible events (accepted.causal host) (before ++ operation :: after) ↔
      ResolvesAdmissible events (store.causal host) (before ++ after) ∧
      ∀ id supersedes document, events operation = some (.resolve id supersedes document) →
        NamesObserved (store.causal host) operation.header.extensions.parents
          (eventDocumentsOf events (before ++ after)) id supersedes document := by
  have shift {other : Operation} (member : other ∈ before ++ after) (earlier : Bytes32) :=
    placed.unchanged earlier other.hash (placed.hash_ne member)
  constructor
  · intro resolves
    refine ⟨fun other member id supersedes document read => ?_,
      fun id supersedes document read => ?_⟩
    · have admissible := resolves other (Placement.mem_extended_iff.mpr (.inr member)) id supersedes
        document read
      exact (admissible.congr fun target observed => placed.eventDocuments_eq observed).of_index
        (shift member)
    · exact placed.names_observed_iff.mp
        (resolves operation (by simp) id supersedes document read)
  · rintro ⟨resolves, names⟩ other found id supersedes document read
    rcases Placement.mem_extended_iff.mp found with rfl | member
    · exact placed.names_observed_iff.mpr (names id supersedes document read)
    · have admissible := resolves other member id supersedes document read
      exact (admissible.of_index fun target => (shift member target).symm).congr
        fun target observed => (placed.eventDocuments_eq observed).symm

theorem Placement.projects_iff (placed : Placement host store accepted operation before after)
    {cipher : KnotSyncCipher} {strictness : KnotProjectionStrictness} {event : KnotSyncEvent}
    (encodes : ∀ base supersedes document, ∃ bytes,
      host.merge.encodeCbor base supersedes document = .ok bytes)
    (policy : accepted.policy = store.policy)
    (decodes : decodeEvent host cipher operation = .ok event)
    (projects : ∃ projection,
      store.projectionWithCipherAndStrictness host cipher strictness = .ok projection) :
    (∃ projection,
      accepted.projectionWithCipherAndStrictness host cipher strictness = .ok projection) ↔
      ∀ id supersedes document, event = .resolve id supersedes document →
        NamesObserved (store.causal host) operation.header.extensions.parents
          (eventDocumentsOf (readableEvents host cipher) (before ++ after)) id supersedes
          document := by
  obtain ⟨pending, closed⟩ := placed.closed
  obtain ⟨waiting, extended⟩ := placed.extended
  obtain ⟨required, readable, turns⟩ := (KnotSyncStore.projects_iff closed encodes).mp projects
  have everything : strictness = .strict → Decodes host cipher (before ++ operation :: after) := by
    intro strict other found
    rcases Placement.mem_extended_iff.mp found with rfl | member
    · exact ⟨event, decodes⟩
    · exact readable strict other member
  rw [KnotSyncStore.projects_iff extended encodes, policy, resolvesInTurn_iff placed.ordered,
    placed.resolvesAdmissible_iff, ← resolvesInTurn_iff placed.localOrder,
    readableEvents_eq_some_iff.mpr decodes]
  simp only [required, turns, true_and, Option.some.injEq]
  exact and_iff_right fun strict => everything strict

end

theorem resolveConflictWithCipher_ok_iff {host : SyncHost} {store : KnotSyncStore}
    {seed : Bytes32} {cipher : KnotSyncCipher} {conflict : KnotDocumentConflict}
    {document : Option VaultDocument} {result : Operation × KnotSyncStore} :
    store.resolveConflictWithCipher host seed cipher conflict document = .ok result ↔
      (∀ chosen, document = some chosen → chosen.id = conflict.id) ∧
        store.authorWithCipherAt host seed cipher (.resolve conflict.id
          ((conflict.versions.map KnotDocumentVersion.operation).insertionSort (· ≤ ·)).dedup
          document) .now = .ok result := by
  rw [KnotSyncStore.resolveConflictWithCipher, refuse_eq_ok_iff]
  refine and_congr_left fun _ => ?_
  cases document <;> simp

/-- Where the old history projects, the authored operation leaves it projecting exactly when it is
no resolution or one that names versions its frontier has seen. -/
theorem authored_projects_iff (host : SyncHost) (store accepted : KnotSyncStore) (seed : Bytes32)
    (cipher : KnotSyncCipher) (event : KnotSyncEvent) (time : KnotAssertedTime)
    (operation : Operation) (before after : List Operation)
    (encodes : ∀ base supersedes document, ∃ bytes,
      host.merge.encodeCbor base supersedes document = .ok bytes)
    (opens : OpensSealed host cipher event)
    (projects : ∃ projection, store.projectionWithCipher host cipher = .ok projection)
    (authored : store.authorWithCipherAt host seed cipher event time = .ok (operation, accepted))
    (placed : Placement host store accepted operation before after) :
    (∃ projection, accepted.projectionWithCipher host cipher = .ok projection) ↔
      ∀ id supersedes document, event = .resolve id supersedes document →
        NamesObserved (store.causal host) operation.header.extensions.parents
          (eventDocumentsOf (readableEvents host cipher) (before ++ after)) id supersedes
          document := by
  obtain ⟨_, policy, _, decodes, _⟩ := authored_spec opens authored
  exact placed.projects_iff encodes policy decodes projects

def emptyConflict : KnotDocumentConflict := { id := "note", versions := [] }

def emptyHost : SyncHost := .sample (.ofPairs []) [.resolve "note" [] none]

theorem emptyConflict_authors :
    KnotSyncStore.resolveConflictWithCipher (.sample []) emptyHost (.filled 10)
        (.personal .sample) emptyConflict none =
      .ok (.sealed 10 10 0, .sample [.sealed 10 10 0]) := by rfl

theorem emptyConflict_projections :
    (∃ projection, KnotSyncStore.projectionWithCipher (.sample []) emptyHost
      (.personal .sample) = .ok projection) ∧
    ¬ ∃ projection, KnotSyncStore.projectionWithCipher (.sample [.sealed 10 10 0]) emptyHost
      (.personal .sample) = .ok projection :=
  ⟨isOk_iff.mp (by decide), mt isOk_iff.mpr (by decide)⟩

theorem empty_resolution_bricks :
    ∃ operation accepted,
      KnotSyncStore.resolveConflictWithCipher (.sample []) emptyHost (.filled 10)
        (.personal .sample) emptyConflict none = .ok (operation, accepted) ∧
      (∃ projection, KnotSyncStore.projectionWithCipher (.sample []) emptyHost
        (.personal .sample) = .ok projection) ∧
      ¬ ∃ projection, accepted.projectionWithCipher emptyHost (.personal .sample) =
        .ok projection :=
  ⟨_, _, emptyConflict_authors, emptyConflict_projections⟩

theorem emptyConflict_opens :
    OpensSealed emptyHost (.personal .sample) (.resolve "note" [] none) where
  json := by
    rintro bytes written
    cases written
    decide
  personal := by
    rintro vault same aad plaintext ciphertext hidden
    cases same
    exact hidden.symm
  commons := by intros; contradiction
  envelope := by intros; contradiction
  header := fun _ _ _ _ _ => ⟨rfl, rfl, rfl⟩

theorem emptyConflict_placed : Placement emptyHost (.sample []) (.sample [.sealed 10 10 0])
    (.sealed 10 10 0) [] [] where
  closed := ⟨[], by decide⟩
  extended := ⟨[], by decide⟩
  ordered := ⟨by decide, ⟨by decide, by decide, by decide⟩⟩
  unchanged := fun _ _ _ => rfl
  observes := fun _ => rfl
  leaf := fun _ => rfl

theorem authored_projects_iff_emptyConflict :
    ¬ ∀ id supersedes document,
      KnotSyncEvent.resolve "note" [] none = .resolve id supersedes document →
        NamesObserved (KnotSyncStore.causal (.sample []) emptyHost) [] (eventDocumentsOf
          (readableEvents emptyHost (.personal .sample)) []) id supersedes document := by
  intro names
  exact emptyConflict_projections.2 ((authored_projects_iff emptyHost (.sample []) _ (.filled 10)
    (.personal .sample) (.resolve "note" [] none) .now (.sealed 10 10 0) [] []
    (fun _ _ _ => ⟨.empty, rfl⟩) emptyConflict_opens emptyConflict_projections.1
    (resolveConflictWithCipher_ok_iff.mp emptyConflict_authors).2 emptyConflict_placed).mpr names)

end KnotEditor
