import KnotEditor.Endpoint.Pairing
import KnotEditor.Startup
import KnotEditor.Sync.Placement

/-! What the migration of a vault adds to its history: one lone write for each document, where it
comes to its end. -/

namespace KnotEditor

open Fallible

section

variable (host : SyncHost) (cipher : KnotSyncCipher)

def Mentioned (records : List StoredKnotOperation) (id : String) : Prop :=
  ∃ record ∈ records, writtenId (readableEvents host cipher) record.operation = some id

def KnotSyncStore.Deleted (store : KnotSyncStore) (id : String) : Prop :=
  ∃ order pending versions, store.closedOperations host = .ok (order, pending) ∧
    (replayDocuments (readableEvents host cipher) (store.causal host) order).current[id]? =
      some versions ∧
    ∀ version ∈ versions.values, version.document = none

def ClosesAuthored (signingSeed : Bytes32) : Prop :=
  ∀ (store authored : KnotSyncStore) (document : VaultDocument) (operation : Operation)
    (order : List Operation), store.closedOperations host = .ok (order, []) →
      store.authorWithCipherAt host signingSeed cipher (.put document) .now =
        .ok (operation, authored) →
      ∃ extended, authored.closedOperations host = .ok (extended, []) ∧
        extended.Perm (operation :: order)

end

def Unbroken (host : SourceHost) (keys : PersonalVaultKeys)
    (faults : VaultDocument → Option KnotSyncError) (store : KnotSyncStore)
    (documents : List VaultDocument) : Prop :=
  ∀ front document back, documents = front ++ document :: back → front ≠ [] →
    let migrated := migrateDocuments host keys.signingSeed (keys.cipher host) faults store front
    migrated.result = .ok () → ∃ authored, authorDocument host keys.signingSeed
      (keys.cipher host) migrated.store document (faults document) = .ok authored

section author

variable {host : SyncHost} {cipher : KnotSyncCipher} {store : KnotSyncStore} {id : String}
variable {order : List Operation} {pending : List PendingCausalOperation}

theorem not_deleted_of_unwritten (closed : store.closedOperations host = .ok (order, pending))
    (unwritten : order.filter (writesTo (readableEvents host cipher) id) = []) :
    ¬ store.Deleted host cipher id := by
  rintro ⟨others, _, versions, read, current, _⟩
  rw [closed] at read
  cases read
  have written : (replayDocuments (readableEvents host cipher) (store.causal host)
      order).current[id]?.isSome = true := by rw [current, Option.isSome_some]
  rw [replayDocuments_current_isSome, List.any_eq_true] at written
  have member := List.mem_filter.mpr written.choose_spec
  rw [unwritten] at member
  cases member

theorem unwritten_of_not_mentioned (closed : store.closedOperations host = .ok (order, pending))
    (unmentioned : ¬ Mentioned host cipher store.records id) :
    order.filter (writesTo (readableEvents host cipher) id) = [] := by
  rw [List.filter_eq_nil_iff]
  intro operation member writes
  rw [KnotSyncStore.closedOperations] at closed
  obtain ⟨projection, _, made⟩ := bind_eq_ok_iff.mp closed
  cases made
  obtain ⟨record, held, rfl⟩ := mem_operationsAt member
  exact unmentioned ⟨record, held, beq_iff_eq.mp writes⟩

theorem projection_shows_lone_write {projection : KnotDocumentProjection}
    {document : VaultDocument} {operation : Operation}
    (closed : store.closedOperations host = .ok (order, pending))
    (projected : store.projectionWithCipher host cipher = .ok projection)
    (alone : order.filter (writesTo (readableEvents host cipher) document.id) = [operation])
    (wrote : written (readableEvents host cipher) operation =
      some (document.id, some document)) :
    document ∈ projection.documents ∧
      ∀ other ∈ projection.documents, other.id = document.id → other = document := by
  rw [KnotSyncStore.projectionWithCipher, KnotSyncStore.projection_ok_iff closed] at projected
  obtain ⟨_, _, folded⟩ := projected
  obtain ⟨turns, settled, settling, rfl⟩ := projectEvents_ok_iff.mp folded
  exact shown_of_lone_write turns settling alone wrote

end author

section migrate

variable {host : SourceHost} {cipher : KnotSyncCipher} {signingSeed : Bytes32}
variable {store : KnotSyncStore} {order : List Operation}
variable {faults : VaultDocument → Option KnotSyncError}

theorem authorDocument_spec {authored : KnotSyncStore} {document : VaultDocument}
    {fault : Option KnotSyncError} (opens : OpensSealed host.sync cipher (.put document))
    (closes : ClosesAuthored host.sync cipher signingSeed)
    (closed : store.closedOperations host.sync = .ok (order, []))
    (made : authorDocument host signingSeed cipher store document fault = .ok authored) :
    ∃ operation extended, authored.policy = store.policy ∧
      authored.closedOperations host.sync = .ok (extended, []) ∧
      extended.Perm (operation :: order) ∧
      written (readableEvents host.sync cipher) operation =
        some (document.id, some document) := by
  rw [authorDocument] at made
  split at made
  next => cases made
  next operation kept signed =>
    cases made
    cases fault with
    | some error => cases signed
    | none =>
      obtain ⟨_, policy, _, decodes, _⟩ := authored_spec opens signed
      obtain ⟨extended, joined, same⟩ := closes store authored document operation order closed
        signed
      refine ⟨operation, extended, policy, joined, same, ?_⟩
      rw [written, readableEvents_eq_some_iff.mpr decodes]
      rfl

structure Adds (events : Operation → Option KnotSyncEvent) (documents : List VaultDocument)
    (order extended : List Operation) : Prop where
  writes : ∀ document ∈ documents, ∃ operation,
    extended.filter (writesTo events document.id) = [operation] ∧
      written events operation = some (document.id, some document)
  others : ∀ id, id ∉ documents.map VaultDocument.id →
    (extended.filter (writesTo events id)).Perm (order.filter (writesTo events id))

theorem migrateDocuments_spec {documents : List VaultDocument}
    (opens : ∀ document ∈ documents, OpensSealed host.sync cipher (.put document))
    (closes : ClosesAuthored host.sync cipher signingSeed)
    (distinct : (documents.map VaultDocument.id).Nodup)
    (closed : store.closedOperations host.sync = .ok (order, []))
    (unwritten : ∀ document ∈ documents,
      order.filter (writesTo (readableEvents host.sync cipher) document.id) = [])
    (done : (migrateDocuments host signingSeed cipher faults store documents).result = .ok ()) :
    let migrated := migrateDocuments host signingSeed cipher faults store documents
    migrated.store.policy = store.policy ∧
      (∀ authoring ∈ migrated.authored,
        ¬ authoring.store.Deleted host.sync cipher authoring.document.id) ∧
      ∃ extended, migrated.store.closedOperations host.sync = .ok (extended, []) ∧
        Adds (readableEvents host.sync cipher) documents order extended := by
  induction documents generalizing store order with
  | nil =>
    refine ⟨rfl, ?_, order, closed, ?_, fun _ _ => List.Perm.refl _⟩
    · intro authoring member
      cases member
    · intro document member
      cases member
  | cons first rest ih =>
    rw [List.map_cons, List.nodup_cons] at distinct
    simp only [migrateDocuments] at done ⊢
    cases made : authorDocument host signingSeed cipher store first (faults first) with
    | error error =>
      rw [made] at done
      cases done
    | ok authored =>
      simp only [made] at done ⊢
      obtain ⟨operation, between, policy, joined, same, wrote⟩ :=
        authorDocument_spec (opens first List.mem_cons_self) closes closed made
      have own : writesTo (readableEvents host.sync cipher) first.id operation = true := by
        rw [writesTo, writtenId, wrote, Option.map_some, beq_self_eq_true]
      have foreign (id : String) (other : id ≠ first.id) :
          (between.filter (writesTo (readableEvents host.sync cipher) id)).Perm
            (order.filter (writesTo (readableEvents host.sync cipher) id)) := by
        have silent : writesTo (readableEvents host.sync cipher) id operation = false := by
          rw [writesTo, writtenId, wrote, Option.map_some, beq_eq_false_iff_ne]
          exact fun clash => other (Option.some.inj clash).symm
        have reordered := same.filter (writesTo (readableEvents host.sync cipher) id)
        rwa [List.filter_cons, silent] at reordered
      obtain ⟨kept, buried, extended, final, adds⟩ := ih
        (fun document member => opens document (List.mem_cons_of_mem _ member)) distinct.2
        joined (fun document member => by
          have other : document.id ≠ first.id := by
            intro clash
            rw [← clash] at distinct
            exact distinct.1 (List.mem_map_of_mem member)
          have untouched := foreign document.id other
          rw [unwritten document (List.mem_cons_of_mem _ member)] at untouched
          exact List.perm_nil.mp untouched) done
      refine ⟨kept.trans policy, ?_, extended, final, ?_, ?_⟩
      · intro authoring member
        rcases List.mem_cons.mp member with rfl | later
        · exact not_deleted_of_unwritten closed (unwritten first List.mem_cons_self)
        · exact buried authoring later
      · intro document member
        rcases List.mem_cons.mp member with rfl | later
        · refine ⟨operation, ?_, wrote⟩
          have reordered := same.filter
            (writesTo (readableEvents host.sync cipher) document.id)
          rw [List.filter_cons, own, if_pos rfl, unwritten document List.mem_cons_self]
            at reordered
          exact List.perm_singleton.mp ((adds.others document.id distinct.1).trans reordered)
        · exact adds.writes document later
      · intro id absent
        rw [List.map_cons, List.mem_cons, not_or] at absent
        exact (adds.others id absent.2).trans (foreign id absent.1)

end migrate

section unbroken

variable {host : SourceHost} {keys : PersonalVaultKeys}
variable {store : KnotSyncStore} {faults : VaultDocument → Option KnotSyncError}

theorem migrateDocuments_done {documents : List VaultDocument}
    (goesOn : ∀ front document back, documents = front ++ document :: back →
      let migrated := migrateDocuments host keys.signingSeed (keys.cipher host) faults store front
      migrated.result = .ok () → ∃ authored, authorDocument host keys.signingSeed
        (keys.cipher host) migrated.store document (faults document) = .ok authored) :
    (migrateDocuments host keys.signingSeed (keys.cipher host) faults store documents).result =
      .ok () := by
  induction documents generalizing store with
  | nil => rfl
  | cons first rest ih =>
    obtain ⟨authored, made⟩ := goesOn [] first rest rfl rfl
    rw [migrateDocuments] at made
    simp only [migrateDocuments, made]
    refine ih fun front document back split => ?_
    have next := goesOn (first :: front) document back (by rw [split, List.cons_append])
    simpa only [migrateDocuments, made] using next

theorem Unbroken.done_or_untouched {documents : List VaultDocument}
    (unbroken : Unbroken host keys faults store documents) :
    let migrated := migrateDocuments host keys.signingSeed (keys.cipher host) faults store documents
    migrated.result = .ok () ∨
      ∃ error, migrated.result = .error error ∧ migrated.store = store ∧ migrated.authored = [] := by
  cases documents with
  | nil => exact .inl rfl
  | cons first rest =>
    cases made : authorDocument host keys.signingSeed (keys.cipher host) store first
        (faults first) with
    | error error =>
      refine .inr ⟨error, ?_⟩
      simp only [migrateDocuments, made, and_self]
    | ok authored =>
      refine .inl ?_
      simp only [migrateDocuments, made]
      refine migrateDocuments_done fun front document back split => ?_
      have next := unbroken (first :: front) document back
        (by rw [split, List.cons_append]) (List.cons_ne_nil _ _)
      simpa only [migrateDocuments, made] using next

end unbroken

end KnotEditor
