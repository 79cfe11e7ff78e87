import KnotEditor.Sync.RetentionRuns

/-! The retain and organize calls themselves, and what holds after every run of them. -/

namespace KnotEditor

open Fallible KeyedCollections

section

variable {host : RetentionHost} {cipher : KnotSyncCipher} {maxItems maxBytes : Nat}
variable {signingSeed : Bytes32} {store accepted : KnotSyncStore} {order : List Operation}
variable {hash : Bytes32} {repeated : Bool}

theorem compositionItem_parses (composition : CompositionHost) (json : String)
    (item : CollectionItem composition.Scene composition.Recipe)
    (parsed : compositionItem composition json = .ok item) :
    composition.parseItem json = .ok item := by
  simp only [compositionItem, refuse_eq_ok_iff, bind_eq_ok_iff, mapError_eq_ok_iff] at parsed
  rcases parsed with ⟨_, read, written, _, _, done⟩
  cases done
  exact written

structure Answered (host : RetentionHost) (cipher : KnotSyncCipher) (maxItems maxBytes : Nat)
    (store accepted : KnotSyncStore) (order : List Operation) (hash : Bytes32)
    (repeated : Bool) : Prop where
  unchanged : repeated = true → accepted = store
  added : repeated = false → ∃ operation,
    operation.hash = hash ∧ Kept host cipher maxItems maxBytes accepted (order ++ [operation])

theorem retain_answered (reliance : RetentionReliance host cipher)
    (kept : Kept host cipher maxItems maxBytes store order) (item : host.Item)
    (called : store.retainCompositionWithCipher host cipher maxItems maxBytes signingSeed item =
      .ok ((hash, repeated), accepted)) :
    Answered host cipher maxItems maxBytes store accepted order hash repeated := by
  simp only [KnotSyncStore.retainCompositionWithCipher, bind_eq_ok_iff] at called
  rcases called with ⟨_, _, _, _, ⟨values, total⟩, organized, existing, listed, chosen⟩
  rcases (organized_eq_ok_iff kept.closed values total).mp organized with
    ⟨retained, items, reported⟩
  rcases (composition_eq_ok_iff kept.closed existing).mp listed with ⟨again, bytes, folded, rfl⟩
  rcases reported.retains with ⟨counted, replayed⟩
  cases folded.symm.trans replayed
  cases found : retained.values.find? (fun candidate =>
      candidate.author == host.verifyingKey signingSeed && candidate.item.id == item.id) with
  | some candidate =>
    simp only [found] at chosen
    by_cases same : host.sameItem candidate.item item = true
    · rw [if_pos same] at chosen
      cases chosen
      exact ⟨fun _ => rfl, by intros; contradiction⟩
    · rw [if_neg same] at chosen
      cases chosen
  | none =>
    simp only [found, refuse_eq_ok_iff, bind_eq_ok_iff, mapError_eq_ok_iff] at chosen
    rcases chosen with ⟨room, itemJson, written, parsed, checked, bounded, ⟨operation, extended⟩,
      authored, made⟩
    cases made
    rcases authored_spec (reliance.opens _) authored with ⟨_, _, author, _⟩
    have named := reliance.itemId item itemJson parsed written
      (compositionItem_parses _ _ _ checked)
    have retains := retainFold_retains order _ replayed
    refine ⟨by intros; contradiction, fun _ => ⟨operation, rfl, ?_⟩⟩
    refine kept_retained kept (appended reliance kept.closed authored) reported checked ?_ ?_
      (Nat.not_lt.mp bounded)
    · rw [author, named]
      exact retained_absent retained retains ⟨_, item.id⟩ found
    · rw [values_eq_map_toList, List.length_map, Std.ExtTreeMap.length_toList] at room
      exact Nat.not_le.mp room

theorem validated_organization {order : List Operation} {causal : CausalIndex}
    {parents : List Bytes32} {scope author originalAuthor previous : Bytes32} {itemId json : String}
    (valid : validateLocalRelationEvent host.toSyncHost
      (.organizeCompositionV1 originalAuthor itemId previous json) author order cipher causal
      parents scope = .ok ()) :
    ∃ organization, compositionOrganization host.composition json = .ok organization := by
  simp only [validateLocalRelationEvent, validateLocalOrganization, refuse_eq_ok_iff,
    bind_eq_ok_iff] at valid
  rcases valid with ⟨_, organization, parsed, _⟩
  exact ⟨organization, parsed⟩

theorem organize_current (change : OrganizeComposition)
    (called : store.organizeCompositionWithCipher host cipher maxItems maxBytes signingSeed
      change = .ok ((hash, repeated), accepted)) :
    ∃ values total current, store.organizedCompositionWithCipher host cipher maxItems maxBytes =
        .ok (values, total) ∧
      current ∈ values ∧ current.author = change.author ∧ current.item.id = change.itemId ∧
      current.revision = change.expectedRevision ∧
      ((repeated = true ∧ accepted = store) ∨
        ∃ organizationJson operation, repeated = false ∧ operation.hash = hash ∧
          saturatingAdd total organizationJson.utf8ByteSize ≤ maxBytes ∧
          store.authorUnderGate host.toSyncHost signingSeed cipher
            (.organizeCompositionV1 change.author change.itemId change.expectedRevision
              organizationJson) .now = .ok (operation, accepted)) := by
  simp only [KnotSyncStore.organizeCompositionWithCipher, bind_eq_ok_iff] at called
  rcases called with ⟨_, _, _, _, _, _, ⟨values, total⟩, organized, chosen⟩
  cases found : values.find? (fun entry =>
      entry.author == change.author && entry.item.id == change.itemId) with
  | none =>
    rw [found] at chosen
    cases chosen
  | some current =>
    simp only [found, refuse_eq_ok_iff, Decidable.not_not] at chosen
    rcases chosen with ⟨expected, chosen⟩
    have matched := List.find?_some found
    simp only [Bool.and_eq_true, beq_iff_eq] at matched
    refine ⟨values, total, current, organized, List.mem_of_find?_eq_some found, matched.1,
      matched.2, expected, ?_⟩
    by_cases same : current.organization = change.organization
    · rw [if_pos same] at chosen
      cases chosen
      exact Or.inl ⟨rfl, rfl⟩
    · simp only [if_neg same, bind_eq_ok_iff, refuse_eq_ok_iff, mapError_eq_ok_iff] at chosen
      rcases chosen with ⟨json, _, bounded, ⟨operation, extended⟩, authored, made⟩
      cases made
      exact Or.inr ⟨json, operation, rfl, rfl, Nat.not_lt.mp bounded, authored⟩

theorem organize_answered (reliance : RetentionReliance host cipher)
    (kept : Kept host cipher maxItems maxBytes store order) (change : OrganizeComposition)
    (called : store.organizeCompositionWithCipher host cipher maxItems maxBytes signingSeed
      change = .ok ((hash, repeated), accepted)) :
    Answered host cipher maxItems maxBytes store accepted order hash repeated := by
  rcases organize_current change called with ⟨values, total, current, organized, member, author,
    itemId, expected, ⟨rfl, same⟩ | ⟨json, operation, rfl, same, bounded, authored⟩⟩
  · exact ⟨fun _ => same, by intros; contradiction⟩
  · refine ⟨by intros; contradiction, fun _ => ⟨operation, same, ?_⟩⟩
    rcases (organized_eq_ok_iff kept.closed values total).mp organized with
      ⟨retained, items, reported⟩
    rcases authored_spec (reliance.opens _) authored with ⟨_, _, _, _, _, _, _, valid⟩
    rcases validated_organization valid with ⟨organization, parsed⟩
    have held := reported.key_of_mem current member
    rw [author, itemId] at held
    exact kept_organized kept (appended reliance kept.closed authored) reported held expected
      parsed bounded

theorem call_answered (reliance : RetentionReliance host cipher)
    (kept : Kept host cipher maxItems maxBytes store order) (call : CompositionCall host)
    (called : store.callComposition host cipher signingSeed maxItems maxBytes call =
      .ok ((hash, repeated), accepted)) :
    Answered host cipher maxItems maxBytes store accepted order hash repeated := by
  cases call with
  | retain item => exact retain_answered reliance kept item called
  | organize change => exact organize_answered reliance kept change called

theorem performComposition_kept (reliance : RetentionReliance host cipher)
    (kept : Kept host cipher maxItems maxBytes store order) (call : CompositionCall host) :
    ∃ after, Kept host cipher maxItems maxBytes
      (store.performComposition host cipher signingSeed maxItems maxBytes call) after := by
  rw [KnotSyncStore.performComposition]
  cases called : store.callComposition host cipher signingSeed maxItems maxBytes call with
  | error error => exact ⟨order, kept⟩
  | ok answer =>
    rcases answer with ⟨⟨hash, repeated⟩, accepted⟩
    have answered := call_answered reliance kept call called
    cases repeated with
    | true =>
      rw [answered.unchanged rfl]
      exact ⟨order, kept⟩
    | false =>
      rcases answered.added rfl with ⟨operation, _, extended⟩
      exact ⟨order ++ [operation], extended⟩

theorem callIntact_of_kept (reliance : RetentionReliance host cipher)
    (kept : Kept host cipher maxItems maxBytes store order) (call : CompositionCall host) :
    CallIntact host cipher signingSeed maxItems maxBytes store call where
  repeated := fun _ _ called => (call_answered reliance kept call called).unchanged rfl
  refused := by
    intro error called
    rw [KnotSyncStore.performComposition, called]
  added := by
    intro hash accepted called
    rcases (call_answered reliance kept call called).added rfl with ⟨operation, same, extended⟩
    exact ⟨order, operation, kept.closed.closed, extended.closed.closed, same⟩
  current := by
    rintro change ⟨hash, repeated⟩ accepted rfl called
    rcases organize_current change called with
      ⟨values, total, current, organized, member, author, itemId, expected, _⟩
    rcases (organized_eq_ok_iff kept.closed values total).mp organized with
      ⟨retained, items, reported⟩
    refine ⟨values, total, organized, ⟨current, member, author, itemId⟩, ?_⟩
    intro entry other wrote named
    have one := reported.key_of_mem current member
    have two := reported.key_of_mem entry other
    rw [author, itemId] at one
    rw [wrote, named, one] at two
    cases two
    exact expected

end

section

variable (host : RetentionHost) (cipher : KnotSyncCipher) (maxItems maxBytes : Nat)

theorem kept_empty (reliance : RetentionReliance host cipher) (policy : KnotSyncPolicy)
    (profile : cipher.profile = policy.encryption) :
    Kept host cipher maxItems maxBytes ⟨[], policy⟩ [] where
  closed := ⟨profile, reliance.empty policy, by simp, ⟨by simp, by simp, by simp⟩⟩
  reported := ⟨_, 0, ∅, _, ⟨0, rfl⟩, rfl, rfl⟩
  single := by simp

end

def CausalIndex.byPosition (hashes : List Bytes32) : CausalIndex where
  happensBefore earlier later :=
    hashes.contains later && decide (hashes.idxOf earlier < hashes.idxOf later)

def noteItem (id : String) : CollectionItem Unit Unit where
  id := id
  collection := "drafts"
  kind := .note
  label := "note"
  text := "text"
  projectionRecipe := none
  metreScene := none
  packSources := []
  documentSource := none
  authorNotes := ""
  tags := []
  order := 0

def namedOrganization (label : String) : CollectionOrganization :=
  { CollectionOrganization.fromItem (noteItem "note") with label }

def storeFresh (records : List StoredKnotOperation) (operation : Operation) (logId : Nat) :
    Except String (List StoredKnotOperation) :=
  if (records.map fun record => record.operation.hash).contains operation.hash then
    .error "operation is already stored"
  else
    .ok (records ++ [⟨operation, logId⟩])

def RetentionHost.sample (vocabulary : List KnotSyncEvent) : RetentionHost where
  toSyncHost := { SyncHost.sample (.ofPairs []) vocabulary with
    composition := { CompositionHost.sample with
      parseItem := fun json => .ok (noteItem json)
      parseOrganization := fun json => .ok (namedOrganization json) }
    causalIndex := fun entries => .byPosition (entries.map fun entry => entry.operation.hash)
    storeOperation := storeFresh
    eventToJson := fun event =>
      if event ∈ vocabulary then .ok ⟨#[UInt8.ofNat (vocabulary.idxOf event)]⟩
      else .error "unknown variant"
    headerHash := fun header => .filled (UInt8.ofNat (header.extensions.parents.length + 1)) }
  itemToJson item := .ok item.id
  organizationToJson organization := .ok organization.label
  sameScene _ _ := true
  sameRecipe _ _ := true

def retentionEvents : List KnotSyncEvent :=
  [.retainCompositionV1 "note", .organizeCompositionV1 (.filled 10) "note" (.filled 1) "renamed"]

def retentionCalls : List (CompositionCall (.sample retentionEvents)) :=
  [.retain (noteItem "note"),
    .organize ⟨.filled 10, "note", .filled 1, namedOrganization "renamed"⟩,
    .organize ⟨.filled 10, "note", .filled 1, namedOrganization "stale"⟩]

theorem hashes_eq (store : KnotSyncStore) :
    store.entries.map (fun entry => entry.operation.hash) =
      (store.records.map StoredKnotOperation.operation).map Operation.hash := by
  simp [KnotSyncStore.entries, causalEntries]

section

variable {vocabulary : List KnotSyncEvent} {hashes : List Bytes32} {fresh : Bytes32}

theorem sample_closed_iff (store : KnotSyncStore) (order : List Operation)
    (pending : List PendingCausalOperation) :
    store.closedOperations (RetentionHost.sample vocabulary).toSyncHost = .ok (order, pending) ↔
      order = store.records.map StoredKnotOperation.operation ∧ pending = [] := by
  have found : store.closedOperations (RetentionHost.sample vocabulary).toSyncHost =
      .ok (store.records.map StoredKnotOperation.operation, []) :=
    KnotSyncStore.closedOperations_range (fun _ => rfl) store
  rw [found, Except.ok.injEq, Prod.mk.injEq]
  exact and_congr eq_comm eq_comm

theorem sample_causal (store : KnotSyncStore) :
    store.causal (RetentionHost.sample vocabulary).toSyncHost =
      .byPosition ((store.records.map StoredKnotOperation.operation).map Operation.hash) :=
  congrArg CausalIndex.byPosition (hashes_eq store)

theorem byPosition_append_of_ne (earlier later : Bytes32)
    (differs : later ≠ fresh) :
    (CausalIndex.byPosition (hashes ++ [fresh])).happensBefore earlier later =
      (CausalIndex.byPosition hashes).happensBefore earlier later := by
  by_cases known : later ∈ hashes
  · by_cases first : earlier ∈ hashes
    · simp [CausalIndex.byPosition, List.idxOf_append, known, first]
    · have bound := List.idxOf_lt_length_of_mem known
      simp [CausalIndex.byPosition, List.idxOf_append, known, first]
      omega
  · simp [CausalIndex.byPosition, known, differs]

theorem byPosition_append_self (absent : fresh ∉ hashes) (earlier : Bytes32) :
    (CausalIndex.byPosition (hashes ++ [fresh])).happensBefore earlier fresh =
      hashes.contains earlier := by
  by_cases first : earlier ∈ hashes
  · have bound := List.idxOf_lt_length_of_mem first
    simp [CausalIndex.byPosition, List.idxOf_append, absent, first, bound]
  · simp [CausalIndex.byPosition, List.idxOf_append, absent, first]

theorem byPosition_append_leaf (absent : fresh ∉ hashes) (later : Bytes32) :
    (CausalIndex.byPosition (hashes ++ [fresh])).happensBefore fresh later = false := by
  by_cases known : later ∈ hashes
  · have bound := List.idxOf_lt_length_of_mem known
    simp [CausalIndex.byPosition, List.idxOf_append, absent, known]
    omega
  · by_cases same : later = fresh
    · simp [CausalIndex.byPosition, same]
    · simp [CausalIndex.byPosition, known, same]

theorem frontierObserves_byPosition (observed : Bytes32) :
    frontierObserves (.byPosition hashes) hashes observed = hashes.contains observed := by
  rw [Bool.eq_iff_iff, List.contains_iff_mem]
  simp only [frontierObserves, CausalIndex.byPosition, List.any_eq_true, Bool.or_eq_true,
    beq_iff_eq, Bool.and_eq_true, decide_eq_true_eq]
  constructor
  · rintro ⟨parent, member, same | ⟨_, before⟩⟩
    · exact same ▸ member
    · by_contra outside
      have bound := List.idxOf_lt_length_of_mem member
      rw [List.idxOf_eq_length outside] at before
      omega
  · intro member
    exact ⟨observed, member, Or.inl rfl⟩

theorem sample_placed (store accepted : KnotSyncStore) (order : List Operation)
    (operation : Operation)
    (closed : order = store.records.map StoredKnotOperation.operation)
    (ordered : CausalOrder (store.causal (RetentionHost.sample vocabulary).toSyncHost) order)
    (observed : operation.header.extensions.parents = order.map Operation.hash)
    (kept : accepted.records = store.records ++ [⟨operation, logId⟩])
    (absent : operation.hash ∉ order.map Operation.hash) :
    Placement (RetentionHost.sample vocabulary).toSyncHost store accepted operation order [] := by
  rw [sample_causal, ← closed] at ordered
  have stored : accepted.records.map StoredKnotOperation.operation = order ++ [operation] := by
    rw [kept, List.map_append, ← closed]
    rfl
  have later : accepted.causal (RetentionHost.sample vocabulary).toSyncHost =
      .byPosition (order.map Operation.hash ++ [operation.hash]) := by
    rw [sample_causal, stored, List.map_append]
    rfl
  have ne : ∀ earlier ∈ order, earlier.hash ≠ operation.hash := by
    intro earlier member same
    exact absent (same ▸ List.mem_map_of_mem member)
  refine ⟨⟨[], ?_⟩, ⟨[], ?_⟩, ?_, ?_, ?_, ?_⟩
  · rw [sample_closed_iff, List.append_nil]
    exact ⟨closed, rfl⟩
  · rw [sample_closed_iff]
    exact ⟨stored.symm, rfl⟩
  · rw [later]
    refine ⟨?_, ?_, ?_, ?_⟩
    · rw [List.map_append, List.nodup_append]
      refine ⟨ordered.distinct, by simp, ?_⟩
      intro one member two last same
      rw [List.map_singleton, List.mem_singleton] at last
      exact absent (last ▸ same ▸ member)
    · rw [List.nodup_append]
      refine ⟨ordered.extension.nodup, by simp, ?_⟩
      intro one member two last same
      cases List.mem_singleton.mp last
      exact ne one member (congrArg Operation.hash same)
    · rw [List.pairwise_append]
      refine ⟨?_, by simp, ?_⟩
      · refine ordered.extension.forward.imp_of_mem ?_
        intro one two member _ apart precedes
        rw [CausalIndex.Precedes, byPosition_append_of_ne _ _ (ne one member)] at precedes
        exact apart precedes
      · intro one member two last precedes
        cases List.mem_singleton.mp last
        rw [CausalIndex.Precedes, byPosition_append_leaf absent] at precedes
        cases precedes
    · intro one _ precedes
      simp [CausalIndex.Precedes, CausalIndex.byPosition] at precedes
  · intro earlier other differs
    rw [later, byPosition_append_of_ne _ _ differs, sample_causal, ← closed]
  · intro earlier
    rw [later, byPosition_append_self absent, observed, sample_causal, ← closed,
      frontierObserves_byPosition]
  · intro other
    rw [later, byPosition_append_leaf absent]

theorem sample_opens (short : vocabulary.length ≤ 256) (event : KnotSyncEvent) :
    OpensSealed (RetentionHost.sample vocabulary).toSyncHost (.personal .sample) event where
  json := by
    intro bytes written
    by_cases known : event ∈ vocabulary
    · have bound := List.idxOf_lt_length_of_mem known
      simp only [RetentionHost.sample, if_pos known, Except.ok.injEq] at written
      subst written
      change (vocabulary[(UInt8.ofNat (vocabulary.idxOf event)).toNat]?).elim
        (.error "unknown variant") .ok = Except.ok event
      rw [UInt8.toNat_ofNat', Nat.mod_eq_of_lt (by omega), List.getElem?_eq_getElem bound,
        List.getElem_idxOf]
      rfl
    · simp only [RetentionHost.sample, if_neg known] at written
      cases written
  personal := by
    rintro vault same aad plaintext ciphertext hidden
    cases same
    exact hidden.symm
  commons := by intros; contradiction
  envelope := by intros; contradiction
  header := fun _ _ _ _ _ => ⟨rfl, rfl, rfl⟩

theorem sample_reliance (short : vocabulary.length ≤ 256) :
    RetentionReliance (.sample vocabulary) (.personal .sample) where
  opens := sample_opens short
  itemId := by
    rintro item json parsed written read
    cases written
    cases read
    rfl
  empty := fun _ => rfl
  frontier := by
    intro store order parents closed observed operation member
    rcases (sample_closed_iff store order []).mp closed with ⟨same, _⟩
    cases observed
    rw [hashes_eq, sample_causal, frontierObserves_byPosition, ← same, List.contains_iff_mem]
    exact List.mem_map_of_mem member
  placed := by
    intro store accepted seed event time operation order closed ordered authored
    rcases (sample_closed_iff store order []).mp closed with ⟨same, _⟩
    rw [KnotSyncStore.authorUnderGate] at authored
    simp only [bind_eq_ok_iff, mapError_eq_ok_iff, Prod.exists] at authored
    rcases authored with ⟨_, _, parents, observed, _, _, _, _, _, seqNum, backlink, _, _, _,
      ciphertext, _, extended, kept, made⟩
    cases made
    cases observed
    simp only [KnotSyncStore.acceptUnderGate, bind_eq_ok_iff, mapError_eq_ok_iff] at kept
    rcases kept with ⟨_, _, records, storing, done⟩
    cases done
    have records : (store.records.map fun record => record.operation.hash) =
        order.map Operation.hash := by
      rw [same, List.map_map]
      rfl
    simp only [RetentionHost.sample, storeFresh] at storing
    split at storing
    · cases storing
    · rename_i unknown
      cases storing
      rw [records, List.contains_iff_mem] at unknown
      have observed := (hashes_eq store).trans (congrArg (List.map Operation.hash) same.symm)
      refine ⟨order, [], (List.append_nil order).symm, (sample_closed_iff _ _ _).mpr ⟨?_, rfl⟩,
        sample_placed store _ order _ same ordered observed rfl unknown⟩
      rw [List.map_append, ← same]
      rfl

end

example : (retentionCalls.foldl (KnotSyncStore.performComposition (.sample retentionEvents)
    (.personal .sample) (.filled 10) 4 1000) (.sample [])).records.length = 2 := by decide

end KnotEditor
