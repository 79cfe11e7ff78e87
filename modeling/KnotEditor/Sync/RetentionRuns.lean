import KnotEditor.Library.Run
import KnotEditor.Sync.RetentionReplay

/-! Runs of retain and organize calls by one writer on a space that starts empty. -/

namespace KnotEditor

open Fallible KeyedCollections

variable (host : RetentionHost) (cipher : KnotSyncCipher) (maxItems maxBytes : Nat)

/-- What the runs rely on outside this repository: seals and serializers give back what they were
given, a frontier has seen every closed operation, and an operation authored behind it joins the
closed history. -/
structure RetentionReliance : Prop where
  opens : ∀ event, OpensSealed host.toSyncHost cipher event
  itemId : ∀ item json parsed, host.itemToJson item = .ok json →
    host.composition.parseItem json = .ok parsed → parsed.id = item.id
  empty : ∀ policy, KnotSyncStore.closedOperations ⟨[], policy⟩ host.toSyncHost = .ok ([], [])
  frontier : ∀ (store : KnotSyncStore) order parents,
    store.closedOperations host.toSyncHost = .ok (order, []) →
      host.observedFrontier store.entries = .ok parents → ∀ operation ∈ order,
        frontierObserves (store.causal host.toSyncHost) parents operation.hash = true
  placed : ∀ (store accepted : KnotSyncStore) seed event time operation order,
    store.closedOperations host.toSyncHost = .ok (order, []) →
      CausalOrder (store.causal host.toSyncHost) order →
        store.authorUnderGate host.toSyncHost seed cipher event time =
          .ok (operation, accepted) →
          ∃ before after, order = before ++ after ∧
            accepted.closedOperations host.toSyncHost =
              .ok (before ++ operation :: after, []) ∧
            Placement host.toSyncHost store accepted operation before after

structure Closed (store : KnotSyncStore) (order : List Operation) : Prop where
  profile : cipher.profile = store.policy.encryption
  closed : store.closedOperations host.toSyncHost = .ok (order, [])
  ordered : CausalOrder (store.causal host.toSyncHost) order

structure Reported (store : KnotSyncStore) (order : List Operation)
    (values : List (OrganizedComposition host)) (total : Nat)
    (retained : RetentionItems host) (items : OrganizationItems host) : Prop where
  retains : ∃ bytes, retainFold host cipher maxItems maxBytes order = .ok (retained, bytes)
  organizes : organizeFold host cipher maxBytes (store.causal host.toSyncHost)
    (collect (fun retained => RetentionKey.mk retained.author retained.item.id)
      (fun retained => some (KnotSyncStore.startOrganized retained)) retained.values) order =
    .ok (items, total)
  values : values = items.values

section

variable {host : RetentionHost} {cipher : KnotSyncCipher} {maxItems maxBytes : Nat}
variable {store accepted : KnotSyncStore} {order : List Operation}

theorem composition_eq_ok_iff (closed : Closed host cipher store order)
    (existing : List (RetainedComposition host)) :
    store.compositionWithCipher host cipher maxItems maxBytes = .ok existing ↔
      ∃ retained bytes, retainFold host cipher maxItems maxBytes order = .ok (retained, bytes) ∧
        existing = retained.values := by
  have required := KnotSyncStore.requireCipher_ok_iff.mpr closed.profile
  simp only [KnotSyncStore.compositionWithCipher, bind_eq_ok_iff, refuse_eq_ok_iff, required,
    closed.closed]
  constructor
  · rintro ⟨_, _, _, same, _, ⟨retained, bytes⟩, folded, done⟩
    cases same
    cases done
    exact ⟨retained, bytes, folded, rfl⟩
  · rintro ⟨retained, bytes, folded, rfl⟩
    exact ⟨(), trivial, _, rfl, by simp, (retained, bytes), folded, rfl⟩

theorem organized_eq_ok_iff (closed : Closed host cipher store order)
    (values : List (OrganizedComposition host)) (total : Nat) :
    store.organizedCompositionWithCipher host cipher maxItems maxBytes = .ok (values, total) ↔
      ∃ retained items, Reported host cipher maxItems maxBytes store order values total retained
        items := by
  simp only [KnotSyncStore.organizedCompositionWithCipher, bind_eq_ok_iff, refuse_eq_ok_iff,
    composition_eq_ok_iff closed, closed.closed]
  constructor
  · rintro ⟨_, ⟨retained, bytes, folded, rfl⟩, _, same, _, ⟨items, sum⟩, organized, done⟩
    cases same
    cases done
    exact ⟨retained, items, ⟨bytes, folded⟩, organized, rfl⟩
  · rintro ⟨retained, items, ⟨bytes, folded⟩, organized, rfl⟩
    exact ⟨_, ⟨retained, bytes, folded, rfl⟩, _, rfl, by simp, (items, total), organized, rfl⟩

theorem getElem?_started (retained : RetentionItems host)
    (retains : Retains host cipher order retained) (key : RetentionKey) :
    (collect (fun retained => RetentionKey.mk retained.author retained.item.id)
      (fun retained => some (KnotSyncStore.startOrganized retained)) retained.values)[key]? =
      retained[key]?.map KnotSyncStore.startOrganized := by
  have keyed : ∀ entry ∈ retained.toList,
      RetentionKey.mk entry.2.author entry.2.item.id = entry.1 := by
    intro entry member
    rcases retains.made entry.1 entry.2
      (Std.ExtTreeMap.mem_toList_iff_getElem?_eq_some.mp member) with ⟨author, itemId, _⟩
    rw [author, itemId]
  have distinct : (retained.values.map fun retained =>
      RetentionKey.mk retained.author retained.item.id).Nodup := by
    have keys : (retained.values.map fun retained =>
        RetentionKey.mk retained.author retained.item.id) = retained.keys := by
      rw [values_eq_map_toList, ← Std.ExtTreeMap.map_fst_toList_eq_keys, List.map_map]
      exact List.map_congr_left keyed
    rw [keys]
    exact Std.ExtTreeMap.nodup_keys
  apply Option.ext
  intro found
  rw [getElem?_collect distinct, Option.map_eq_some_iff]
  constructor
  · rintro ⟨value, member, same, produced⟩
    rcases (mem_values_iff retained value).mp member with ⟨query, read⟩
    have named := keyed (query, value) (Std.ExtTreeMap.mem_toList_iff_getElem?_eq_some.mpr read)
    cases same.symm.trans named
    exact ⟨value, read, Option.some.inj produced⟩
  · rintro ⟨value, read, same⟩
    have named := keyed (key, value) (Std.ExtTreeMap.mem_toList_iff_getElem?_eq_some.mpr read)
    exact ⟨value, (mem_values_iff retained value).mpr ⟨key, read⟩, named, congrArg some same⟩

structure Appended (host : RetentionHost) (cipher : KnotSyncCipher)
    (store accepted : KnotSyncStore) (order : List Operation) (operation : Operation)
    (event : KnotSyncEvent) : Prop where
  closed : Closed host cipher accepted (order ++ [operation])
  unchanged : ∀ later ∈ order, ∀ earlier,
    (store.causal host.toSyncHost).happensBefore earlier later.hash =
      (accepted.causal host.toSyncHost).happensBefore earlier later.hash
  behind : ∀ earlier ∈ order,
    (accepted.causal host.toSyncHost).happensBefore earlier.hash operation.hash = true
  decoded : decodeEvent host.toSyncHost cipher operation = .ok event

theorem authored_frontier (reliance : RetentionReliance host cipher) {seed : Bytes32}
    {event : KnotSyncEvent} {time : KnotAssertedTime} {operation : Operation}
    (authored : store.authorUnderGate host.toSyncHost seed cipher event time =
      .ok (operation, accepted)) :
    host.observedFrontier store.entries = .ok operation.header.extensions.parents := by
  rw [KnotSyncStore.authorUnderGate] at authored
  simp only [bind_eq_ok_iff, mapError_eq_ok_iff, Prod.exists] at authored
  rcases authored with ⟨_, _, parents, observed, _, _, _, _, _, seqNum, backlink, _, _, _,
    ciphertext, _, _, _, made⟩
  cases made
  rw [observed, ((reliance.opens event).header seed ciphertext seqNum backlink _).2.2]

theorem appended (reliance : RetentionReliance host cipher) {seed : Bytes32}
    {event : KnotSyncEvent} {time : KnotAssertedTime} {operation : Operation}
    (closed : Closed host cipher store order)
    (authored : store.authorUnderGate host.toSyncHost seed cipher event time =
      .ok (operation, accepted)) :
    Appended host cipher store accepted order operation event := by
  rcases authored_spec (reliance.opens event) authored with
    ⟨_, policy, _, decoded, _⟩
  rcases reliance.placed store accepted seed event time operation order closed.closed
    closed.ordered authored with ⟨before, after, rfl, extended, placed⟩
  have observed := reliance.frontier store _ _ closed.closed (authored_frontier reliance authored)
  have behind : ∀ earlier ∈ before ++ after,
      (accepted.causal host.toSyncHost).happensBefore earlier.hash operation.hash = true := by
    intro earlier member
    rw [placed.observes earlier.hash]
    exact observed earlier member
  have last : after = [] := by
    cases after with
    | nil => rfl
    | cons next rest =>
      have member : next ∈ before ++ next :: rest := by simp
      have early := placed.ordered.mem_front (Placement.mem_extended_iff.mpr (Or.inr member))
        (behind next member)
      have nodup := placed.localOrder.extension.nodup
      exact absurd rfl ((List.nodup_append.mp nodup).2.2 next early next List.mem_cons_self)
  subst last
  rw [List.append_nil] at behind ⊢
  refine ⟨⟨?_, extended, placed.ordered⟩, ?_, behind, decoded⟩
  · rw [policy]
    exact closed.profile
  · intro later member earlier
    exact (placed.unchanged earlier later.hash (placed.hash_ne (by simpa using member))).symm

structure Kept (host : RetentionHost) (cipher : KnotSyncCipher) (maxItems maxBytes : Nat)
    (store : KnotSyncStore) (order : List Operation) : Prop where
  closed : Closed host cipher store order
  reported : ∃ values total retained items,
    Reported host cipher maxItems maxBytes store order values total retained items
  single : ∀ first ∈ order, ∀ second ∈ order, ∀ key, retainedKey host cipher first = some key →
    retainedKey host cipher second = some key → first = second

theorem retained_absent (retained : RetentionItems host)
    (retains : Retains host cipher order retained) (key : RetentionKey)
    (unfound : retained.values.find? (fun candidate =>
      candidate.author == key.author && candidate.item.id == key.itemId) = none) :
    retained[key]? = none := by
  cases held : retained[key]? with
  | none => rfl
  | some value =>
    rcases retains.made key value held with ⟨author, itemId, _⟩
    have missed := List.find?_eq_none.mp unfound value
      ((mem_values_iff retained value).mpr ⟨key, held⟩)
    rw [author, itemId] at missed
    simp at missed

theorem retainStep_fresh (state : RetentionItems host × Nat) (operation : Operation)
    (itemJson : String) (item : host.Item)
    (decoded : decodeEvent host.toSyncHost cipher operation = .ok (.retainCompositionV1 itemJson))
    (parsed : compositionItem host.composition itemJson = .ok item)
    (bounded : saturatingAdd state.2 itemJson.utf8ByteSize ≤ maxBytes)
    (absent : state.1[RetentionKey.mk operation.author item.id]? = none)
    (room : state.1.size < maxItems) :
    retainStep host cipher maxItems maxBytes state operation =
      .ok (state.1.insert ⟨operation.author, item.id⟩ ⟨item, operation.hash, operation.author⟩,
        saturatingAdd state.2 itemJson.utf8ByteSize) := by
  have notHeld : state.1.contains (RetentionKey.mk operation.author item.id) = false := by
    rw [Std.ExtTreeMap.contains_eq_isSome_getElem?, absent]
    rfl
  have size : (state.1.insert (RetentionKey.mk operation.author item.id)
      (RetainedComposition.mk item operation.hash operation.author)).size ≤ maxItems := by
    rw [Std.ExtTreeMap.size_insert, if_neg (by simp [notHeld])]
    omega
  rw [retainStep]
  refine bind_eq_ok_iff.mpr ⟨_, decoded, ?_⟩
  refine bind_eq_ok_iff.mpr ⟨item, parsed, ?_⟩
  refine refuse_eq_ok_iff.mpr ⟨Nat.not_lt.mpr bounded, ?_⟩
  simp only [absent]
  exact refuse_eq_ok_iff.mpr ⟨Nat.not_lt.mpr size, rfl⟩

theorem started_insert (retained : RetentionItems host) (key : RetentionKey)
    (fresh : RetainedComposition host) {later : List Operation}
    (before : Retains host cipher order retained)
    (after : Retains host cipher later (retained.insert key fresh)) :
    collect (fun retained => RetentionKey.mk retained.author retained.item.id)
        (fun retained => some (KnotSyncStore.startOrganized retained))
        (retained.insert key fresh).values =
      (collect (fun retained => RetentionKey.mk retained.author retained.item.id)
        (fun retained => some (KnotSyncStore.startOrganized retained))
        retained.values).insert key (KnotSyncStore.startOrganized fresh) := by
  apply Std.ExtTreeMap.ext_getElem?
  intro query
  rw [getElem?_started _ after]
  by_cases same : key = query
  · subst same
    rw [Std.ExtTreeMap.getElem?_insert_self, Std.ExtTreeMap.getElem?_insert_self,
      Option.map_some]
  · rw [getElem?_insert_of_ne _ same, getElem?_insert_of_ne _ same, getElem?_started _ before]

theorem kept_retained {operation : Operation} {itemJson : String} {item : host.Item}
    {values : List (OrganizedComposition host)} {total : Nat} {retained : RetentionItems host}
    {items : OrganizationItems host} (kept : Kept host cipher maxItems maxBytes store order)
    (extended : Appended host cipher store accepted order operation
      (.retainCompositionV1 itemJson))
    (reported : Reported host cipher maxItems maxBytes store order values total retained items)
    (parsed : compositionItem host.composition itemJson = .ok item)
    (absent : retained[RetentionKey.mk operation.author item.id]? = none)
    (room : retained.size < maxItems)
    (bounded : saturatingAdd total itemJson.utf8ByteSize ≤ maxBytes) :
    Kept host cipher maxItems maxBytes accepted (order ++ [operation]) := by
  rcases reported.retains with ⟨bytes, folded⟩
  have retains := retainFold_retains order _ folded
  have less := (retained_le_total _ order _ _ folded reported.organizes).1
  have fits : saturatingAdd bytes itemJson.utf8ByteSize ≤ maxBytes :=
    Nat.le_trans (saturatingAdd_le _ _ _ less) bounded
  have extendedFold := foldlM_append_singleton_eq_ok_iff.mpr ⟨_, folded,
    retainStep_fresh (retained, bytes) operation itemJson item extended.decoded parsed fits absent
      room⟩
  have extendedRetains := retainFold_retains (order ++ [operation]) _ extendedFold
  have missing := getElem?_started retained retains (RetentionKey.mk operation.author item.id)
  rw [absent, Option.map_none] at missing
  have beside := (organizeFold_beside _ (KnotSyncStore.startOrganized
    ⟨item, operation.hash, operation.author⟩) _ missing order _ reported.organizes).2
  have organized := foldlM_append_singleton_eq_ok_iff.mpr ⟨_,
    organizeFold_causal order _ extended.unchanged _ beside,
    (organizeStep_ok_iff _ (_, _)).mpr ⟨_, extended.decoded, rfl, bounded⟩⟩
  rw [← started_insert retained _ _ retains extendedRetains] at organized
  refine ⟨extended.closed, ⟨_, _, _, _, ⟨_, extendedFold⟩, organized, rfl⟩, ?_⟩
  · have keyed : ∀ key, retainedKey host cipher operation = some key →
        key = ⟨operation.author, item.id⟩ := by
      intro key made
      rw [retainedKey, extended.decoded] at made
      simp only [parsed] at made
      exact (Option.some.inj made).symm
    have fresh : ∀ earlier ∈ order, ∀ key, retainedKey host cipher earlier = some key →
        retainedKey host cipher operation ≠ some key := by
      intro earlier member key made again
      rcases retains.held earlier member key made with ⟨value, held⟩
      rw [keyed key again, absent] at held
      cases held
    intro first firstMember second secondMember key firstKey secondKey
    rcases List.mem_append.mp firstMember with firstEarly | firstLast
    · rcases List.mem_append.mp secondMember with secondEarly | secondLast
      · exact kept.single first firstEarly second secondEarly key firstKey secondKey
      · cases List.mem_singleton.mp secondLast
        exact absurd secondKey (fresh first firstEarly key firstKey)
    · cases List.mem_singleton.mp firstLast
      rcases List.mem_append.mp secondMember with secondEarly | secondLast
      · exact absurd firstKey (fresh second secondEarly key secondKey)
      · exact (List.mem_singleton.mp secondLast).symm

theorem chain_revision_mem (key : RetentionKey) (start revision : Bytes32)
    (operations : List Operation) (chain : Chain host cipher key start operations revision) :
    revision = start ∨ ∃ operation ∈ operations, operation.hash = revision := by
  cases chain with
  | start => exact Or.inl rfl
  | next operations revision operation earlier replaces =>
    exact Or.inr ⟨operation, by simp, rfl⟩

theorem Reported.entry {values : List (OrganizedComposition host)} {total : Nat}
    {retained : RetentionItems host} {items : OrganizationItems host}
    (reported : Reported host cipher maxItems maxBytes store order values total retained items)
    (key : RetentionKey) (entry : OrganizedComposition host) (held : items[key]? = some entry) :
    entry.author = key.author ∧ entry.item.id = key.itemId ∧
      (∃ operation ∈ order, retainedKey host cipher operation = some key ∧
        operation.hash = entry.operation) ∧
      Chain host cipher key entry.operation (organizationsOf host cipher key order)
        entry.revision := by
  rcases reported.retains with ⟨bytes, folded⟩
  have retains := retainFold_retains order _ folded
  have organizes := organizeFold_organizes _ order _ reported.organizes
  rcases organizes.started key entry held with ⟨first, began, item, operation, author, chain⟩
  rw [getElem?_started retained retains key] at began
  rcases Option.map_eq_some_iff.mp began with ⟨source, read, rfl⟩
  rcases retains.made key source read with ⟨wrote, named, made⟩
  refine ⟨author.trans wrote, ?_, ?_, ?_⟩
  · rw [item]
    exact named
  · rw [operation]
    exact made
  · rw [operation]
    exact chain

theorem Reported.key_of_mem {values : List (OrganizedComposition host)} {total : Nat}
    {retained : RetentionItems host} {items : OrganizationItems host}
    (reported : Reported host cipher maxItems maxBytes store order values total retained items)
    (entry : OrganizedComposition host) (member : entry ∈ values) :
    items[RetentionKey.mk entry.author entry.item.id]? = some entry := by
  rw [reported.values, mem_values_iff] at member
  rcases member with ⟨key, held⟩
  rcases reported.entry key entry held with ⟨author, itemId, _⟩
  rw [author, itemId]
  exact held

theorem kept_organized {operation : Operation} {author : Bytes32} {itemId : String}
    {previous : Bytes32} {json : String} {organization : CollectionOrganization}
    {values : List (OrganizedComposition host)} {total : Nat} {retained : RetentionItems host}
    {items : OrganizationItems host} {entry : OrganizedComposition host}
    (kept : Kept host cipher maxItems maxBytes store order)
    (extended : Appended host cipher store accepted order operation
      (.organizeCompositionV1 author itemId previous json))
    (reported : Reported host cipher maxItems maxBytes store order values total retained items)
    (held : items[RetentionKey.mk author itemId]? = some entry)
    (current : entry.revision = previous)
    (parsed : compositionOrganization host.composition json = .ok organization)
    (bounded : saturatingAdd total json.utf8ByteSize ≤ maxBytes) :
    Kept host cipher maxItems maxBytes accepted (order ++ [operation]) := by
  have unkeyed : retainedKey host cipher operation = none := by
    rw [retainedKey, extended.decoded]
  have observed : (accepted.causal host.toSyncHost).happensBefore previous operation.hash =
      true := by
    rcases reported.entry _ entry held with ⟨_, _, ⟨maker, member, _, made⟩, chain⟩
    rcases chain_revision_mem _ _ _ _ chain with same | ⟨later, among, same⟩
    · rw [← current, same, ← made]
      exact extended.behind maker member
    · rw [← current, ← same]
      exact extended.behind later (List.mem_filter.mp among).1
  rcases reported.retains with ⟨bytes, folded⟩
  have retainedStep : retainStep host cipher maxItems maxBytes (retained, bytes) operation =
      .ok (retained, bytes) := by
    rw [retainStep]
    exact bind_eq_ok_iff.mpr ⟨_, extended.decoded, rfl⟩
  have organizedEvent : organizeEvent host (accepted.causal host.toSyncHost) (items, total)
      operation.hash (.organizeCompositionV1 author itemId previous json) =
      .ok (items.insert ⟨author, itemId⟩ { entry with organization, revision := operation.hash },
        saturatingAdd total json.utf8ByteSize) := by
    rw [organizeEvent]
    simp only [held]
    rw [if_neg (by simp [current, observed])]
    exact bind_eq_ok_iff.mpr ⟨organization, parsed, rfl⟩
  have organized := foldlM_append_singleton_eq_ok_iff.mpr ⟨_,
    organizeFold_causal order _ extended.unchanged _ reported.organizes,
    (organizeStep_ok_iff _ _).mpr ⟨_, extended.decoded, organizedEvent, bounded⟩⟩
  refine ⟨extended.closed, ⟨_, _, _, _,
    ⟨bytes, foldlM_append_singleton_eq_ok_iff.mpr ⟨_, folded, retainedStep⟩⟩, organized, rfl⟩, ?_⟩
  intro first firstMember second secondMember key firstKey secondKey
  have early : ∀ maker ∈ order ++ [operation], retainedKey host cipher maker = some key →
      maker ∈ order := by
    intro maker member made
    rcases List.mem_append.mp member with earlier | last
    · exact earlier
    · cases List.mem_singleton.mp last
      rw [unkeyed] at made
      cases made
  exact kept.single first (early first firstMember firstKey) second
    (early second secondMember secondKey) key firstKey secondKey

/-- What one call may do: repeat an answer, be refused, or add one operation at the end. -/
structure CallIntact (host : RetentionHost) (cipher : KnotSyncCipher) (signingSeed : Bytes32)
    (maxItems maxBytes : Nat) (store : KnotSyncStore) (call : CompositionCall host) : Prop where
  repeated : ∀ hash accepted,
    store.callComposition host cipher signingSeed maxItems maxBytes call =
      .ok ((hash, true), accepted) → accepted = store
  refused : ∀ error, store.callComposition host cipher signingSeed maxItems maxBytes call =
      .error error →
    store.performComposition host cipher signingSeed maxItems maxBytes call = store
  added : ∀ hash accepted,
    store.callComposition host cipher signingSeed maxItems maxBytes call =
      .ok ((hash, false), accepted) →
    ∃ order operation, store.closedOperations host.toSyncHost = .ok (order, []) ∧
      accepted.closedOperations host.toSyncHost = .ok (order ++ [operation], []) ∧
      operation.hash = hash
  current : ∀ change answer accepted, call = .organize change →
    store.callComposition host cipher signingSeed maxItems maxBytes call =
      .ok (answer, accepted) →
    ∃ values total, store.organizedCompositionWithCipher host cipher maxItems maxBytes =
        .ok (values, total) ∧
      (∃ entry ∈ values, entry.author = change.author ∧ entry.item.id = change.itemId) ∧
      ∀ entry ∈ values, entry.author = change.author → entry.item.id = change.itemId →
        entry.revision = change.expectedRevision

structure CompositionIntact (host : RetentionHost) (cipher : KnotSyncCipher)
    (maxItems maxBytes : Nat) (store : KnotSyncStore) (order : List Operation)
    (values : List (OrganizedComposition host)) : Prop where
  closed : store.closedOperations host.toSyncHost = .ok (order, [])
  organized : ∃ total, store.organizedCompositionWithCipher host cipher maxItems maxBytes =
    .ok (values, total)
  single : ∀ first ∈ order, ∀ second ∈ order, ∀ key, retainedKey host cipher first = some key →
    retainedKey host cipher second = some key → first = second
  chained : ∀ entry ∈ values,
    (∃ operation ∈ order, operation.hash = entry.operation ∧
      retainedKey host cipher operation = some ⟨entry.author, entry.item.id⟩) ∧
    Chain host cipher ⟨entry.author, entry.item.id⟩ entry.operation
      (organizationsOf host cipher ⟨entry.author, entry.item.id⟩ order) entry.revision
  covered : ∀ key, organizationsOf host cipher key order ≠ [] →
    ∃ entry ∈ values, RetentionKey.mk entry.author entry.item.id = key

theorem compositionIntact_of_kept (kept : Kept host cipher maxItems maxBytes store order) :
    ∃ values, CompositionIntact host cipher maxItems maxBytes store order values := by
  rcases kept.reported with ⟨values, total, retained, items, reported⟩
  refine ⟨values, kept.closed.closed,
    ⟨total, (organized_eq_ok_iff kept.closed values total).mpr ⟨retained, items, reported⟩⟩,
    kept.single, ?_, ?_⟩
  · intro entry member
    rcases reported.entry _ entry (reported.key_of_mem entry member) with
      ⟨_, _, ⟨operation, found, keyed, same⟩, chain⟩
    exact ⟨⟨operation, found, same, keyed⟩, chain⟩
  · intro key touched
    cases held : items[key]? with
    | none =>
      exact absurd ((organizeFold_organizes _ order _ reported.organizes).kept key held).2
        touched
    | some entry =>
      rcases reported.entry key entry held with ⟨author, itemId, _⟩
      refine ⟨entry, ?_, by rw [author, itemId]⟩
      rw [reported.values, mem_values_iff]
      exact ⟨key, held⟩

end

end KnotEditor
