import KnotEditor.CollectionStore
import KnotEditor.Library.Fallible
import KnotEditor.Library.Run

/-! No handle's write is lost: a call that succeeds rewrites the file the handle last saw, and a
handle the file has moved on from writes nothing. -/

namespace KnotEditor

open KnotEditor.Composition Fallible

variable {host : StoreHost}

def JsonRoundTrips (host : StoreHost) : Prop :=
  ∀ (items : List (CollectionItem host.Scene host.Recipe)) (bytes : ByteArray),
    (∀ item ∈ items, validateMaterial item = .ok ()) →
      host.toVecPretty { version := storeVersion, items } = .ok bytes →
        host.fromSlice bytes = .ok { version := storeVersion, items }

def itemIds (items : List (CollectionItem host.Scene host.Recipe)) : List String :=
  items.map CollectionItem.id

def Holds (host : StoreHost) (file : StoreFile)
    (items : List (CollectionItem host.Scene host.Recipe)) : Prop :=
  ∀ requested : StorePath, requested.fileName.isSome = true →
    ∃ store, CollectionStore.open host requested file {} = .ok store ∧ store.items = items

def StoreFile.bytes : StoreFile → Option ByteArray
  | .regular bytes => some bytes
  | _ => none

def CollectionStore.UpToDate (store : CollectionStore host) (file : StoreFile) : Prop :=
  store.diskHash = file.bytes.map host.blake3

def RemovesOne (id : String) (old new : List (CollectionItem host.Scene host.Recipe)) : Prop :=
  ∃ before item after, old = before ++ item :: after ∧ item.id = id ∧ new = before ++ after

structure ExactOutcome {α : Type} (accepts : α → Prop)
    (update : List (CollectionItem host.Scene host.Recipe) →
      List (CollectionItem host.Scene host.Recipe) → Prop)
    (store : CollectionStore host) (file : StoreFile)
    (outcome : CollectionStore.Outcome host α) : Prop where
  updated : ∀ value, outcome.result = .ok value → accepts value →
    ∃ old new, Holds host file old ∧ update old new ∧ Holds host outcome.file new ∧
      outcome.store.items = new
  refused : ¬ store.UpToDate file → ∀ value, outcome.result = .ok value → ¬ accepts value
  unchanged : ∀ error, outcome.result = .error error →
    (∀ cause, error ≠ .durabilityUncertain cause) →
      outcome.file = file ∧ outcome.store = store

def ExactCall (world : StoreWorld host) : StoreCall host → Prop
  | .openStore _ _ => True
  | .collect handle item faults =>
    ∀ store, world.handles[handle]? = some store →
      ExactOutcome (fun _ => True) (fun old new => new = old ++ [item]) store world.file
        (store.collect world.file item faults)
  | .remove handle id faults =>
    ∀ store, world.handles[handle]? = some store →
      ExactOutcome (· = true) (RemovesOne id) store world.file
          (store.remove world.file id faults) ∧
        ((store.remove world.file id faults).result = .ok false →
          id ∉ itemIds store.items ∧ (store.remove world.file id faults).file = world.file ∧
            (store.remove world.file id faults).store = store)

variable {α : Type} (items : List (CollectionItem host.Scene host.Recipe)) (file : StoreFile)
  (store : CollectionStore host)

theorem validateEach_eq_ok_iff :
    ∀ identities : List String, identities.Nodup →
      (validateEach identities items = .ok () ↔
        (∀ item ∈ items, validateMaterial item = .ok ()) ∧
          (identities ++ itemIds items).Nodup) := by
  induction items with
  | nil =>
    intro identities distinct
    simp [validateEach, itemIds, distinct]
  | cons item rest ih =>
    intro identities distinct
    simp only [validateEach, then_eq_ok_iff, mapError_eq_ok_iff, refuse_eq_ok_iff,
      List.forall_mem_cons, List.contains_iff_mem]
    by_cases repeated : item.id ∈ identities
    · have clash : ¬ (identities ++ itemIds (item :: rest)).Nodup := by
        intro nodup
        exact (List.nodup_append.mp nodup).2.2 item.id repeated item.id
          List.mem_cons_self rfl
      simp only [repeated, clash, not_true, false_and, and_false]
    · have grown : (identities ++ [item.id]).Nodup := by
        rw [List.nodup_append]
        refine ⟨distinct, List.nodup_cons.mpr ⟨List.not_mem_nil, List.nodup_nil⟩, ?_⟩
        intro left member right single same
        rw [List.mem_singleton.mp single] at same
        exact repeated (same ▸ member)
      have tail := ih (identities ++ [item.id]) grown
      simp only [repeated, tail, itemIds, and_assoc, not_false_eq_true, true_and,
        List.append_assoc, List.singleton_append, List.map_cons]

theorem validateItems_eq_ok_iff :
    validateItems items = .ok () ↔ items.length ≤ maxItems ∧
      (∀ item ∈ items, validateMaterial item = .ok ()) ∧ (itemIds items).Nodup := by
  have each := validateEach_eq_ok_iff items [] List.nodup_nil
  rw [List.nil_append] at each
  by_cases long : maxItems < items.length
  · simp [validateItems, long]
  · simp only [validateItems, long, if_false, each, Nat.le_of_not_lt long, true_and]

theorem readStore_ok (faults : StoreFaults) (current : Option ByteArray)
    (read : readStore file faults = .ok current) :
    file ≠ .irregular ∧ current = file.bytes ∧ ∀ bytes ∈ current, bytes.size ≤ maxStoreBytes := by
  simp only [readStore, bind_eq_ok_iff] at read
  rcases read with ⟨_, _, read⟩
  cases file with
  | absent =>
    cases read
    exact ⟨StoreFile.noConfusion, rfl, by intros; contradiction⟩
  | irregular => cases read
  | regular bytes =>
    by_cases large : maxStoreBytes < bytes.size
    · simp [large] at read
    · simp only [large, if_false, bind_eq_ok_iff] at read
      rcases read with ⟨_, _, _, _, read⟩
      cases read
      refine ⟨StoreFile.noConfusion, rfl, ?_⟩
      intro other same
      cases same
      exact Nat.le_of_not_lt large

def FileHolds (host : StoreHost) : StoreFile →
    List (CollectionItem host.Scene host.Recipe) → Prop
  | .absent, items => items = []
  | .regular bytes, items => bytes.size ≤ maxStoreBytes ∧ storedItems host bytes = .ok items
  | .irregular, _ => False

theorem loadItems_ok (current : Option ByteArray)
    (items : List (CollectionItem host.Scene host.Recipe)) (regular : file ≠ .irregular)
    (same : current = file.bytes) (bounded : ∀ bytes ∈ current, bytes.size ≤ maxStoreBytes)
    (decoded : loadItems host current = .ok items) : FileHolds host file items := by
  subst same
  cases file with
  | absent =>
    cases decoded
    rfl
  | regular bytes => exact ⟨bounded bytes rfl, decoded⟩
  | irregular => exact absurd rfl regular

theorem open_ok (requested : StorePath) (file : StoreFile) (faults : StoreFaults)
    (store : CollectionStore host)
    (opened : CollectionStore.open host requested file faults = .ok store) :
    FileHolds host file store.items ∧ store.UpToDate file := by
  simp only [CollectionStore.open, refuse_eq_ok_iff, bind_eq_ok_iff] at opened
  rcases opened with ⟨_, _, _, current, read, items, decoded, opened⟩
  cases opened
  rcases readStore_ok file faults current read with ⟨regular, same, bounded⟩
  refine ⟨loadItems_ok file current items regular same bounded decoded, ?_⟩
  simp only [CollectionStore.UpToDate, same]

theorem readStore_clean (items : List (CollectionItem host.Scene host.Recipe))
    (held : FileHolds host file items) :
    readStore file {} = .ok file.bytes ∧ loadItems host file.bytes = .ok items := by
  cases file with
  | absent =>
    cases held
    exact ⟨rfl, rfl⟩
  | irregular => cases held
  | regular bytes =>
    refine ⟨?_, held.2⟩
    simp only [readStore, attempt, StoreFile.bytes, bind, Except.bind,
      Nat.not_lt.mpr held.1, if_false]

theorem holds_of_fileHolds (items : List (CollectionItem host.Scene host.Recipe))
    (held : FileHolds host file items) :
    Holds host file items := by
  intro requested named
  have named : ¬ requested.fileName.isNone = true := by
    rw [Option.isNone_iff_eq_none, ← ne_eq, Option.ne_none_iff_isSome]
    exact named
  rcases readStore_clean file items held with ⟨read, decoded⟩
  refine ⟨{ path := requested, items, diskHash := file.bytes.map host.blake3 }, ?_, rfl⟩
  simp only [CollectionStore.open, refuse_eq_ok_iff, bind_eq_ok_iff]
  refine ⟨named, (), ?_, file.bytes, read, items, decoded, rfl⟩
  cases absolute : requested.isAbsolute <;> simp [absolutePath, absolute, attempt]

theorem storedItems_eq_ok_iff (bytes : ByteArray)
    (items : List (CollectionItem host.Scene host.Recipe)) :
    storedItems host bytes = .ok items ↔
      host.fromSlice bytes = .ok { version := storeVersion, items } ∧
        validateItems items = .ok () := by
  simp only [storedItems, bind_eq_ok_iff, mapError_eq_ok_iff, refuse_eq_ok_iff, ne_eq, not_not]
  constructor
  · rintro ⟨⟨version, listed⟩, parsed, supported, _, valid, same⟩
    cases supported
    cases same
    exact ⟨parsed, valid⟩
  · rintro ⟨parsed, valid⟩
    exact ⟨_, parsed, rfl, (), valid, rfl⟩

theorem fileHolds_distinct (items : List (CollectionItem host.Scene host.Recipe))
    (held : FileHolds host file items) :
    (itemIds items).Nodup := by
  cases file with
  | absent =>
    cases held
    exact List.nodup_nil
  | irregular => cases held
  | regular bytes =>
    have valid := ((storedItems_eq_ok_iff bytes items).mp held.2).2
    exact ((validateItems_eq_ok_iff items).mp valid).2.2

def CollectionStore.Knows (store : CollectionStore host) : Prop :=
  ∃ seen, FileHolds host seen store.items ∧ store.UpToDate seen

theorem knows_current (collisionFree : Function.Injective host.blake3)
    (store : CollectionStore host) (file : StoreFile) (knows : store.Knows)
    (regular : file ≠ .irregular) (current : store.UpToDate file) :
    FileHolds host file store.items := by
  rcases knows with ⟨seen, held, expected⟩
  have same : seen.bytes = file.bytes :=
    Option.map_injective collisionFree (expected.symm.trans current)
  cases seen with
  | irregular => cases held
  | absent =>
    cases file with
    | absent => exact held
    | regular bytes => cases same
    | irregular => exact absurd rfl regular
  | regular bytes =>
    cases file with
    | absent => cases same
    | regular other =>
      cases same
      exact held
    | irregular => exact absurd rfl regular

theorem prepare_ok (file : StoreFile) (candidate : List (CollectionItem host.Scene host.Recipe))
    (faults : StoreFaults) (bytes : ByteArray)
    (prepared : store.prepare file candidate faults = .ok bytes) :
    validateItems candidate = .ok () ∧
      host.toVecPretty { version := storeVersion, items := candidate } = .ok bytes ∧
        bytes.size ≤ maxStoreBytes ∧ file ≠ .irregular ∧ store.UpToDate file := by
  simp only [CollectionStore.prepare, bind_eq_ok_iff, mapError_eq_ok_iff, refuse_eq_ok_iff, ne_eq,
    not_not] at prepared
  rcases prepared with ⟨_, valid, written, encoded, bounded, _, _, _, _, _, _, current, read,
    expected, _, _, _, _, _, _, _, _, _, _, same⟩
  cases same
  rcases readStore_ok file faults current read with ⟨regular, found, _⟩
  refine ⟨valid, encoded, Nat.le_of_not_lt bounded, regular, ?_⟩
  rw [CollectionStore.UpToDate, ← expected, found]

theorem saved_fileHolds (roundTrips : JsonRoundTrips host)
    (candidate : List (CollectionItem host.Scene host.Recipe)) (bytes : ByteArray)
    (valid : validateItems candidate = .ok ())
    (encoded : host.toVecPretty { version := storeVersion, items := candidate } = .ok bytes)
    (bounded : bytes.size ≤ maxStoreBytes) : FileHolds host (.regular bytes) candidate := by
  have material := ((validateItems_eq_ok_iff candidate).mp valid).2.1
  have parsed := roundTrips candidate bytes material encoded
  exact ⟨bounded, (storedItems_eq_ok_iff bytes candidate).mpr ⟨parsed, valid⟩⟩

structure Written {α : Type} (store : CollectionStore host) (file : StoreFile)
    (candidate : List (CollectionItem host.Scene host.Recipe))
    (outcome : CollectionStore.Outcome host α) : Prop where
  knows : outcome.store.Knows
  holds : ∃ items, FileHolds host outcome.file items
  saved : ∀ value, outcome.result = .ok value → store.UpToDate file ∧
    FileHolds host file store.items ∧ FileHolds host outcome.file candidate ∧
      outcome.store.items = candidate
  unchanged : ∀ error, outcome.result = .error error →
    (∀ cause, error ≠ .durabilityUncertain cause) →
      outcome.file = file ∧ outcome.store = store

theorem written_unchanged (file : StoreFile)
    (candidate items : List (CollectionItem host.Scene host.Recipe)) (knows : store.Knows)
    (held : FileHolds host file items) (error : StoreError) :
    Written store file candidate (⟨.error error, store, file⟩ : CollectionStore.Outcome host α) where
  knows := knows
  holds := ⟨items, held⟩
  saved := by intros; contradiction
  unchanged _ _ _ := ⟨rfl, rfl⟩

theorem persist_written (roundTrips : JsonRoundTrips host)
    (collisionFree : Function.Injective host.blake3) (store : CollectionStore host)
    (file : StoreFile) (candidate items : List (CollectionItem host.Scene host.Recipe))
    (faults : StoreFaults) (knows : store.Knows) (held : FileHolds host file items) :
    Written store file candidate (store.persist file candidate faults) := by
  cases prepared : store.prepare file candidate faults with
  | error error =>
    simp only [CollectionStore.persist, prepared]
    exact written_unchanged store file candidate items knows held error
  | ok bytes =>
    rcases prepare_ok store file candidate faults bytes prepared with
      ⟨valid, encoded, bounded, regular, current⟩
    have replaced := saved_fileHolds roundTrips candidate bytes valid encoded bounded
    have before := knows_current collisionFree store file knows regular current
    cases synced : faults.syncDirectory with
    | none =>
      simp only [CollectionStore.persist, prepared, synced]
      exact {
        knows := ⟨.regular bytes, replaced, rfl⟩
        holds := ⟨candidate, replaced⟩
        saved := fun _ _ => ⟨current, before, replaced, rfl⟩
        unchanged := by intros; contradiction }
    | some cause =>
      simp only [CollectionStore.persist, prepared, synced]
      exact {
        knows := ⟨.regular bytes, replaced, rfl⟩
        holds := ⟨candidate, replaced⟩
        saved := by intros; contradiction
        unchanged := by
          intro error failed other
          cases failed
          exact absurd rfl (other cause) }

theorem collect_written (roundTrips : JsonRoundTrips host)
    (collisionFree : Function.Injective host.blake3) (store : CollectionStore host)
    (file : StoreFile) (items : List (CollectionItem host.Scene host.Recipe))
    (item : CollectionItem host.Scene host.Recipe) (faults : StoreFaults)
    (knows : store.Knows) (held : FileHolds host file items) :
    Written store file (store.items ++ [item]) (store.collect file item faults) := by
  rw [CollectionStore.collect]
  split
  · exact written_unchanged store file _ items knows held _
  · split
    · exact written_unchanged store file _ items knows held _
    · exact persist_written roundTrips collisionFree store file _ items faults knows held

theorem written_map {α β : Type} (store : CollectionStore host) (file : StoreFile)
    (candidate : List (CollectionItem host.Scene host.Recipe))
    (outcome : CollectionStore.Outcome host α) (answer : α → β)
    (written : Written store file candidate outcome) :
    Written store file candidate
      ⟨outcome.result.map answer, outcome.store, outcome.file⟩ where
  knows := written.knows
  holds := written.holds
  saved := by
    intro value success
    cases result : outcome.result with
    | ok value => exact written.saved value result
    | error error =>
      rw [result] at success
      cases success
  unchanged := by
    intro error failed other
    cases result : outcome.result with
    | ok value =>
      rw [result] at failed
      cases failed
    | error cause =>
      rw [result] at failed
      cases failed
      exact written.unchanged _ result other

theorem any_id_iff (id : String) :
    (items.any fun item => item.id == id) = true ↔ id ∈ itemIds items := by
  simp only [List.any_eq_true, beq_iff_eq, itemIds, List.mem_map]

theorem remove_present (file : StoreFile) (id : String) (faults : StoreFaults)
    (present : id ∈ itemIds store.items) :
    store.remove file id faults =
      let outcome := store.persist file (store.items.filter fun item => item.id != id) faults
      ⟨outcome.result.map fun _ => true, outcome.store, outcome.file⟩ := by
  rw [CollectionStore.remove, if_pos ((any_id_iff store.items id).mpr present)]

theorem remove_absent (file : StoreFile) (id : String) (faults : StoreFaults)
    (absent : id ∉ itemIds store.items) :
    store.remove file id faults = ⟨.ok false, store, file⟩ := by
  rw [CollectionStore.remove, if_neg (mt (any_id_iff store.items id).mp absent)]

theorem remove_written (roundTrips : JsonRoundTrips host)
    (collisionFree : Function.Injective host.blake3) (store : CollectionStore host)
    (file : StoreFile) (items : List (CollectionItem host.Scene host.Recipe)) (id : String)
    (faults : StoreFaults) (knows : store.Knows) (held : FileHolds host file items)
    (present : id ∈ itemIds store.items) :
    Written store file (store.items.filter fun item => item.id != id)
      (store.remove file id faults) := by
  rw [remove_present store file id faults present]
  exact written_map store file _ _ _
    (persist_written roundTrips collisionFree store file _ items faults knows held)

theorem remove_present_result (file : StoreFile) (id : String) (faults : StoreFaults)
    (present : id ∈ itemIds store.items) :
    (store.remove file id faults).result ≠ .ok false := by
  rw [remove_present store file id faults present]
  intro answered
  cases result : (store.persist file
    (store.items.filter fun item => item.id != id) faults).result with
  | ok value =>
    simp only [result, Except.map] at answered
    cases answered
  | error error =>
    simp only [result, Except.map] at answered
    cases answered

theorem removesOne_filter (id : String)
    (items : List (CollectionItem host.Scene host.Recipe)) (present : id ∈ itemIds items)
    (distinct : (itemIds items).Nodup) :
    RemovesOne id items (items.filter fun item => item.id != id) := by
  rcases List.mem_map.mp present with ⟨item, member, same⟩
  rcases List.append_of_mem member with ⟨before, after, shape⟩
  subst shape
  refine ⟨before, item, after, rfl, same, ?_⟩
  rw [itemIds, List.map_append, List.map_cons, List.nodup_append, List.nodup_cons] at distinct
  have early : ∀ other ∈ before, (other.id != id) = true := by
    intro other inside
    rw [bne_iff_ne, ← same]
    exact distinct.2.2 other.id (List.mem_map_of_mem inside) item.id List.mem_cons_self
  have late : ∀ other ∈ after, (other.id != id) = true := by
    intro other inside
    rw [bne_iff_ne, ← same]
    intro clash
    exact distinct.2.1.1 (clash ▸ List.mem_map_of_mem inside)
  rw [List.filter_append, List.filter_cons, List.filter_eq_self.mpr early,
    List.filter_eq_self.mpr late, same, bne_self_eq_false]
  rfl

structure StoreWorld.Sound (world : StoreWorld host) : Prop where
  known : ∀ store ∈ world.handles, store.Knows
  decodes : world.handles ≠ [] → ∃ items, FileHolds host world.file items

theorem sound_settle (world : StoreWorld host) (handle : Nat) (store : CollectionStore host)
    (file : StoreFile) (candidate : List (CollectionItem host.Scene host.Recipe))
    (outcome : CollectionStore.Outcome host α) (sound : world.Sound)
    (written : Written store file candidate outcome) : (world.settle handle outcome).Sound where
  known := by
    intro other member
    rcases List.mem_or_eq_of_mem_set member with kept | replaced
    · exact sound.known other kept
    · rw [replaced]
      exact written.knows
  decodes _ := written.holds

theorem handle_sound (world : StoreWorld host) (sound : world.Sound) (handle : Nat)
    (store : CollectionStore host) (found : world.handles[handle]? = some store) :
    store.Knows ∧ ∃ items, FileHolds host world.file items := by
  have member := List.mem_of_getElem? found
  refine ⟨sound.known store member, sound.decodes ?_⟩
  intro empty
  rw [empty] at member
  cases member

theorem settle_self (world : StoreWorld host) (handle : Nat) (store : CollectionStore host)
    (found : world.handles[handle]? = some store) (result : Except StoreError α)
    : world.settle handle ⟨result, store, world.file⟩ = world := by
  rcases List.getElem?_eq_some_iff.mp found with ⟨inside, same⟩
  simp only [StoreWorld.settle, ← same, List.set_getElem_self]

theorem sound_perform (roundTrips : JsonRoundTrips host)
    (collisionFree : Function.Injective host.blake3) (world : StoreWorld host)
    (call : StoreCall host) (sound : world.Sound) : (world.perform call).Sound := by
  cases call with
  | openStore requested faults =>
    simp only [StoreWorld.perform]
    cases opened : CollectionStore.open host requested world.file faults with
    | error error => exact sound
    | ok store =>
      rcases open_ok requested world.file faults store opened with ⟨held, current⟩
      refine ⟨?_, fun _ => ⟨store.items, held⟩⟩
      intro other member
      rcases List.mem_append.mp member with old | new
      · exact sound.known other old
      · rw [List.mem_singleton.mp new]
        exact ⟨world.file, held, current⟩
  | collect handle item faults =>
    simp only [StoreWorld.perform]
    cases found : world.handles[handle]? with
    | none => exact sound
    | some store =>
      rcases handle_sound world sound handle store found with ⟨knows, items, held⟩
      exact sound_settle world handle store world.file _ _ sound
        (collect_written roundTrips collisionFree store world.file items item faults knows held)
  | remove handle id faults =>
    simp only [StoreWorld.perform]
    cases found : world.handles[handle]? with
    | none => exact sound
    | some store =>
      rcases handle_sound world sound handle store found with ⟨knows, items, held⟩
      by_cases present : id ∈ itemIds store.items
      · exact sound_settle world handle store world.file _ _ sound
          (remove_written roundTrips collisionFree store world.file items id faults knows held
            present)
      · simp only [remove_absent store world.file id faults present]
        rw [settle_self world handle store found]
        exact sound

theorem exact_of_written (accepts : α → Prop)
    (update : List (CollectionItem host.Scene host.Recipe) →
      List (CollectionItem host.Scene host.Recipe) → Prop) (store : CollectionStore host)
    (file : StoreFile) (candidate : List (CollectionItem host.Scene host.Recipe))
    (outcome : CollectionStore.Outcome host α) (written : Written store file candidate outcome)
    (updates : FileHolds host file store.items → update store.items candidate) :
    ExactOutcome accepts update store file outcome where
  updated := by
    intro value success _
    rcases written.saved value success with ⟨_, before, after, memory⟩
    exact ⟨store.items, candidate, holds_of_fileHolds file _ before, updates before,
      holds_of_fileHolds _ _ after, memory⟩
  refused := by
    intro stale value success
    exact absurd (written.saved value success).1 stale
  unchanged := written.unchanged

theorem exact_perform (roundTrips : JsonRoundTrips host)
    (collisionFree : Function.Injective host.blake3) (world : StoreWorld host)
    (call : StoreCall host) (sound : world.Sound) : ExactCall world call := by
  cases call with
  | openStore requested faults => trivial
  | collect handle item faults =>
    intro store found
    rcases handle_sound world sound handle store found with ⟨knows, items, held⟩
    exact exact_of_written _ _ store world.file _ _
      (collect_written roundTrips collisionFree store world.file items item faults knows held)
      fun _ => rfl
  | remove handle id faults =>
    intro store found
    rcases handle_sound world sound handle store found with ⟨knows, items, held⟩
    by_cases present : id ∈ itemIds store.items
    · have written := remove_written roundTrips collisionFree store world.file items id faults
        knows held present
      refine ⟨exact_of_written _ _ store world.file _ _ written ?_, ?_⟩
      · intro before
        exact removesOne_filter id store.items present (fileHolds_distinct world.file _ before)
      · intro answered
        exact absurd answered (remove_present_result store world.file id faults present)
    · rw [remove_absent store world.file id faults present]
      refine ⟨⟨?_, ?_, by intros; contradiction⟩, fun _ => ⟨present, rfl, rfl⟩⟩
      · intro value answered accepted
        cases answered
        cases accepted
      · intro _ value answered accepted
        cases answered
        cases accepted

/-- Over any interleaving of calls, each with any of its file operations failing. -/
theorem collection_store_loses_no_update (roundTrips : JsonRoundTrips host)
    (collisionFree : Function.Injective host.blake3) (file : StoreFile)
    (calls : List (StoreCall host)) :
    Run.Along StoreWorld.perform ExactCall ⟨file, []⟩ calls ∧
      ((calls.foldl StoreWorld.perform ⟨file, []⟩).handles ≠ [] →
        ∃ items, Holds host (calls.foldl StoreWorld.perform ⟨file, []⟩).file items ∧
          (itemIds items).Nodup) := by
  have start : (⟨file, []⟩ : StoreWorld host).Sound :=
    ⟨by intros; contradiction, fun opened => absurd rfl opened⟩
  have always : Run.Along StoreWorld.perform (fun _ _ => True) (⟨file, []⟩ : StoreWorld host)
      calls := Run.along_always (fun _ _ => trivial) calls _
  refine ⟨?_, ?_⟩
  · exact Run.along_of_invariant
      (fun world call sound _ => sound_perform roundTrips collisionFree world call sound)
      (fun world call sound _ => exact_perform roundTrips collisionFree world call sound)
      calls _ start always
  · intro opened
    have sound := Run.invariant_run
      (fun world call sound _ => sound_perform roundTrips collisionFree world call sound)
      calls _ start always
    rcases sound.decodes opened with ⟨items, held⟩
    exact ⟨items, holds_of_fileHolds _ items held, fileHolds_distinct _ items held⟩

def riverItem : CollectionItem Unit Unit where
  id := "river-1"
  collection := "Commonplace"
  kind := .word
  label := "river"
  text := "river"
  projectionRecipe := none
  metreScene := none
  packSources := []
  documentSource := none
  authorNotes := ""
  tags := []
  order := 0

def riverJson : String :=
  "\x7b\n  \"version\": 1,\n  \"items\": [\n    \x7b\n      \"id\": \"river-1\",\n" ++
    "      \"collection\": \"Commonplace\",\n      \"kind\": \"word\",\n" ++
    "      \"label\": \"river\",\n      \"text\": \"river\",\n" ++
    "      \"pack_sources\": [],\n      \"author_notes\": \"\",\n      \"tags\": [],\n" ++
    "      \"order\": 0\n    \x7d\n  ]\n\x7d"

def StoreHost.sample : StoreHost where
  Scene := Unit
  Recipe := Unit
  parseItem _ := .error "no item"
  parseOrganization _ := .error "no organization"
  sceneIsMetreGrid _ := true
  validateScene _ := .ok ()
  sceneJsonLength _ := .ok 0
  maxSceneInputBytes := 0
  validateRecipe _ := .ok ()
  Hash := ByteArray
  decideHash := inferInstance
  blake3 := id
  toVecPretty data :=
    if data = { version := storeVersion, items := [riverItem] } then .ok riverJson.toUTF8
    else .error "not written here"
  fromSlice bytes :=
    if bytes = riverJson.toUTF8 then .ok { version := storeVersion, items := [riverItem] }
    else .error "not read here"

theorem sample_roundTrips : JsonRoundTrips StoreHost.sample := by
  intro items bytes _ encoded
  simp only [StoreHost.sample] at encoded ⊢
  by_cases known : ({ version := storeVersion, items := items } : StoreData Unit Unit) =
      { version := storeVersion, items := [riverItem] }
  · rw [if_pos known] at encoded
    cases encoded
    rw [if_pos rfl, known]
  · rw [if_neg known] at encoded
    cases encoded

def notebook : StorePath := ⟨"/notes/collections.json", some "collections.json", true⟩

def riverCalls : List (StoreCall StoreHost.sample) :=
  [.openStore notebook {}, .openStore notebook {}, .collect 0 riverItem {}]

theorem river_size : riverJson.toUTF8.size ≤ maxStoreBytes := by
  decide +kernel

theorem river_valid : @validateItems StoreHost.sample [riverItem] = .ok () := by
  decide

def riverHandle : CollectionStore StoreHost.sample :=
  { path := notebook, items := [riverItem], diskHash := some riverJson.toUTF8 }

def staleHandle : CollectionStore StoreHost.sample :=
  { path := notebook, items := [], diskHash := none }

theorem river_encoded :
    StoreHost.sample.toVecPretty { version := storeVersion, items := [riverItem] } =
      .ok riverJson.toUTF8 := by
  simp only [StoreHost.sample, if_true]

theorem river_collect :
    staleHandle.collect .absent riverItem {} =
      ⟨.ok (), riverHandle, .regular riverJson.toUTF8⟩ := by
  have valid : @validateMaterial StoreHost.sample riverItem = .ok () := by decide
  have checked : staleHandle.collect .absent riverItem {} =
      staleHandle.persist .absent [riverItem] {} := by
    unfold CollectionStore.collect
    rw [valid]
    simp only [staleHandle, List.any_nil, Bool.false_eq_true, if_false, List.nil_append]
  have prepared : staleHandle.prepare .absent [riverItem] {} = .ok riverJson.toUTF8 := by
    simp only [CollectionStore.prepare, river_valid, river_encoded, bind, Except.bind,
      Except.mapError, Nat.not_lt.mpr river_size, if_false]
    rfl
  rw [checked, CollectionStore.persist, prepared]
  rfl

theorem river_run :
    riverCalls.foldl StoreWorld.perform ⟨.absent, []⟩ =
      ⟨.regular riverJson.toUTF8, [riverHandle, staleHandle]⟩ := by
  have opened : CollectionStore.open StoreHost.sample notebook .absent {} = .ok staleHandle := rfl
  simp only [riverCalls, List.foldl_cons, List.foldl_nil, StoreWorld.perform, opened,
    List.nil_append, List.singleton_append]
  simp only [List.getElem?_cons_zero, river_collect, StoreWorld.settle, List.set_cons_zero]

/-- A handle the file has moved on from answers a remove of an item it has not seen. -/
theorem stale_remove_answers :
    ∃ store, ((riverCalls.foldl StoreWorld.perform ⟨.absent, []⟩).handles[1]? = some store ∧
      ¬ ExactOutcome (fun _ => True) (RemovesOne "river-1") store
        (riverCalls.foldl StoreWorld.perform ⟨.absent, []⟩).file
        (store.remove (riverCalls.foldl StoreWorld.perform ⟨.absent, []⟩).file "river-1" {})) := by
  rw [river_run]
  refine ⟨staleHandle, rfl, ?_⟩
  intro exact
  have answered : (staleHandle.remove (.regular riverJson.toUTF8) "river-1" {}).result =
      .ok false := rfl
  refine exact.refused ?_ false answered trivial
  intro same
  cases same

theorem collection_store_river :
    Run.Along StoreWorld.perform ExactCall (⟨.absent, []⟩ : StoreWorld StoreHost.sample)
      riverCalls :=
  (collection_store_loses_no_update sample_roundTrips (fun _ _ same => same) .absent riverCalls).1

end KnotEditor
