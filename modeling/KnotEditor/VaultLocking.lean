import KnotEditor.VaultAgreement

/-! Locking a vault and unlocking it again. `open` takes an absent index for an empty one, and
`unlock` refuses it, so a vault comes back exactly where its index has been saved. -/

namespace KnotEditor

def derivedCacheVersion : UInt64 := 1

structure DerivedCacheBlob where
  version : UInt64
  bytes : ByteArray

structure CacheRecords (σ : Type) where
  derivedCache : Bytes32 → String → Except String (Option DerivedCacheBlob)
  searchIndex : Bytes32 → Except String (Option σ)

section

variable (host : VaultHost)

namespace KnotVault

def loadDerivedCache {σ α : Type} (vault : KnotVault) (records : CacheRecords σ)
    (decode : ByteArray → Except String α) (id : String) : Except String (Option α) :=
  match vault.derivedCachePath host id, vault.store with
  | .error error, _ => .error error
  | .ok _, none => .error "Knot vault is locked"
  | .ok path, some key =>
    match records.derivedCache key path with
    | .error error => .error s!"could not unseal Knot derived cache: {error}"
    | .ok none => .ok none
    | .ok (some blob) =>
      if blob.version ≠ derivedCacheVersion then .ok none
      else
        match decode blob.bytes with
        | .error error => .error s!"could not decode Knot derived cache: {error}"
        | .ok value => .ok (some value)

def loadSearchIndex {σ : Type} (vault : KnotVault) (records : CacheRecords σ) :
    Except String (Option σ) :=
  match vault.store with
  | none => .error "Knot vault is locked"
  | some key =>
    (records.searchIndex key).mapError fun error =>
      s!"could not load Knot vault search index: {error}"

structure Hidden (vault : KnotVault) : Prop where
  documents : vault.index.documents = []
  bodies : ∀ id, vault.body id = none
  caches : ∀ (σ α : Type) (records : CacheRecords σ) (decode : ByteArray → Except String α)
    (id : String), vault.loadDerivedCache host records decode id = .error "Knot vault is locked"
  search : ∀ (σ : Type) (records : CacheRecords σ),
    vault.loadSearchIndex records = .error "Knot vault is locked"

end KnotVault

end

variable {host : VaultHost}

def VaultCall.Succeeds (world : VaultWorld host) : VaultCall → Prop
  | .put document faults => (world.vault.put host world.disk document faults).result = .ok ()
  | .replaceProjection documents faults => ∃ changed,
      (world.vault.replaceProjection host world.disk documents faults).result = .ok changed

def VaultCall.writes : VaultCall → Bool
  | .put _ _ => true
  | .replaceProjection documents _ => !documents.isEmpty

/-- Locking hides the vault, through any calls made while it is locked, and unlocking it brings
back what it held. -/
structure VaultWorld.LockRoundTrip (world : VaultWorld host) (key : Bytes32) : Prop where
  hidden : ∀ attempts : List VaultCall, (attempts.foldl (VaultWorld.perform host)
    ⟨world.vault.lock, world.disk⟩).vault.Hidden host
  restored : ∃ unlocked, world.vault.lock.unlock host world.disk key none = .ok unlocked ∧
    unlocked.index.documents = world.vault.index.documents ∧
    unlocked.index.revision = world.vault.index.revision

theorem locked_perform (vault : KnotVault) (disk : VaultDisk host) (call : VaultCall) :
    (⟨vault.lock, disk⟩ : VaultWorld host).perform host call = ⟨vault.lock, disk⟩ := by
  cases call <;> rfl

theorem lock_hidden (vault : KnotVault) : vault.lock.Hidden host where
  documents := rfl
  bodies _ := rfl
  caches _ _ _ _ _ := rfl
  search _ _ := rfl

theorem locked_run_hidden (vault : KnotVault) (disk : VaultDisk host)
    (attempts : List VaultCall) :
    (attempts.foldl (VaultWorld.perform host) ⟨vault.lock, disk⟩).vault.Hidden host := by
  induction attempts with
  | nil => exact lock_hidden vault
  | cons call rest ih =>
    rw [List.foldl_cons, locked_perform]
    exact ih

/-- A vault that was opened under `key`, with its index as its records say. -/
structure VaultWorld.OpenWith (key : Bytes32) (world : VaultWorld host) : Prop where
  agrees : world.Agrees
  store : world.vault.store = some key

variable {world : VaultWorld host} {key : Bytes32}

theorem VaultWorld.OpenWith.documents_of_absent (opened : world.OpenWith key)
    (absent : world.disk.index = none) :
    world.vault.index.documents = [] := by
  have loaded := opened.agrees.disk key opened.store
  simp only [loadIndex, loadRecord, absent, Option.getD_none, emptyIndex, ne_eq, not_true,
    if_false] at loaded
  rw [← Except.ok.inj loaded]

theorem fails_not_of_succeeds {call : VaultCall} (opened : world.OpenWith key)
    (succeeds : call.Succeeds world) :
    ¬ FailsAfterChange world call := by
  cases call with
  | put document faults =>
    rintro ⟨fault, _⟩
    obtain ⟨error, faulted⟩ := Option.isSome_iff_exists.mp fault
    simp [VaultCall.Succeeds, KnotVault.put, opened.store, KnotVault.save, faulted] at succeeds
  | replaceProjection documents faults =>
    rintro ⟨fault, changes, deletes⟩
    obtain ⟨error, faulted⟩ := Option.isSome_iff_exists.mp fault
    obtain ⟨changed, done⟩ := succeeds
    rcases deleted : world.vault.deleteDerivedCaches host faults world.disk
        (world.vault.removedIds (sortDocuments documents)) with ⟨result, remaining⟩
    rw [deleted] at deletes
    cases deletes
    simp [KnotVault.replaceProjection, opened.store, changes, deleted, KnotVault.save,
      faulted] at done

theorem VaultWorld.OpenWith.step {call : VaultCall} (opens : SealingOpens host)
    (opened : world.OpenWith key) (succeeds : call.Succeeds world)
    : (world.perform host call).OpenWith key := by
  have kept := fails_not_of_succeeds opened succeeds
  cases call with
  | put document faults =>
    refine ⟨(put_spec opens world opened.agrees document faults).2 kept, ?_⟩
    simp only [VaultWorld.perform, KnotVault.put, opened.store, Option.isNone_some,
      Bool.false_eq_true, if_false]
  | replaceProjection documents faults =>
    refine ⟨(replaceProjection_spec opens world opened.agrees documents faults).2 kept, ?_⟩
    exact (replaceProjection_store world.vault world.disk documents faults).trans opened.store

theorem VaultWorld.OpenWith.present_step {call : VaultCall} (opened : world.OpenWith key)
    (succeeds : call.Succeeds world) :
    (world.perform host call).disk.index.isSome = (world.disk.index.isSome || call.writes) := by
  cases call with
  | put document faults =>
    cases fault : faults.saveRecord with
    | some error =>
      simp [VaultCall.Succeeds, KnotVault.put, opened.store, KnotVault.save, fault] at succeeds
    | none =>
      simp [VaultWorld.perform, KnotVault.put, opened.store, KnotVault.save, fault,
        VaultCall.writes]
  | replaceProjection documents faults =>
    obtain ⟨changed, done⟩ := succeeds
    simp only [VaultWorld.perform, KnotVault.replaceProjection, opened.store,
      Option.isNone_some, Bool.false_eq_true, if_false, VaultCall.writes] at done ⊢
    by_cases same : world.vault.index.documents = sortDocuments documents
    · rw [if_pos same]
      cases present : world.disk.index with
      | some envelope => rfl
      | none =>
        rw [opened.documents_of_absent present] at same
        have empty : documents = [] := by
          refine List.length_eq_zero_iff.mp ?_
          rw [← List.length_mergeSort documents]
          exact congrArg List.length same.symm
        rw [empty]
        rfl
    · rw [if_neg same] at done ⊢
      have writes : (world.disk.index.isSome || !documents.isEmpty) = true := by
        cases present : world.disk.index with
        | some envelope => rfl
        | none =>
          cases documents with
          | cons first rest => rfl
          | nil =>
            rw [opened.documents_of_absent present, sortDocuments,
              List.mergeSort_nil] at same
            exact absurd rfl same
      rw [writes]
      split at done
      next => cases done
      next remaining deleted =>
        cases fault : faults.saveRecord with
        | some error => simp [KnotVault.save, fault] at done
        | none => simp [KnotVault.save, fault]

theorem VaultWorld.OpenWith.run (opens : SealingOpens host) (opened : world.OpenWith key)
    (calls : List VaultCall)
    (succeed : Run.Along (VaultWorld.perform host) (fun world call => call.Succeeds world) world
      calls) :
    (calls.foldl (VaultWorld.perform host) world).OpenWith key ∧
      (calls.foldl (VaultWorld.perform host) world).disk.index.isSome =
        (world.disk.index.isSome || calls.any VaultCall.writes) := by
  induction calls generalizing world with
  | nil => exact ⟨opened, (Bool.or_false _).symm⟩
  | cons call rest ih =>
    obtain ⟨kept, present⟩ := ih (opened.step opens succeed.1) succeed.2
    refine ⟨kept, ?_⟩
    rw [List.foldl_cons, present, opened.present_step succeed.1, List.any_cons, Bool.or_assoc]

theorem VaultWorld.OpenWith.restores_iff (opened : world.OpenWith key) :
    (∃ unlocked, world.vault.lock.unlock host world.disk key none = .ok unlocked ∧
      unlocked.index.documents = world.vault.index.documents ∧
      unlocked.index.revision = world.vault.index.revision) ↔
      world.disk.index.isSome = true := by
  have loaded := opened.agrees.disk key opened.store
  cases present : world.disk.index with
  | none =>
    refine iff_of_false ?_ Bool.false_ne_true
    rintro ⟨unlocked, found, _⟩
    simp [KnotVault.unlock, KnotVault.lock, KnotVault.isLocked, loadRecord, present] at found
  | some envelope =>
    refine iff_of_true ?_ rfl
    cases read : host.unsealRecord key envelope with
    | error error => simp [loadIndex, loadRecord, present, read, Except.map] at loaded
    | ok index =>
      have supported := opened.agrees.version
      simp only [loadIndex, loadRecord, present, read, Except.map, Option.getD_some] at loaded
      split at loaded
      next => cases loaded
      next known =>
        refine ⟨⟨some key, some (host.deriveKey Vault.syncKeyContext key), index⟩, ?_, ?_⟩
        · simp only [KnotVault.unlock, KnotVault.lock, KnotVault.isLocked, loadRecord, present,
            read, Except.map, Option.isNone_none, Bool.not_true, Bool.false_eq_true, if_false,
            if_neg known]
        · rw [← Except.ok.inj loaded]
          exact ⟨rfl, rfl⟩

/-- After any successful calls, a vault locked and unlocked under its key is what it was exactly
if its index was on disk when it was opened or one of the calls wrote it. -/
theorem lock_round_trip_iff (opens : SealingOpens host) (disk : VaultDisk host) (key : Bytes32)
    (faults : VaultFaults) (vault : KnotVault)
    (opened : KnotVault.open host disk key faults = .ok vault) (calls : List VaultCall)
    (succeed : Run.Along (VaultWorld.perform host) (fun world call => call.Succeeds world)
      ⟨vault, disk⟩ calls) :
    (calls.foldl (VaultWorld.perform host) ⟨vault, disk⟩).LockRoundTrip key ↔
      disk.index.isSome = true ∨ calls.any VaultCall.writes = true := by
  have start : (⟨vault, disk⟩ : VaultWorld host).OpenWith key := by
    refine ⟨open_agrees disk key faults vault opened, ?_⟩
    rw [KnotVault.open] at opened
    split at opened
    next => cases opened
    next => cases opened; rfl
  obtain ⟨kept, present⟩ := start.run opens calls succeed
  rw [← Bool.or_eq_true, ← present, ← kept.restores_iff]
  constructor
  · exact VaultWorld.LockRoundTrip.restored
  · exact fun restored => ⟨locked_run_hidden _ _, restored⟩

/-- A vault that was never saved cannot be unlocked again. -/
theorem unsaved_vault_stays_locked :
    KnotVault.open VaultHost.sample emptyDisk (.filled 7) {} = .ok openedVault ∧
      openedVault.lock.unlock VaultHost.sample emptyDisk (.filled 7) none =
        .error "Knot vault index is absent" ∧
      ¬ (⟨openedVault, emptyDisk⟩ : VaultWorld VaultHost.sample).LockRoundTrip (.filled 7) := by
  refine ⟨rfl, rfl, ?_⟩
  intro round
  obtain ⟨unlocked, found, _⟩ := round.restored
  cases found

theorem lock_round_trip_iff_fieldNote :
    ([VaultCall.put fieldNote {}].foldl (VaultWorld.perform VaultHost.sample)
      ⟨openedVault, emptyDisk⟩).LockRoundTrip (.filled 7) :=
  (lock_round_trip_iff sample_sealing_opens emptyDisk (.filled 7) {} openedVault rfl
    [.put fieldNote {}] ⟨rfl, trivial⟩).mpr (.inr rfl)

end KnotEditor
