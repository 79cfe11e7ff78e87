import KnotEditor.Endpoint.Pairing

/-! What a save supersedes. Its token is compared with the heads of the last projection, and its
operation is authored behind whatever the store has accepted by then. -/

namespace KnotEditor

open Fallible

variable {host : SourceHost}

def OneKey (host : VaultHost) : Prop :=
  ∀ key other envelope index found, host.unsealRecord key envelope = .ok index →
    host.unsealRecord other envelope = .ok found → key = other

def OpensTo (contents : GroupCiphertext → ByteArray) (keys : DataKeyring) : Prop :=
  ∀ envelope plaintext, keys.openEnvelope envelope = .ok plaintext → plaintext = contents envelope

def VaultSyncAuthority.OpensTo (contents : GroupCiphertext → ByteArray) :
    VaultSyncAuthority → Prop
  | personal _ => True
  | commons _ keys => KnotEditor.OpensTo contents keys

def SourceCall.OpensTo (contents : GroupCiphertext → ByteArray) : SourceCall → Prop
  | replaceKeys keys _ _ => KnotEditor.OpensTo contents keys
  | _ => True

structure GrownHistory (host : SyncHost) (earlier later : KnotSyncStore) (order : List Operation) :
    Prop where
  closed : ∃ pending, earlier.closedOperations host = .ok (order, pending)
  ordered : CausalOrder (earlier.causal host) order
  chained : SingleWriter (earlier.causal host) order
  transitive : ∀ first second third, (earlier.causal host).Precedes first second →
    (earlier.causal host).Precedes second third → (earlier.causal host).Precedes first third
  identified : ∀ record ∈ later.records, ∀ held ∈ order,
    record.operation.hash = held.hash → record.operation = held
  ancestors : ∀ held ∈ order, ∀ hash, (later.causal host).happensBefore hash held.hash = true →
    ∃ ancestor ∈ order, ancestor.hash = hash
  agrees : ∀ first ∈ order, ∀ second ∈ order,
    (later.causal host).happensBefore first.hash second.hash =
      (earlier.causal host).happensBefore first.hash second.hash

namespace VaultSource

def events (host : SourceHost) (source : VaultSource) : Operation → Option KnotSyncEvent :=
  match source.sync with
  | none => fun _ => none
  | some authority => readableEvents host.sync (authority.cipher host source.vault)

end VaultSource

namespace WatchedWorld

variable (watched : WatchedWorld host) (id : String) (payload : SaveText) (operation : Operation)

/-- Every put, delete or resolution of the document in the past of `operation` is an operation that
the head of the presented token names, or a causal ancestor of one. -/
def SupersedesOnlyNamed : Prop :=
  ∃ head, watched.world.source.documentHeads[id]? = some head ∧
    vaultBaseToken host id head = payload.baseToken ∧
    ∀ record ∈ watched.world.store.records,
      writtenId (watched.world.source.events host) record.operation = some id →
      frontierObserves (watched.world.store.causal host.sync)
        operation.header.extensions.parents record.operation.hash = true →
        ∃ version,
          HeadNames host.sync.merge watched.reading.projection.automaticMerges id head version ∧
          (record.operation.hash = version ∨ (watched.world.store.causal host.sync).happensBefore
            record.operation.hash version = true)

/-- Every put, delete or resolution of the document that the authoring frontier observes was closed
in the store when the source last projected it. -/
def ObservesOnlyProjected (order : List Operation) : Prop :=
  ∀ record ∈ watched.world.store.records,
    writtenId (watched.world.source.events host) record.operation = some id →
    frontierObserves (watched.world.store.causal host.sync)
      operation.header.extensions.parents record.operation.hash = true →
      record.operation ∈ order

end WatchedWorld

def KnotVault.OpenUnder (host : VaultHost) (root : Bytes32) (vault : KnotVault) : Prop :=
  (vault.store = none ∧ vault.syncKey = none) ∨
    (vault.store = some root ∧
      vault.syncKey = some (host.deriveKey Vault.syncKeyContext root))

def ReadsWith (host : SourceHost) (root : Bytes32) (contents : GroupCiphertext → ByteArray)
    (cipher : KnotSyncCipher) : VaultSyncAuthority → Prop
  | .personal _ => ∃ vault : KnotVault,
      vault.syncKey = some (host.vault.deriveKey Vault.syncKeyContext root) ∧
        cipher = .personal (vault.syncVault host)
  | .commons _ _ => ∃ held, cipher = .commonsData held ∧ OpensTo contents held

structure WatchedWorld.Reads (root : Bytes32) (contents : GroupCiphertext → ByteArray)
    (watched : WatchedWorld host) : Prop where
  projected : watched.reading.store.projectionWithCipher host.sync watched.reading.cipher =
    .ok watched.reading.projection
  heads : watched.world.source.documentHeads = watched.reading.projection.documentHeads
  keyed : watched.world.source.vault.OpenUnder host.vault root
  sealed : ∀ envelope, watched.world.disk.index = some envelope →
    ∃ index, host.vault.unsealRecord root envelope = .ok index
  authority : ∃ authority, watched.world.source.sync = some authority ∧
    authority.OpensTo contents ∧ ReadsWith host root contents watched.reading.cipher authority

def VaultDisk.OpenUnder {host : VaultHost} (root : Bytes32) (disk : VaultDisk host) : Prop :=
  ∀ envelope, disk.index = some envelope → ∃ index, host.unsealRecord root envelope = .ok index

section vault

variable {host : VaultHost} {root : Bytes32} {vault opened : KnotVault} {disk : VaultDisk host}

theorem save_openUnder (opens : SealingOpens host) (faults : VaultFaults)
    (keyed : vault.store = some root) (sealed : disk.OpenUnder root) :
    VaultDisk.OpenUnder root (vault.save host disk faults).2 := by
  rcases save_cases vault disk root faults keyed with ⟨error, _, failed⟩ | ⟨_, saved⟩
  · rw [failed]
    exact sealed
  · rw [saved]
    intro envelope held
    cases held
    exact ⟨vault.index, opens root vault.index⟩

theorem replaceProjection_openUnder (opens : SealingOpens host) (documents : List VaultDocument)
    (faults : VaultFaults) (keyed : vault.OpenUnder host root) (sealed : disk.OpenUnder root) :
    (vault.replaceProjection host disk documents faults).vault.OpenUnder host root ∧
      (vault.replaceProjection host disk documents faults).disk.OpenUnder root := by
  rcases keyed with ⟨locked, keyless⟩ | ⟨stored, keyed⟩
  · simp only [KnotVault.replaceProjection, locked, Option.isNone_none, if_true]
    exact ⟨.inl ⟨locked, keyless⟩, sealed⟩
  · simp only [KnotVault.replaceProjection, stored, Option.isNone_some, Bool.false_eq_true,
      if_false]
    by_cases same : vault.index.documents = sortDocuments documents
    · rw [if_pos same]
      exact ⟨.inr ⟨stored, keyed⟩, sealed⟩
    · rw [if_neg same]
      have kept := deleteDerivedCaches_index vault faults
        (vault.removedIds (sortDocuments documents)) disk
      rcases deleted : vault.deleteDerivedCaches host faults disk
          (vault.removedIds (sortDocuments documents)) with ⟨result, remaining⟩
      rw [deleted] at kept
      have remains : remaining.OpenUnder root := by
        intro envelope held
        rw [kept] at held
        exact sealed envelope held
      cases result with
      | error error => exact ⟨.inr ⟨stored, keyed⟩, remains⟩
      | ok _ =>
        let changed : KnotVault := { vault with
          store := some root
          index := { vault.index with
            documents := sortDocuments documents
            revision := nextRevision vault.index.revision } }
        have saves := @save_openUnder host root changed remaining opens faults rfl remains
        simp only
        split
        next error saved done =>
          rw [done] at saves
          exact ⟨.inr ⟨rfl, keyed⟩, saves⟩
        next saved done =>
          rw [done] at saves
          exact ⟨.inr ⟨rfl, keyed⟩, saves⟩

theorem unlock_openUnder (oneKey : OneKey host) {key : Bytes32} {fault : Option String}
    (keyed : vault.OpenUnder host root) (sealed : disk.OpenUnder root)
    (unlocked : vault.unlock host disk key fault = .ok opened) : opened.OpenUnder host root := by
  rw [KnotVault.unlock] at unlocked
  split at unlocked
  next =>
    cases unlocked
    exact keyed
  next =>
    split at unlocked
    next => cases unlocked
    next => cases unlocked
    next index loaded =>
      split at unlocked
      next => cases unlocked
      next =>
        cases unlocked
        cases fault with
        | some error => cases loaded
        | none =>
          simp only [loadRecord] at loaded
          cases held : disk.index with
          | none => simp [held] at loaded
          | some envelope =>
            obtain ⟨found, opensRoot⟩ := sealed envelope held
            simp only [held] at loaded
            cases opensKey : host.unsealRecord key envelope with
            | error error => simp [opensKey, Except.map] at loaded
            | ok other =>
              have same := oneKey key root envelope other found opensKey opensRoot
              rw [same]
              exact .inr ⟨rfl, rfl⟩

end vault

section reads

variable {watched : WatchedWorld host} {call : SourceCall} {root : Bytes32}
variable {contents : GroupCiphertext → ByteArray}

theorem readsWith_cipher {vault : KnotVault} {authority : VaultSyncAuthority}
    (keyed : vault.OpenUnder host.vault root) (genuine : authority.OpensTo contents)
    (opened : ∀ signingSeed, authority = .personal signingSeed →
      vault.isLocked = false ∨ vault.syncKey ≠ none) :
    ReadsWith host root contents (authority.cipher host vault) authority := by
  cases authority with
  | personal signingSeed =>
    rcases keyed with ⟨locked, keyless⟩ | ⟨_, keyed⟩
    · rcases opened signingSeed rfl with unlocked | held
      · rw [KnotVault.isLocked, locked] at unlocked
        cases unlocked
      · exact absurd keyless held
    · exact ⟨vault, keyed, rfl⟩
  | commons signingSeed keys => exact ⟨keys, rfl, genuine⟩

theorem syncKept_opensTo (root : Bytes32) {world : ResidentWorld host} {authority : VaultSyncAuthority}
    {sync : Option VaultSyncAuthority} (synced : world.source.sync = some authority)
    (genuine : authority.OpensTo contents) (allowed : call.OpensTo contents)
    (kept : SyncKept world call sync) : ∃ next, sync = some next ∧ next.OpensTo contents ∧
      ∀ cipher, ReadsWith host root contents cipher authority →
        ReadsWith host root contents cipher next := by
  rcases kept with same | ⟨signingSeed, current, keys, persisted, faults, rfl, before, after⟩
  · exact ⟨authority, same.trans synced, genuine, fun _ reads => reads⟩
  · rw [before] at synced
    cases synced
    exact ⟨_, after, allowed, fun _ reads => reads⟩

theorem WatchedWorld.Reads.step (opens : SealingOpens host.vault) (oneKey : OneKey host.vault)
    (reads : watched.Reads root contents) (allowed : call.OpensTo contents) :
    (watched.perform call).Reads root contents := by
  obtain ⟨authority, synced, genuine, reader⟩ := reads.authority
  rw [WatchedWorld.perform]
  cases found : watched.world.installation call with
  | some installation =>
    have installs := perform_installs found
    have keyed : installation.source.vault.OpenUnder host.vault root := by
      rcases installs.vault with same | ⟨key, fault, unlocked⟩
      · rw [same]
        exact reads.keyed
      · exact unlock_openUnder oneKey reads.keyed reads.sealed unlocked
    have sealed : VaultDisk.OpenUnder root installation.disk := by
      rw [installs.records]
      exact reads.sealed
    have replaced := replaceProjection_openUnder opens installation.reading.projection.documents
      installation.faults keyed sealed
    obtain ⟨next, nextSynced, nextGenuine, _⟩ :=
      syncKept_opensTo root synced genuine allowed installs.sync
    obtain ⟨other, otherSynced, cipher⟩ := installs.reader
    rw [nextSynced] at otherSynced
    cases otherSynced
    refine ⟨installs.projects, ?_, ?_, ?_, next, ?_, nextGenuine, ?_⟩
    · rw [installs.source]
      rfl
    · rw [installs.source]
      exact replaced.1
    · rw [installs.disk]
      exact replaced.2
    · rw [installs.source]
      exact nextSynced
    · simp only [Option.map_some, Option.getD_some, cipher]
      refine readsWith_cipher keyed nextGenuine fun signingSeed personal => ?_
      exact installs.opened signingSeed (nextSynced.trans (congrArg some personal))
  | none =>
    have quiet := perform_quiet found
    obtain ⟨next, nextSynced, nextGenuine, same⟩ :=
      syncKept_opensTo root synced genuine allowed quiet.sync
    refine ⟨reads.projected, quiet.heads.trans reads.heads, ?_, ?_, next, nextSynced,
      nextGenuine, same _ reader⟩
    · rcases quiet.vault with kept | locked | ⟨key, faults, _, unlocked⟩
      · rw [kept]
        exact reads.keyed
      · rw [locked]
        exact .inl ⟨rfl, rfl⟩
      · exact unlock_openUnder oneKey reads.keyed reads.sealed unlocked
    · rw [quiet.disk]
      exact reads.sealed

theorem open_openUnder {vault : KnotVault} {disk : VaultDisk host.vault} {faults : VaultFaults}
    (opened : KnotVault.open host.vault disk root faults = .ok vault) :
    vault.OpenUnder host.vault root ∧ disk.OpenUnder root := by
  rw [KnotVault.open] at opened
  cases loaded : loadIndex host.vault root disk faults.loadRecord with
  | error error =>
    rw [loaded] at opened
    cases opened
  | ok index =>
    rw [loaded] at opened
    cases opened
    refine ⟨.inr ⟨rfl, rfl⟩, ?_⟩
    intro envelope held
    have read := loadIndex_fault root disk faults.loadRecord index loaded
    cases unsealed : host.vault.unsealRecord root envelope with
    | ok found => exact ⟨found, rfl⟩
    | error error => simp [loadIndex, loadRecord, held, unsealed, Except.map] at read

theorem opened_reads (opens : SealingOpens host.vault) {vault : KnotVault}
    {authority : VaultSyncAuthority} {disk : VaultDisk host.vault} {store : KnotSyncStore}
    {openFaults : VaultFaults} {faults : SourceFaults}
    (unlocked : KnotVault.open host.vault disk root openFaults = .ok vault)
    (genuine : authority.OpensTo contents)
    (opened : WatchedWorld.opened vault authority disk store faults = some watched) :
    watched.Reads root contents := by
  obtain ⟨keyed, sealed⟩ := open_openUnder unlocked
  simp only [WatchedWorld.opened, VaultSource.open] at opened
  have spec := refreshProjection_spec (VaultSource.unread vault authority) disk store faults
  cases read : (VaultSource.unread vault authority).reading host store
      faults.loadOperations with
  | none => simp [read] at opened
  | some reading =>
    rw [read] at spec
    simp only [read, spec] at opened
    split at opened
    next done found =>
      cases found
      cases opened
      obtain ⟨projects, _, other, synced, cipher⟩ := reading_spec read
      cases synced
      have replaced := replaceProjection_openUnder opens reading.projection.documents
        faults.toVaultFaults keyed sealed
      refine ⟨projects, rfl, replaced.1, replaced.2, authority, rfl, genuine, ?_⟩
      rw [cipher]
      refine readsWith_cipher keyed genuine fun _ _ => .inr ?_
      rcases keyed with ⟨locked, _⟩ | ⟨_, held⟩
      · rw [KnotVault.open] at unlocked
        split at unlocked
        next => cases unlocked
        next =>
          cases unlocked
          cases locked
      · simp [VaultSource.unread, held]
    next => cases opened

theorem decodeEvent_commonsData {host : SyncHost} {keys : DataKeyring} {operation : Operation}
    {event : KnotSyncEvent}
    (decoded : decodeEvent host (.commonsData keys) operation = .ok event) :
    ∃ body envelope plaintext, operation.body = some body ∧
      host.decodeEnvelope body = .ok envelope ∧ keys.openEnvelope envelope = .ok plaintext ∧
        host.eventFromJson plaintext = .ok event := by
  rw [decodeEvent] at decoded
  cases sealed : operation.body with
  | none =>
    rw [sealed] at decoded
    cases decoded
  | some body =>
    rw [sealed] at decoded
    simp only [bind_eq_ok_iff, mapError_eq_ok_iff] at decoded
    obtain ⟨envelope, wrapped, plaintext, unsealed, read⟩ := decoded
    exact ⟨body, envelope, plaintext, rfl, wrapped, unsealed, read⟩

theorem WatchedWorld.Reads.events_alike {order : List Operation}
    {pending : List PendingCausalOperation} (reads : watched.Reads root contents)
    (closed : watched.reading.store.closedOperations host.sync = .ok (order, pending))
    (opened : ∀ signingSeed, watched.world.source.sync = some (.personal signingSeed) →
      watched.world.source.vault.syncKey ≠ none)
    {operation : Operation} (member : operation ∈ order) {event : KnotSyncEvent}
    (opens : watched.world.source.events host operation = some event) :
    readableEvents host.sync watched.reading.cipher operation = some event := by
  obtain ⟨authority, synced, genuine, reader⟩ := reads.authority
  rw [VaultSource.events, synced] at opens
  cases authority with
  | personal signingSeed =>
    obtain ⟨vault, keyed, cipher⟩ := reader
    rw [cipher]
    have same : watched.world.source.vault.syncKey = vault.syncKey := by
      rcases reads.keyed with ⟨_, keyless⟩ | ⟨_, held⟩
      · exact absurd keyless (opened signingSeed synced)
      · exact held.trans keyed.symm
    simp only [VaultSyncAuthority.cipher, KnotVault.syncVault, same] at opens
    simp only [KnotVault.syncVault]
    exact opens
  | commons signingSeed keys =>
    obtain ⟨held, cipher, heldGenuine⟩ := reader
    have projected := reads.projected
    rw [cipher] at projected ⊢
    rw [KnotSyncStore.projectionWithCipher, KnotSyncStore.projection_ok_iff closed] at projected
    obtain ⟨found, decoded⟩ := projected.2.1 rfl operation member
    rw [readableEvents_eq_some_iff] at opens ⊢
    obtain ⟨body, envelope, plaintext, sealed, wrapped, unsealed, read⟩ :=
      decodeEvent_commonsData opens
    obtain ⟨_, _, other, sealedToo, wrappedToo, unsealedToo, readToo⟩ :=
      decodeEvent_commonsData decoded
    rw [sealed] at sealedToo
    cases sealedToo
    rw [wrapped] at wrappedToo
    cases wrappedToo
    rw [heldGenuine envelope other unsealedToo, ← genuine envelope plaintext unsealed, read]
      at readToo
    cases readToo
    exact decoded

theorem WatchedWorld.Reads.named_above {order : List Operation} {id : String} {head : Bytes32}
    (reads : watched.Reads root contents)
    (grown : GrownHistory host.sync watched.reading.store watched.world.store order)
    (headed : watched.world.source.documentHeads[id]? = some head) {operation : Operation}
    (member : operation ∈ order)
    (writes : writtenId (readableEvents host.sync watched.reading.cipher) operation = some id) :
    ∃ version,
      HeadNames host.sync.merge watched.reading.projection.automaticMerges id head version ∧
      (operation.hash = version ∨ (watched.world.store.causal host.sync).happensBefore
        operation.hash version = true) := by
  obtain ⟨pending, closed⟩ := grown.closed
  have projected := reads.projected
  rw [KnotSyncStore.projectionWithCipher, KnotSyncStore.projection_ok_iff closed] at projected
  obtain ⟨turns, settled, settling, shape⟩ := projectEvents_ok_iff.mp projected.2.2
  have resolves := (resolvesInTurn_iff grown.ordered).mp turns
  rw [reads.heads, shape] at headed
  rw [shape]
  obtain ⟨last, standing, reached⟩ :=
    standing_above grown.ordered resolves grown.transitive member writes
  refine ⟨last.hash, names_standing grown.ordered grown.chained resolves settling headed standing,
    ?_⟩
  rcases reached with same | before
  · exact .inl (congrArg Operation.hash same.symm)
  · exact .inr ((grown.agrees operation member last standing.member).trans before)

/-- A save supersedes only what its token names exactly when its author observes only what the
source had projected. -/
theorem WatchedWorld.Reads.supersedes_iff {order : List Operation} {id : String} {head : Bytes32}
    {payload : SaveText} {operation : Operation} (reads : watched.Reads root contents)
    (grown : GrownHistory host.sync watched.reading.store watched.world.store order)
    (opened : ∀ signingSeed, watched.world.source.sync = some (.personal signingSeed) →
      watched.world.source.vault.syncKey ≠ none)
    (headed : watched.world.source.documentHeads[id]? = some head)
    (token : vaultBaseToken host id head = payload.baseToken) :
    watched.SupersedesOnlyNamed id payload operation ↔
      watched.ObservesOnlyProjected id operation order := by
  obtain ⟨pending, closed⟩ := grown.closed
  constructor
  · rintro ⟨other, others, _, supersedes⟩ record member writes observed
    obtain ⟨version, named, reached⟩ := supersedes record member writes observed
    have projected := reads.projected
    rw [KnotSyncStore.projectionWithCipher, KnotSyncStore.projection_ok_iff closed] at projected
    obtain ⟨_, settled, settling, shape⟩ := projectEvents_ok_iff.mp projected.2.2
    rw [shape] at named
    rw [reads.heads, shape] at others
    obtain ⟨held, present, same⟩ := named_mem settling others named
    subst same
    rcases reached with same | before
    · rw [grown.identified record member held present same]
      exact present
    · obtain ⟨ancestor, found, same⟩ := grown.ancestors held present _ before
      rw [grown.identified record member ancestor found same.symm]
      exact found
  · intro observes
    refine ⟨head, headed, token, ?_⟩
    intro record member writes observed
    have present := observes record member writes observed
    refine reads.named_above grown headed present ?_
    obtain ⟨write, wrote, same⟩ := Option.map_eq_some_iff.mp writes
    obtain ⟨event, read, made⟩ := Option.bind_eq_some_iff.mp wrote
    have alike := reads.events_alike closed opened present read
    rw [writtenId, written, alike, Option.bind_some, made, Option.map_some, same]

end reads

/-- In every run, an authored save supersedes only what its token names if and only if nothing that
its author observes of the document arrived since the source last projected its store. -/
theorem save_supersedes_only_named_iff (opens : SealingOpens host.vault) (oneKey : OneKey host.vault)
    (contents : GroupCiphertext → ByteArray) (vault : KnotVault) (authority : VaultSyncAuthority)
    (genuine : authority.OpensTo contents) (root : Bytes32) (disk : VaultDisk host.vault)
    (store : KnotSyncStore) (openFaults : VaultFaults) (sourceFaults : SourceFaults)
    (start : WatchedWorld host)
    (unlocked : KnotVault.open host.vault disk root openFaults = .ok vault)
    (opened : WatchedWorld.opened vault authority disk store sourceFaults = some start)
    (calls : List SourceCall)
    (handed : Run.Along WatchedWorld.perform (fun _ call => call.OpensTo contents) start calls)
    (watched : WatchedWorld host) (reached : calls.foldl WatchedWorld.perform start = watched)
    (revision : UInt64) (id : String) (payload : SaveText) (arriving : List Operation)
    (authorFault : Option KnotSyncError) (faults : SourceFaults) (operation : Operation)
    (authored : (watched.world.source.authorSave host watched.world.disk watched.world.store
      revision id payload arriving authorFault faults).authored = some operation)
    (order : List Operation)
    (grown : GrownHistory host.sync watched.reading.store watched.world.store order) :
    watched.SupersedesOnlyNamed (nativeId id) payload operation ↔
      watched.ObservesOnlyProjected (nativeId id) operation order := by
  have reads : watched.Reads root contents := by
    rw [← reached]
    refine Run.invariant_run ?_ calls start (opened_reads opens unlocked genuine opened) handed
    intro state call holds allowed
    exact holds.step opens oneKey allowed
  rcases authorSave_cases watched.world.source watched.world.disk watched.world.store revision id
      payload arriving authorFault faults with ⟨result, -, same⟩ | ⟨made, _, head, _, _, save, _⟩
  · rw [same] at authored
    cases authored
  · exact reads.supersedes_iff grown (fun _ personal => save.keyed personal) save.headed save.token

def theirNote : VaultDocument := draftNote.withText "theirs"

def raceHost (causal : CausalIndex) : SourceHost :=
  .sample causal [.put draftNote, .put theirNote, .put (draftNote.withText "mine")]

def racePayload (causal : CausalIndex) : SaveText where
  baseToken := vaultBaseToken (raceHost causal) "note" (.filled 1)
  source := "mine"

def openedRace (causal : CausalIndex) : Option (WatchedWorld (raceHost causal)) :=
  @WatchedWorld.opened (raceHost causal) openedVault (.personal (.filled 10)) emptyDisk
    (.sample [.sealed 1 10 0]) {}

def racedIndex : CausalIndex := .ofPairs [(1, 2), (1, 10), (2, 10)]

theorem openedRace_isSome : (openedRace racedIndex).isSome = true := by decide +kernel

def raceStart : WatchedWorld (raceHost racedIndex) := (openedRace racedIndex).get openedRace_isSome

def raceCalls : List SourceCall :=
  [.refresh {}, .prepare (some ⟨100⟩) 1 "knot:vault:note" (racePayload racedIndex),
    .accept (.sealed 2 20 1)]

def raced : WatchedWorld (raceHost racedIndex) := raceCalls.foldl WatchedWorld.perform raceStart

def racedSave : VaultSource.SaveOutcome (raceHost racedIndex) :=
  raced.world.source.authorSave (raceHost racedIndex) raced.world.disk raced.world.store 1
    "knot:vault:note" (racePayload racedIndex) [] none {}

def racedPut : Operation := racedSave.authored.getD (.sample 0 0)

/-- An edit accepted between the token check and the authoring is overwritten unseen. -/
theorem arrived_version_is_overwritten :
    openedRace racedIndex = some raceStart ∧
      raceStart.world.source.prepareSave (raceHost racedIndex) (some ⟨100⟩) 1 "knot:vault:note"
        (racePayload racedIndex) = .ok none ∧
      racedSave.result = .ok .accepted ∧ racedSave.authored = some racedPut ∧
      ¬ raced.SupersedesOnlyNamed "note" (racePayload racedIndex) racedPut := by
  refine ⟨(Option.some_get openedRace_isSome).symm, by decide +kernel, by decide +kernel,
    by decide +kernel, ?_⟩
  rintro ⟨head, headed, _, supersedes⟩
  have known : raced.world.source.documentHeads["note"]? = some (.filled 1) := by decide +kernel
  have unmerged : raced.reading.projection.automaticMerges = [] := by decide +kernel
  rw [known] at headed
  cases headed
  have arrived : (⟨.sealed 2 20 1, 0⟩ : StoredKnotOperation) ∈ raced.world.store.records := by
    decide +kernel
  obtain ⟨version, named, reached⟩ :=
    supersedes _ arrived (by decide +kernel) (by decide +kernel)
  rw [unmerged] at named
  cases named with
  | own _ same =>
    rw [same] at reached
    revert reached
    decide
  | combined automatic listed => cases listed

def quietIndex : CausalIndex := .ofPairs []

theorem openedQuiet_isSome : (openedRace quietIndex).isSome = true := by decide +kernel

def quietStart : WatchedWorld (raceHost quietIndex) := (openedRace quietIndex).get openedQuiet_isSome

def quieted : WatchedWorld (raceHost quietIndex) :=
  [SourceCall.refresh {}].foldl WatchedWorld.perform quietStart

def quietSave : VaultSource.SaveOutcome (raceHost quietIndex) :=
  quieted.world.source.authorSave (raceHost quietIndex) quieted.world.disk quieted.world.store 1
    "knot:vault:note" (racePayload quietIndex) [] none {}

def quietPut : Operation := quietSave.authored.getD (.sample 0 0)

theorem sample_one_key : OneKey VaultHost.sample := by
  intro key other envelope index found first second
  simp only [VaultHost.sample] at first second
  split at first
  next own =>
    split at second
    next others => exact own.symm.trans others
    next => cases second
  next => cases first

theorem quieted_grown : GrownHistory (raceHost quietIndex).sync quieted.reading.store
    quieted.world.store [.sealed 1 10 0] where
  closed := ⟨[], by decide +kernel⟩
  ordered := {
    distinct := by simp
    extension := {
      nodup := by simp
      forward := by simp
      irreflexive := by
        intro event _ precedes
        cases precedes } }
  chained := by
    intro first firstFound second secondFound _ distinct
    rw [List.mem_singleton] at firstFound secondFound
    exact absurd (firstFound.trans secondFound.symm) distinct
  transitive := by
    intro first second third before
    cases before
  identified := by
    have only : quieted.world.store.records = [⟨.sealed 1 10 0, 0⟩] := by decide +kernel
    intro record member held heldFound _
    rw [only, List.mem_singleton] at member
    rw [List.mem_singleton] at heldFound
    rw [member, heldFound]
  ancestors := by
    intro held _ hash before
    cases before
  agrees := by
    intro first _ second _
    rfl

theorem save_supersedes_only_named_quieted :
    quieted.SupersedesOnlyNamed (nativeId "knot:vault:note") (racePayload quietIndex) quietPut := by
  refine (@save_supersedes_only_named_iff (raceHost quietIndex) sample_sealing_opens
    sample_one_key (fun _ => .empty) openedVault (.personal (.filled 10)) trivial (.filled 7) emptyDisk
    (.sample [.sealed 1 10 0]) {} {} quietStart openedVault_opens
    (Option.some_get openedQuiet_isSome).symm [.refresh {}] ⟨trivial, trivial⟩ quieted rfl 1
    "knot:vault:note" (racePayload quietIndex) [] none {} quietPut (by decide +kernel)
    [.sealed 1 10 0] quieted_grown).mpr ?_
  have only : quieted.world.store.records = [⟨.sealed 1 10 0, 0⟩] := by decide +kernel
  intro record member _ _
  rw [only, List.mem_singleton] at member
  rw [member]
  exact List.mem_singleton_self _

end KnotEditor
