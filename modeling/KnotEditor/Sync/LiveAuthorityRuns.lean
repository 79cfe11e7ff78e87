import KnotEditor.Library.Fallible
import KnotEditor.Sync.LiveAuthority

/-! What a run of authority snapshots leaves a host admitting, serving and fetching from. -/

namespace KnotEditor

open LengthPrefixed

namespace KnotSyncStore

variable {store : KnotSyncStore}

theorem mem_denyWriter {writer other : Bytes32} :
    other ∈ (store.denyWriter writer).2.admittedWriters ↔
      other ∈ store.admittedWriters ∧ other ≠ writer := by
  unfold denyWriter
  split
  next held => simp [admittedWriters, withWriters]
  next absent =>
    constructor
    · intro member
      refine ⟨member, ?_⟩
      rintro rfl
      exact absent member
    · intro both
      exact both.1

theorem mem_admitWriter {writer other : Bytes32} :
    other ∈ (store.admitWriter writer).2.admittedWriters ↔
      other ∈ store.admittedWriters ∨ other = writer := by
  unfold admitWriter
  split
  next held =>
    constructor
    · exact Or.inl
    · rintro (member | rfl)
      · exact member
      · exact held
  next absent =>
    simp only [admittedWriters, withWriters, List.mem_cons]
    exact or_comm

theorem mem_denyWriters (revoked : List Bytes32) {other : Bytes32} :
    other ∈ (revoked.foldl (fun store writer => (store.denyWriter writer).2) store).admittedWriters ↔
      other ∈ store.admittedWriters ∧ other ∉ revoked := by
  induction revoked generalizing store with
  | nil => simp
  | cons writer rest ih =>
    rw [List.foldl_cons, ih, mem_denyWriter, List.mem_cons, not_or, and_assoc]

theorem mem_admitWriters (granted : List Bytes32) {other : Bytes32} :
    other ∈ (granted.foldl (fun store writer => (store.admitWriter writer).2) store).admittedWriters ↔
      other ∈ store.admittedWriters ∨ other ∈ granted := by
  induction granted generalizing store with
  | nil => simp
  | cons writer rest ih =>
    rw [List.foldl_cons, ih, mem_admitWriter, List.mem_cons, or_assoc]

theorem mem_replaceAdmittedWriters {writers : List Bytes32} {other : Bytes32} :
    other ∈ (store.replaceAdmittedWriters writers).2.admittedWriters ↔ other ∈ writers := by
  unfold replaceAdmittedWriters
  split
  next same =>
    constructor
    · intro member
      exact same.1 member
    · intro member
      exact same.2 member
  next different => exact Iff.rfl

theorem encryption_foldl {step : KnotSyncStore → Bytes32 → KnotSyncStore}
    (keeps : ∀ store writer, (step store writer).policy.encryption = store.policy.encryption)
    (writers : List Bytes32) :
    (writers.foldl step store).policy.encryption = store.policy.encryption := by
  induction writers generalizing store with
  | nil => rfl
  | cons writer rest ih => rw [List.foldl_cons, ih, keeps]

theorem encryption_denyWriter (store : KnotSyncStore) (writer : Bytes32) :
    (store.denyWriter writer).2.policy.encryption = store.policy.encryption := by
  unfold denyWriter
  split <;> rfl

theorem encryption_admitWriter (store : KnotSyncStore) (writer : Bytes32) :
    (store.admitWriter writer).2.policy.encryption = store.policy.encryption := by
  unfold admitWriter
  split <;> rfl

theorem encryption_replaceAdmittedWriters (store : KnotSyncStore) (writers : List Bytes32) :
    (store.replaceAdmittedWriters writers).2.policy.encryption = store.policy.encryption := by
  unfold replaceAdmittedWriters
  split <;> rfl

end KnotSyncStore

def KnotAuthoritySource.profile : KnotAuthoritySource → KnotEncryptionProfile
  | .personalPairing => .personalVaultV1
  | .gemotCapabilities => .commonsDataV1

theorem validateAuthoritySource_eq_ok_iff {profile : KnotEncryptionProfile}
    {source : KnotAuthoritySource} :
    validateAuthoritySource profile source = .ok () ↔ profile = source.profile := by
  cases profile <;> cases source <;> simp [validateAuthoritySource, KnotAuthoritySource.profile]

theorem PeerSet.mem_difference {left right : PeerSet} {peer : Bytes32} :
    peer ∈ PeerSet.difference left right ↔ peer ∈ left ∧ peer ∉ right := by
  unfold PeerSet.difference
  rw [List.mem_filter, Std.ExtTreeSet.mem_toList, Bool.not_eq_true', ← Bool.not_eq_true,
    Std.ExtTreeSet.contains_iff_mem]

namespace KnotSyncHost

variable {Network Readers Sources : Type} {transport : TransportHost Network Readers Sources}
  {store : KnotSyncStore} {signingSeed : Bytes32} {config : KnotSyncHostConfig}
  {own : List Bytes32} {start next : KnotSpaceAuthoritySnapshot}
  {calls front : List KnotSpaceAuthoritySnapshot}
  {host opened : KnotSyncHost Network Readers Sources}

def held (start : KnotSpaceAuthoritySnapshot) (calls : List KnotSpaceAuthoritySnapshot) :
    List KnotSpaceAuthoritySnapshot :=
  start :: calls.filter (fun call => decide (call.source = start.source))

def latest (start : KnotSpaceAuthoritySnapshot) (calls : List KnotSpaceAuthoritySnapshot) :
    KnotSpaceAuthoritySnapshot :=
  (held start calls).getLastD start

def run (transport : TransportHost Network Readers Sources)
    (host : KnotSyncHost Network Readers Sources) (calls : List KnotSpaceAuthoritySnapshot) :
    KnotSyncHost Network Readers Sources :=
  calls.foldl (fun host next => (applyAuthority transport host next).2) host

inductive OpenedBy (transport : TransportHost Network Readers Sources) (store : KnotSyncStore)
    (config : KnotSyncHostConfig) (host : KnotSyncHost Network Readers Sources) : Prop
  | bare (seed : Bytes32) (done : open_ transport store seed config = .ok host) :
      OpenedBy transport store config host
  | evidence (seed : Bytes32) (done : openWithEvidence transport store seed config = .ok host) :
      OpenedBy transport store config host
  | scopedEvidence (seed : Bytes32) (readers : Readers)
      (done : openWithScopedEvidence transport store seed config readers = .ok host) :
      OpenedBy transport store config host
  | communalEvidence (seed : Bytes32)
      (done : openWithCommunalEvidence transport store seed config = .ok host) :
      OpenedBy transport store config host

structure EvidenceFollows (transport : TransportHost Network Readers Sources)
    (latest : KnotSpaceAuthoritySnapshot) (host : KnotSyncHost Network Readers Sources) : Prop where
  readers : ∀ evidence, host.evidence = some evidence → ∀ peer,
    transport.serves evidence.readers evidence.scope peer = latest.evidenceReaders.contains peer
  sources : ∀ evidence, host.evidence = some evidence → ∀ peer,
    transport.fetchesFrom evidence.sources peer = latest.evidenceSources.contains peer

def AdmitsLatest (own : List Bytes32) (latest : KnotSpaceAuthoritySnapshot)
    (host : KnotSyncHost Network Readers Sources) : Prop :=
  match latest.source with
  | .personalPairing => ∀ writer,
      writer ∈ host.store.admittedWriters ↔ writer ∈ own ∨ writer ∈ latest.writers
  | .gemotCapabilities => ∀ writer, writer ∈ host.store.admittedWriters ↔ writer ∈ latest.writers

structure LiveAuthority (transport : TransportHost Network Readers Sources) (own : List Bytes32)
    (start : KnotSpaceAuthoritySnapshot) (host : KnotSyncHost Network Readers Sources)
    (calls : List KnotSpaceAuthoritySnapshot) : Prop where
  admits : AdmitsLatest own (latest start calls) (run transport host calls)
  evidence : EvidenceFollows transport (latest start calls) (run transport host calls)
  refuses : ∀ front next back, calls = front ++ next :: back → next.source ≠ start.source →
    ∃ reason, applyAuthority transport (run transport host front) next =
      (.error reason, run transport host front)
  unchanged : ∀ front next back, calls = front ++ next :: back →
    (applyAuthority transport (run transport host front) next).1 = .ok false →
      next = latest start front

/-- Pairing never passes over a writer that is admitted independently of it; a communal space has
no such writer, or has been handed another snapshot. -/
def OwnWritersKept (own : List Bytes32) (start : KnotSpaceAuthoritySnapshot)
    (calls : List KnotSpaceAuthoritySnapshot) : Prop :=
  match start.source with
  | .personalPairing => ∀ writer ∈ own, (∃ snapshot ∈ held start calls, writer ∈ snapshot.writers) →
      writer ∈ (latest start calls).writers
  | .gemotCapabilities => (∀ snapshot ∈ held start calls, snapshot = start) →
      ∀ writer ∈ own, writer ∈ start.writers

def RevisionsIdentify (transport : TransportHost Network Readers Sources)
    (snapshots : List KnotSpaceAuthoritySnapshot) : Prop :=
  ∀ left ∈ snapshots, ∀ right ∈ snapshots,
    transport.blake3 left.revisionBytes = transport.blake3 right.revisionBytes →
      left.revisionBytes = right.revisionBytes

theorem openInner_eq_ok {evidence : Option (KnotEvidenceHost Readers Sources)}
    (done : openInner transport store signingSeed config evidence = .ok opened) :
    store.policy.encryption = config.authority.source.profile ∧ opened.store = store ∧
      opened.evidence = evidence ∧ opened.authority = config.authority := by
  unfold openInner at done
  rcases Fallible.then_eq_ok_iff.mp done with ⟨valid, bound⟩
  rcases Fallible.bind_eq_ok_iff.mp bound with ⟨network, -, seeded⟩
  rcases Fallible.bind_eq_ok_iff.mp seeded with ⟨routed, -, joined⟩
  rcases Fallible.then_eq_ok_iff.mp joined with ⟨-, same⟩
  cases same
  exact ⟨validateAuthoritySource_eq_ok_iff.mp valid, rfl, rfl, rfl⟩

theorem evidenceHost_follows (documented : transport.Documented) (readers : Readers) :
    EvidenceFollows transport config.authority { opened with
      evidence := some (evidenceHost transport store config readers) } where
  readers := by
    rintro evidence ⟨⟩ peer
    rw [evidenceHost, documented.readersReplaced, Std.ExtTreeSet.contains_toList]
  sources := by
    rintro evidence ⟨⟩ peer
    rw [evidenceHost, documented.sourcesMade, Std.ExtTreeSet.contains_toList]

theorem OpenedBy.spec (documented : transport.Documented)
    (openedBy : OpenedBy transport store config opened) :
    store.policy.encryption = config.authority.source.profile ∧ opened.store = store ∧
      opened.authority = config.authority ∧ EvidenceFollows transport config.authority opened := by
  have withScope : ∀ seed readers, openWithScopedEvidence transport store seed config readers =
      .ok opened → store.policy.encryption = config.authority.source.profile ∧
      opened.store = store ∧ opened.authority = config.authority ∧
      EvidenceFollows transport config.authority opened := by
    intro seed readers done
    unfold openWithScopedEvidence at done
    split at done
    · cases done
    · rcases openInner_eq_ok done with ⟨valid, stored, served, authority⟩
      have follows := @evidenceHost_follows _ _ _ transport store config opened documented readers
      rw [← served] at follows
      exact ⟨valid, stored, authority, follows⟩
  cases openedBy with
  | bare seed done =>
    rcases openInner_eq_ok done with ⟨valid, stored, served, authority⟩
    refine ⟨valid, stored, authority, ⟨?_, ?_⟩⟩
    · intro evidence present
      rw [served] at present
      cases present
    · intro evidence present
      rw [served] at present
      cases present
  | evidence seed done =>
    unfold openWithEvidence at done
    split at done
    · cases done
    · exact withScope seed transport.newReaders done
  | scopedEvidence seed readers done => exact withScope seed readers done
  | communalEvidence seed done =>
    unfold openWithCommunalEvidence at done
    simp only at done
    split at done
    · cases done
    · split at done
      · cases done
      · split at done
        · cases done
        · rcases openInner_eq_ok done with ⟨valid, stored, served, authority⟩
          have follows := @evidenceHost_follows _ _ _ transport store config opened documented
            transport.newReaders
          rw [← served] at follows
          exact ⟨valid, stored, authority, follows⟩

theorem latest_append (start : KnotSpaceAuthoritySnapshot) (front : List KnotSpaceAuthoritySnapshot)
    (next : KnotSpaceAuthoritySnapshot) :
    latest start (front ++ [next]) = if next.source = start.source then next
      else latest start front := by
  unfold latest held
  rw [List.filter_append]
  split
  next same =>
    simp only [List.filter_cons, same, decide_true, if_true, List.filter_nil]
    rw [← List.cons_append, List.getLastD_concat]
  next different => simp [different]

theorem mem_held_append {snapshot : KnotSpaceAuthoritySnapshot} :
    snapshot ∈ held start (front ++ [next]) ↔
      snapshot ∈ held start front ∨ next.source = start.source ∧ snapshot = next := by
  unfold held
  by_cases same : next.source = start.source
  · simp [same, List.filter_append, or_assoc]
  · simp [same, List.filter_append]

theorem latest_mem_held (start : KnotSpaceAuthoritySnapshot)
    (calls : List KnotSpaceAuthoritySnapshot) : latest start calls ∈ held start calls := by
  induction calls using List.reverseRecOn with
  | nil => exact List.mem_cons_self
  | append_singleton front next ih =>
    rw [latest_append, mem_held_append]
    split
    next same => exact Or.inr ⟨same, rfl⟩
    next different => exact Or.inl ih

theorem held_source {snapshot : KnotSpaceAuthoritySnapshot} (member : snapshot ∈ held start calls) :
    snapshot.source = start.source := by
  unfold held at member
  rcases List.mem_cons.mp member with rfl | later
  · rfl
  · exact of_decide_eq_true (List.mem_filter.mp later).2

theorem mem_of_mem_held {snapshot : KnotSpaceAuthoritySnapshot}
    (member : snapshot ∈ held start calls) : snapshot ∈ start :: calls := by
  unfold held at member
  rcases List.mem_cons.mp member with rfl | later
  · exact List.mem_cons_self
  · exact List.mem_cons_of_mem _ (List.mem_filter.mp later).1

theorem run_append (front : List KnotSpaceAuthoritySnapshot) :
    run transport host (front ++ [next]) =
      (applyAuthority transport (run transport host front) next).2 := by
  unfold run
  rw [List.foldl_append]
  rfl

def StillOwn (own : List Bytes32) (start : KnotSpaceAuthoritySnapshot)
    (calls : List KnotSpaceAuthoritySnapshot) (writer : Bytes32) : Prop :=
  writer ∈ own ∧ match start.source with
    | .personalPairing => ∀ snapshot ∈ held start calls, writer ∉ snapshot.writers
    | .gemotCapabilities => ∀ snapshot ∈ held start calls, snapshot = start

theorem StillOwn.of_held {writer : Bytes32} {snapshot : KnotSpaceAuthoritySnapshot}
    (still : StillOwn own start calls writer) (member : snapshot ∈ held start calls) :
    match start.source with
      | .personalPairing => writer ∉ snapshot.writers
      | .gemotCapabilities => snapshot = start := by
  unfold StillOwn at still
  cases source : start.source <;> simp only [source] at still ⊢ <;>
    exact still.2 snapshot member

structure Applied (transport : TransportHost Network Readers Sources) (own : List Bytes32)
    (start : KnotSpaceAuthoritySnapshot) (calls : List KnotSpaceAuthoritySnapshot)
    (host : KnotSyncHost Network Readers Sources) : Prop where
  current : host.authority = latest start calls
  profile : host.store.policy.encryption = start.source.profile
  admits : ∀ writer, writer ∈ host.store.admittedWriters ↔
    writer ∈ (latest start calls).writers ∨ StillOwn own start calls writer
  evidence : EvidenceFollows transport (latest start calls) host

theorem stillOwn_append_same (same : next.source = start.source)
    {writer : Bytes32} : StillOwn own start (front ++ [next]) writer ↔
      StillOwn own start front writer ∧ (match start.source with
        | .personalPairing => writer ∉ next.writers
        | .gemotCapabilities => next = start) := by
  unfold StillOwn
  cases start.source <;>
    simp only [mem_held_append, same, true_and, or_imp, forall_and, forall_eq, and_assoc]

theorem stillOwn_append_other (other : next.source ≠ start.source) {writer : Bytes32} :
    StillOwn own start (front ++ [next]) writer ↔ StillOwn own start front writer := by
  unfold StillOwn
  simp only [mem_held_append, other, false_and, or_false]

theorem applyAuthority_other (profile : host.store.policy.encryption = start.source.profile)
    (other : next.source ≠ start.source) :
    ∃ reason, applyAuthority transport host next = (.error reason, host) := by
  unfold applyAuthority
  cases valid : validateAuthoritySource host.store.policy.encryption next.source with
  | error reason => exact ⟨reason, rfl⟩
  | ok done =>
    have same := validateAuthoritySource_eq_ok_iff.mp valid
    rw [profile] at same
    cases nextSource : next.source <;> cases startSource : start.source <;>
      simp_all [KnotAuthoritySource.profile]

theorem applyAuthority_same (profile : host.store.policy.encryption = start.source.profile)
    (same : next.source = start.source)
    (unchanged : host.authority.revision transport.blake3 = next.revision transport.blake3) :
    applyAuthority transport host next = (.ok false, host) := by
  unfold applyAuthority
  rw [validateAuthoritySource_eq_ok_iff.mpr (by rw [profile, same])]
  simp only [unchanged, if_pos]

theorem applyAuthority_changed (documented : transport.Documented)
    (profile : host.store.policy.encryption = start.source.profile)
    (same : next.source = start.source)
    (covers : ∀ writer ∈ host.authority.writers, writer ∈ host.store.admittedWriters)
    (changed : host.authority.revision transport.blake3 ≠ next.revision transport.blake3) :
    ∃ after, applyAuthority transport host next = (.ok true, after) ∧ after.authority = next ∧
      after.store.policy.encryption = start.source.profile ∧ EvidenceFollows transport next after ∧
      ∀ writer, writer ∈ after.store.admittedWriters ↔ writer ∈ next.writers ∨
        start.source = .personalPairing ∧ writer ∈ host.store.admittedWriters ∧
          writer ∉ host.authority.writers := by
  unfold applyAuthority
  rw [validateAuthoritySource_eq_ok_iff.mpr (by rw [profile, same])]
  simp only [if_neg changed]
  refine ⟨_, rfl, rfl, ?_, ⟨?_, ?_⟩, ?_⟩
  · cases source : next.source with
    | personalPairing =>
      simp only
      rw [KnotSyncStore.encryption_foldl (fun store => store.encryption_admitWriter),
        KnotSyncStore.encryption_foldl (fun store => store.encryption_denyWriter), profile]
    | gemotCapabilities =>
      simp only
      rw [KnotSyncStore.encryption_replaceAdmittedWriters, profile]
  · intro evidence present peer
    rcases Option.map_eq_some_iff.mp present with ⟨before, -, rfl⟩
    rw [documented.readersReplaced, Std.ExtTreeSet.contains_toList]
  · intro evidence present peer
    rcases Option.map_eq_some_iff.mp present with ⟨before, -, rfl⟩
    rw [documented.sourcesReplaced, Std.ExtTreeSet.contains_toList]
  · intro writer
    rw [← same]
    cases source : next.source with
    | personalPairing =>
      simp only [KnotSyncStore.mem_admitWriters, KnotSyncStore.mem_denyWriters,
        PeerSet.mem_difference, true_and]
      have covered := covers writer
      by_cases paired : writer ∈ next.writers <;>
        by_cases before : writer ∈ host.authority.writers <;> simp_all
    | gemotCapabilities =>
      simp only [KnotSyncStore.mem_replaceAdmittedWriters, Std.ExtTreeSet.mem_toList,
        reduceCtorEq, false_and, or_false]

theorem Applied.covers (applied : Applied transport own start front host) :
    ∀ writer ∈ host.authority.writers, writer ∈ host.store.admittedWriters := by
  intro writer paired
  rw [applied.current] at paired
  exact (applied.admits writer).mpr (Or.inl paired)

theorem Applied.step (documented : transport.Documented)
    (identify : RevisionsIdentify transport (start :: (front ++ [next])))
    (addressable : ∀ snapshot ∈ start :: (front ++ [next]), snapshot.Addressable)
    (applied : Applied transport own start front host) :
    Applied transport own start (front ++ [next]) (applyAuthority transport host next).2 ∧
      ((applyAuthority transport host next).1 = .ok false → next = latest start front) := by
  by_cases same : next.source = start.source
  · by_cases unchanged : host.authority.revision transport.blake3 = next.revision transport.blake3
    · have member : latest start front ∈ start :: (front ++ [next]) := by
        have earlier := mem_of_mem_held (latest_mem_held start front)
        simp only [List.mem_cons, List.mem_append] at earlier ⊢
        tauto
      have added : next ∈ start :: (front ++ [next]) := by simp
      rw [applied.current] at unchanged
      have equal : latest start front = next :=
        KnotSpaceAuthoritySnapshot.revisionBytes_inj (addressable _ member) (addressable _ added)
          (identify _ member _ added unchanged)
      rw [applyAuthority_same applied.profile same (by rw [applied.current]; exact unchanged)]
      have newest : latest start (front ++ [next]) = latest start front := by
        rw [latest_append, if_pos same, equal]
      refine ⟨⟨?_, applied.profile, ?_, ?_⟩, fun _ => equal.symm⟩
      · rw [newest]
        exact applied.current
      · intro writer
        rw [newest, applied.admits, stillOwn_append_same same, equal]
        have already := latest_mem_held start front
        rw [equal] at already
        refine or_congr_right ⟨?_, And.left⟩
        intro still
        exact ⟨still, still.of_held already⟩
      · rw [newest]
        exact applied.evidence
    · -- The snapshot is applied: personal pairing keeps what no snapshot has named.
      rcases applyAuthority_changed documented applied.profile same applied.covers unchanged with
        ⟨after, ran, current, profile, evidence, admits⟩
      rw [ran]
      have newest : latest start (front ++ [next]) = next := by rw [latest_append, if_pos same]
      refine ⟨⟨?_, profile, ?_, ?_⟩, ?_⟩
      · rw [newest]
        exact current
      · intro writer
        rw [newest, admits, applied.current, applied.admits, stillOwn_append_same same]
        by_cases paired : writer ∈ next.writers
        · simp only [paired, true_or]
        · simp only [paired, false_or]
          constructor
          · rintro ⟨personal, member, gone⟩
            refine ⟨member.resolve_left gone, ?_⟩
            simp only [personal]
            exact not_false
          · rintro ⟨still, beyond⟩
            have before := still.of_held (latest_mem_held start front)
            cases source : start.source with
            | personalPairing =>
              simp only [source] at before
              exact ⟨rfl, Or.inr still, before⟩
            | gemotCapabilities =>
              -- Only one snapshot has been held so far, and this one is another.
              simp only [source] at before beyond
              rw [applied.current, before, beyond] at unchanged
              exact absurd rfl unchanged
      · rw [newest]
        exact evidence
      · intro claimed
        cases claimed
  · rcases @applyAuthority_other _ _ _ transport start next host applied.profile same with
      ⟨reason, refused⟩
    have newest : latest start (front ++ [next]) = latest start front := by
      rw [latest_append, if_neg same]
    rw [refused]
    refine ⟨⟨?_, applied.profile, ?_, ?_⟩, ?_⟩
    · rw [newest]
      exact applied.current
    · intro writer
      rw [newest, stillOwn_append_other same]
      exact applied.admits writer
    · rw [newest]
      exact applied.evidence
    · intro claimed
      cases claimed

def OpenedOver (store : KnotSyncStore) (own : List Bytes32) (start : KnotSpaceAuthoritySnapshot) :
    Prop :=
  ∀ writer, writer ∈ store.admittedWriters ↔ writer ∈ own ∨ writer ∈ start.writers

theorem Applied.at_opening (documented : transport.Documented)
    (openedBy : OpenedBy transport store config host)
    (admitted : OpenedOver store own config.authority) :
    Applied transport own config.authority [] host := by
  rcases openedBy.spec documented with ⟨profile, stored, authority, evidence⟩
  refine ⟨authority, ?_, ?_, evidence⟩
  · rw [stored, profile]
  · intro writer
    rw [stored, admitted writer]
    change writer ∈ own ∨ writer ∈ config.authority.writers ↔
      writer ∈ config.authority.writers ∨ StillOwn own config.authority [] writer
    unfold StillOwn held
    cases config.authority.source with
    | personalPairing =>
      by_cases paired : writer ∈ config.authority.writers <;> simp [paired]
    | gemotCapabilities => simp [or_comm]

theorem Applied.run (documented : transport.Documented)
    (openedBy : OpenedBy transport store config host)
    (admitted : OpenedOver store own config.authority)
    (identify : RevisionsIdentify transport (config.authority :: calls))
    (addressable : ∀ snapshot ∈ config.authority :: calls, snapshot.Addressable) :
    Applied transport own config.authority calls (run transport host calls) := by
  induction calls using List.reverseRecOn with
  | nil => exact Applied.at_opening documented openedBy admitted
  | append_singleton front next ih =>
    have shorter : ∀ snapshot ∈ config.authority :: front,
        snapshot ∈ config.authority :: (front ++ [next]) := by
      intro snapshot member
      rw [← List.cons_append]
      exact List.mem_append_left [next] member
    have before := ih
      (fun left leftFound right rightFound =>
        identify left (shorter left leftFound) right (shorter right rightFound))
      (fun snapshot member => addressable snapshot (shorter snapshot member))
    rw [run_append]
    exact (before.step documented identify addressable).1

theorem Applied.admitsLatest_iff (applied : Applied transport own start calls host) :
    AdmitsLatest own (latest start calls) host ↔ OwnWritersKept own start calls := by
  have source := held_source (latest_mem_held start calls)
  unfold AdmitsLatest OwnWritersKept
  rw [source]
  cases kind : start.source with
  | personalPairing =>
    simp only [applied.admits, StillOwn, kind]
    constructor
    · intro follows writer owned paired
      rcases (follows writer).mpr (Or.inl owned) with member | ⟨-, never⟩
      · exact member
      · rcases paired with ⟨snapshot, found, paired⟩
        exact absurd paired (never snapshot found)
    · intro kept writer
      constructor
      · rintro (member | ⟨owned, -⟩)
        · exact Or.inr member
        · exact Or.inl owned
      · rintro (owned | member)
        · by_cases paired : ∃ snapshot ∈ held start calls, writer ∈ snapshot.writers
          · exact Or.inl (kept writer owned paired)
          · exact Or.inr ⟨owned, fun snapshot found member => paired ⟨snapshot, found, member⟩⟩
        · exact Or.inl member
  | gemotCapabilities =>
    simp only [applied.admits, StillOwn, kind]
    constructor
    · intro follows every writer owned
      have member := (follows writer).mp (Or.inr ⟨owned, every⟩)
      rw [every _ (latest_mem_held start calls)] at member
      exact member
    · intro kept writer
      refine or_iff_left_of_imp ?_
      rintro ⟨owned, every⟩
      rw [every _ (latest_mem_held start calls)]
      exact kept every writer owned

/-- Live authority follows the latest snapshot exactly when pairing never passes over a writer the
store admits on its own. -/
theorem live_authority_iff (documented : transport.Documented)
    (openedBy : OpenedBy transport store config host)
    (admitted : OpenedOver store own config.authority)
    (identify : RevisionsIdentify transport (config.authority :: calls))
    (addressable : ∀ snapshot ∈ config.authority :: calls, snapshot.Addressable) :
    LiveAuthority transport own config.authority host calls ↔
      OwnWritersKept own config.authority calls := by
  have whole := Applied.run documented openedBy admitted identify addressable
  have reached : ∀ front next back, calls = front ++ next :: back →
      Applied transport own config.authority front (run transport host front) ∧
        ((applyAuthority transport (run transport host front) next).1 = .ok false →
          next = latest config.authority front) := by
    rintro front next back rfl
    have shorter : ∀ snapshot ∈ config.authority :: (front ++ [next]),
        snapshot ∈ config.authority :: (front ++ next :: back) := by
      intro snapshot member
      simp only [List.mem_cons, List.mem_append, List.not_mem_nil, or_false] at member ⊢
      tauto
    have before : ∀ snapshot ∈ config.authority :: front,
        snapshot ∈ config.authority :: (front ++ next :: back) := by
      intro snapshot member
      simp only [List.mem_cons, List.mem_append] at member ⊢
      tauto
    have applied := Applied.run documented openedBy admitted
      (fun left leftFound right rightFound =>
        identify left (before left leftFound) right (before right rightFound))
      (fun snapshot member => addressable snapshot (before snapshot member))
    refine ⟨applied, (applied.step documented ?_ ?_).2⟩
    · intro left leftFound right rightFound
      exact identify left (shorter left leftFound) right (shorter right rightFound)
    · intro snapshot member
      exact addressable snapshot (shorter snapshot member)
  constructor
  · intro live
    exact whole.admitsLatest_iff.mp live.admits
  · intro kept
    refine ⟨whole.admitsLatest_iff.mpr kept, whole.evidence, ?_, ?_⟩
    · intro front next back split other
      exact applyAuthority_other (reached front next back split).1.profile other
    · intro front next back split
      exact (reached front next back split).2

def listTransport : TransportHost Unit (List (Bytes32 × List Bytes32)) (List Bytes32) where
  blake3 bytes := ⟨littleEndian 32 (bytes.foldl (fun sum byte => sum * 257 + byte.toNat) 0),
    length_littleEndian 32 _⟩
  bind _ _ := .ok ()
  seedPeers _ _ := .ok ()
  join _ _ := .ok ()
  addPeer _ _ := (.ok (), ())
  removePeer _ _ := (.ok (), ())
  addPeerTicket _ _ := (.error "no route", ())
  newReaders := []
  replaceReaders readers scope peers := (scope, peers) :: readers
  serves readers scope peer :=
    ((readers.find? fun entry => entry.1 = scope).map Prod.snd).any (·.contains peer)
  sourcesFromPeers peers := peers
  replaceSources _ peers := peers
  fetchesFrom sources peer := sources.contains peer

theorem listTransport_documented : listTransport.Documented where
  readersReplaced readers scope peers peer := by simp [listTransport]
  sourcesMade _ _ := rfl
  sourcesReplaced _ _ _ := rfl

def exampleKeys : PersonalVaultKeys where
  vaultKey := .filled 1
  signingSeed := .filled 2
  legacyWriter := .filled 3

def exampleSettings : KnotSyncSettings := { pairedWriters := [], relayUrls := [] }

def exampleStore : KnotSyncStore where
  records := []
  policy := {
    spaceId := .filled 4
    writers := exampleKeys.writers id []
    encryption := .personalVaultV1 }

def pairedThenNot (writer : Bytes32) : List KnotSpaceAuthoritySnapshot :=
  let paired := (exampleSettings.pair writer).2
  [paired, (paired.unpair writer).2].filterMap fun settings =>
    (KnotSpaceAuthoritySnapshot.fromPersonalSettings settings).toOption

def exampleConfig : KnotSyncHostConfig where
  authority := .new .personalPairing [] [] [] []
  relayUrls := []

def exampleHost : KnotSyncHost Unit (List (Bytes32 × List Bytes32)) (List Bytes32) where
  network := ()
  store := exampleStore
  spaceId := .filled 4
  evidence := none
  authority := exampleConfig.authority

def exampleOwn : List Bytes32 := [exampleKeys.writer id, exampleKeys.legacyWriter]

theorem openedBy_example : OpenedBy listTransport exampleStore exampleConfig exampleHost :=
  .bare (.filled 2) rfl

theorem openedOver_example : OpenedOver exampleStore exampleOwn exampleConfig.authority := by
  intro writer
  have none : writer ∉ exampleConfig.authority.writers := Std.ExtTreeSet.not_mem_empty
  have all := @PersonalVaultKeys.mem_writers id exampleKeys [] writer
  simp only [List.not_mem_nil, or_false] at all
  simp only [none, or_false]
  exact all

theorem live_authority_of_another_device :
    LiveAuthority listTransport exampleOwn exampleConfig.authority exampleHost
      (pairedThenNot (.filled 9)) := by
  have identify : RevisionsIdentify listTransport
      (exampleConfig.authority :: pairedThenNot (.filled 9)) := by
    unfold RevisionsIdentify
    decide +kernel
  have addressable : ∀ snapshot ∈ exampleConfig.authority :: pairedThenNot (.filled 9),
      snapshot.Addressable := by decide +kernel
  have kept : OwnWritersKept exampleOwn exampleConfig.authority (pairedThenNot (.filled 9)) := by
    change ∀ writer ∈ exampleOwn, (∃ snapshot ∈ held exampleConfig.authority
      (pairedThenNot (.filled 9)), writer ∈ snapshot.writers) →
        writer ∈ (latest exampleConfig.authority (pairedThenNot (.filled 9))).writers
    decide +kernel
  exact (live_authority_iff listTransport_documented openedBy_example openedOver_example identify
    addressable).mpr kept

/-- A device that pairs its own writer and forgets it again stops admitting it. -/
theorem unpairing_own_writer_denies_it :
    ¬ LiveAuthority listTransport exampleOwn exampleConfig.authority exampleHost
      (pairedThenNot (exampleKeys.writer id)) := by
  intro live
  have admits : ∀ writer, writer ∈ (run listTransport exampleHost
      (pairedThenNot (exampleKeys.writer id))).store.admittedWriters ↔
        writer ∈ exampleOwn ∨ writer ∈
          (latest exampleConfig.authority (pairedThenNot (exampleKeys.writer id))).writers :=
    live.admits
  have denied : exampleKeys.writer id ∉ (run listTransport exampleHost
      (pairedThenNot (exampleKeys.writer id))).store.admittedWriters := by decide +kernel
  exact denied ((admits _).mpr (Or.inl List.mem_cons_self))

end KnotSyncHost

end KnotEditor
