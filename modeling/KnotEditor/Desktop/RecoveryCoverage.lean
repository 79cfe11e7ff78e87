import KnotEditor.Desktop.RecoveryOffers
import KnotEditor.Desktop.RecoverySync

/-! What every unsaved document has on its way to the recovery directory, and the invariant behind
it: a remembered fingerprint stands for a copy, until a removal of that copy fails. -/

namespace KnotEditor.Desktop

open KeyedCollections WriteBehind

def reportedSince (key : DocKey) (log : List RecoveryEvent) : Bool :=
  log.foldl (fun told event =>
    match event with
    | .changed other => told && other != key
    | .reported => true
    | _ => told) false

def removedSince (key : DocKey) (id : RecoveryId) (log : List RecoveryEvent) : Bool :=
  log.foldl (fun removed event =>
    match event with
    | .offered other copy => removed && !(other == key && copy == id)
    | .removed copy => removed || copy == id
    | .uncleared copy => removed || copy == id
    | _ => removed) false

def RecoveryEvent.offeredId : RecoveryEvent → Option RecoveryId
  | .offered _ id => some id
  | _ => none

def OnItsWay (recovery : RecoveryRuntime) (record : RecoveryRecord) : Prop :=
  recovery.deferred[record.id]? = some record ∨
    (∃ front back, edits recovery.queue = front ++ .put record.id record :: back ∧
      .drop record.id ∉ back) ∨
    ((recovery.pending[record.id]? = some record ∨ recovery.stored[record.id]? = some record) ∧
      .drop record.id ∉ edits recovery.queue)

section

variable {host : RecoveryDigest}

def DocumentEntry.needsCopy (entry : DocumentEntry host) : Bool :=
  entry.unsaved && entry.copyable && entry.fits

def DocumentEntry.CopiedBy (entry : DocumentEntry host) (record : RecoveryRecord) : Prop :=
  entry.recoveryId = some record.id ∧ record.sourceText = entry.observation.source ∧
    record.selection = entry.observation.selection

namespace DesktopRecovery

/-- Every document that needs a copy has one, or a failure was reported since its last change. -/
def Covered (desk : DesktopRecovery host) : Prop :=
  ∀ (key : DocKey) entry, desk.docs[key]? = some entry → entry.needsCopy = true →
    (∃ record, entry.CopiedBy record ∧ OnItsWay desk.recovery record) ∨
      reportedSince key desk.log = true

/-- No document is in the state of its last offer with a removal of its copy behind that offer. -/
def Trusted (desk : DesktopRecovery host) : Prop :=
  ∀ (key : DocKey) entry, desk.docs[key]? = some entry → entry.needsCopy = true →
    entry.recoveryFingerprint = some (entry.fingerprint (decide (desk.focused = some key))) →
      ∀ id, entry.recoveryId = some id → removedSince key id desk.log = false

structure FreshDraws (desk : DesktopRecovery host) (schedule : SyncSchedule) : Prop where
  distinct : ∀ one ∈ desk.docs, ∀ two ∈ desk.docs, schedule.draw one = schedule.draw two → one = two
  undrawn : ∀ key ∈ desk.docs, ∀ (other : DocKey) entry, desk.docs[other]? = some entry →
    entry.recoveryId ≠ some (schedule.draw key)
  unlogged : ∀ key ∈ desk.docs, ∀ event ∈ desk.log, event.offeredId ≠ some (schedule.draw key)

theorem trusted_iff (desk : DesktopRecovery host) :
    Trusted desk ↔ ∀ item ∈ desk.docs.toList, item.2.needsCopy = true →
      item.2.recoveryFingerprint =
          some (item.2.fingerprint (decide (desk.focused = some item.1))) →
        ∀ id ∈ item.2.recoveryId, removedSince item.1 id desk.log = false := by
  constructor
  · intro trusted item member
    exact trusted item.1 item.2 (Std.ExtTreeMap.mem_toList_iff_getElem?_eq_some.mp member)
  · intro listed key entry held
    exact listed (key, entry) (Std.ExtTreeMap.mem_toList_iff_getElem?_eq_some.mpr held)

instance (desk : DesktopRecovery host) : Decidable (Trusted desk) :=
  decidable_of_iff _ (trusted_iff desk).symm

theorem freshDraws_iff (desk : DesktopRecovery host) (schedule : SyncSchedule) :
    FreshDraws desk schedule ↔
      (∀ one ∈ desk.docs.keys, ∀ two ∈ desk.docs.keys,
        schedule.draw one = schedule.draw two → one = two) ∧
      (∀ key ∈ desk.docs.keys, ∀ item ∈ desk.docs.toList,
        item.2.recoveryId ≠ some (schedule.draw key)) ∧
      ∀ key ∈ desk.docs.keys, ∀ event ∈ desk.log,
        event.offeredId ≠ some (schedule.draw key) := by
  simp only [Std.ExtTreeMap.mem_keys]
  constructor
  · intro fresh
    refine ⟨fresh.distinct, ?_, fresh.unlogged⟩
    intro key member item listed
    exact fresh.undrawn key member item.1 item.2
      (Std.ExtTreeMap.mem_toList_iff_getElem?_eq_some.mp listed)
  · rintro ⟨distinct, undrawn, unlogged⟩
    refine ⟨distinct, ?_, unlogged⟩
    intro key member other entry held
    exact undrawn key member (other, entry)
      (Std.ExtTreeMap.mem_toList_iff_getElem?_eq_some.mpr held)

instance (desk : DesktopRecovery host) (schedule : SyncSchedule) :
    Decidable (FreshDraws desk schedule) :=
  decidable_of_iff _ (freshDraws_iff desk schedule).symm

def discarded (desk : DesktopRecovery host) : DiscardAction → List DocKey
  | .closeDocument key => [key]
  | .closeSite pages => pages.filter fun key =>
    (desk.docs[key]?).any fun (entry : DocumentEntry host) => entry.observation.dirty
  | .reload => desk.focused.toList
  | .quit => desk.dirtyDocuments

/-- The open documents that an operation saves or discards. A discard other than a quit went through
once its document is closed or saved. -/
def settled (desk : DesktopRecovery host) : DocumentOperation → List DocKey
  | .save key saved _ => if saved.isSome && desk.docs.contains key then [key] else []
  | .discard action outcome _ => (desk.discarded action).filter fun key =>
    desk.docs.contains key &&
      (action == .quit || !(desk.perform outcome action).isUnsaved key)
  | .discardRecovery id refused _ =>
    if refused then []
    else ((desk.docs.toList.find? fun item => item.2.recoveryId = some id).map Prod.fst).toList
  | _ => []

def ClearFailed (before after : DesktopRecovery host) (id : RecoveryId) : Prop :=
  ∃ events, after.log = before.log ++ events ∧ [.uncleared id, .reported] <:+: events

/-- Nothing offered before a turn for a document that the turn saved or discarded is left, unless
clearing it reported an error. -/
def Withdrew (desk : DesktopRecovery host) (turn : RecoveryTurn) : Prop :=
  ∀ key ∈ (turn.before.foldl pause desk).settled turn.operation, ∀ id,
    .offered key id ∈ desk.log → (desk.turn turn).recovery.Absent id ∨
      ClearFailed desk (desk.turn turn) id

structure Starting (desk : DesktopRecovery host) : Prop where
  orderly : desk.recovery.Orderly
  keys : ∀ (key : DocKey) entry, desk.docs[key]? = some entry → key < desk.nextDoc
  distinct : ∀ (one two : DocKey) first second id, desk.docs[one]? = some first →
    desk.docs[two]? = some second → first.recoveryId = some id → second.recoveryId = some id →
      one = two
  unremembered : ∀ (key : DocKey) entry, desk.docs[key]? = some entry →
    entry.recoveryFingerprint = none
  unlogged : desk.log = []

structure Retired (desk : DesktopRecovery host) (id : RecoveryId) : Prop where
  absent : desk.recovery.Absent id
  unheld : ∀ (key : DocKey) entry, desk.docs[key]? = some entry → entry.recoveryId ≠ some id

def Backed (recovery : RecoveryRuntime) (failed : List RecoveryId) (id : RecoveryId)
    (fingerprint : host.Digest) : Prop :=
  (∃ record focused, recovery.latest id = some record ∧
      fingerprint = host.blake3 (fingerprintBytes record.sourceText record.selection focused) ∧
      record.selection.anchor ≤ usizeMax ∧ record.selection.head ≤ usizeMax) ∨
    recovery.Failed id ∨ id ∈ failed

structure Accepted (desk : DesktopRecovery host) (failed : List RecoveryId) (offer : Offer host) :
    Prop where
  held : ∃ entry, desk.docs[offer.key]? = some entry ∧ entry.recoveryId = some offer.record.id
  backed : Backed desk.recovery failed offer.record.id offer.fingerprint

/-- The invariant, with the accepted offers still to be remembered and the failures drained but not
yet acted on. -/
structure Sound (accepted : List (Offer host)) (failed : List RecoveryId)
    (desk : DesktopRecovery host) : Prop where
  orderly : desk.recovery.Orderly
  keys : ∀ (key : DocKey) entry, desk.docs[key]? = some entry → key < desk.nextDoc
  distinct : ∀ (one two : DocKey) first second id, desk.docs[one]? = some first →
    desk.docs[two]? = some second → first.recoveryId = some id → second.recoveryId = some id →
      one = two
  named : ∀ (key : DocKey) entry, desk.docs[key]? = some entry →
    entry.recoveryFingerprint.isSome → entry.recoveryId.isSome
  backed : ∀ (key : DocKey) entry, desk.docs[key]? = some entry →
    (∀ offer ∈ accepted, offer.key ≠ key) →
      ∀ id fingerprint, entry.recoveryId = some id → entry.recoveryFingerprint = some fingerprint →
        removedSince key id desk.log = true ∨ Backed desk.recovery failed id fingerprint
  accepted : ∀ offer ∈ accepted, Accepted desk failed offer
  logged : ∀ key id, .offered key id ∈ desk.log → key < desk.nextDoc ∧
    ∀ entry, desk.docs[key]? = some entry → entry.recoveryId = some id ∨ desk.Retired id

end DesktopRecovery

end

end KnotEditor.Desktop
