import Std.Data.ExtTreeSet.Lemmas
import KnotEditor.Library.KeyedCollection
import KnotEditor.Library.LengthPrefixed
import KnotEditor.Utf8
import KnotEditor.Sync.Projection

/-! Who may write to one Knot space, whose evidence it serves and where its peers are dialled. -/

namespace KnotEditor

open LengthPrefixed

inductive KnotSettingsError
  | notHex (value : String)
  deriving DecidableEq

structure PairedWriter where
  key : String
  lastEndpoint : Option String
  deriving DecidableEq

structure KnotSyncSettings where
  pairedWriters : List PairedWriter
  relayUrls : List String
  deriving DecidableEq

def hexDigitValue (character : Char) : Option Nat :=
  if '0' ≤ character ∧ character ≤ '9' then some (character.toNat - 48)
  else if 'a' ≤ character ∧ character ≤ 'f' then some (character.toNat - 87)
  else if 'A' ≤ character ∧ character ≤ 'F' then some (character.toNat - 55)
  else none

def hexPairs : List Char → Option (List UInt8)
  | [] => some []
  | [_] => none
  | high :: low :: rest => do
      let high ← hexDigitValue high
      let low ← hexDigitValue low
      let bytes ← hexPairs rest
      some (UInt8.ofNat (high * 16 + low) :: bytes)

def parseHex32 (value : String) : Except KnotSettingsError Bytes32 :=
  let value := trim value
  match hexPairs value.toList with
  | some bytes => if size : bytes.length = 32 then .ok ⟨bytes, size⟩ else .error (.notHex value)
  | none => .error (.notHex value)

def eqIgnoreAsciiCase (left right : String) : Bool :=
  left.toList.map Char.toLower == right.toList.map Char.toLower

namespace KnotSyncSettings

def pairedWriterKeys (settings : KnotSyncSettings) : Except KnotSettingsError (List Bytes32) :=
  settings.pairedWriters.mapM fun writer => parseHex32 writer.key

def endpointFor (settings : KnotSyncSettings) (writer : Bytes32) : Option String :=
  (settings.pairedWriters.find? fun known => eqIgnoreAsciiCase known.key (hex32 writer)).bind
    PairedWriter.lastEndpoint

def pair (settings : KnotSyncSettings) (writer : Bytes32) : Bool × KnotSyncSettings :=
  if settings.pairedWriters.any fun known => eqIgnoreAsciiCase known.key (hex32 writer) then
    (false, settings)
  else
    (true, { settings with
      pairedWriters := settings.pairedWriters ++ [{ key := hex32 writer, lastEndpoint := none }] })

def unpair (settings : KnotSyncSettings) (writer : Bytes32) : Bool × KnotSyncSettings :=
  let kept := settings.pairedWriters.filter fun known => !eqIgnoreAsciiCase known.key (hex32 writer)
  (kept.length != settings.pairedWriters.length, { settings with pairedWriters := kept })

end KnotSyncSettings

inductive KnotAuthoritySource
  | personalPairing
  | gemotCapabilities
  deriving DecidableEq

abbrev PeerSet := Std.ExtTreeSet Bytes32 compare

structure PersonalVaultKeys where
  vaultKey : Bytes32
  signingSeed : Bytes32
  /-- The writer that authored before writers were bound to devices. -/
  legacyWriter : Bytes32

namespace PersonalVaultKeys

def writer (verifyingKey : Bytes32 → Bytes32) (keys : PersonalVaultKeys) : Bytes32 :=
  verifyingKey keys.signingSeed

def writers (verifyingKey : Bytes32 → Bytes32) (keys : PersonalVaultKeys)
    (admitted : List Bytes32) : List Bytes32 :=
  (Std.ExtTreeSet.ofList ([keys.writer verifyingKey, keys.legacyWriter] ++ admitted) compare).toList

theorem mem_writers {verifyingKey : Bytes32 → Bytes32} {keys : PersonalVaultKeys}
    {admitted : List Bytes32} {writer : Bytes32} :
    writer ∈ keys.writers verifyingKey admitted ↔
      writer ∈ [keys.writer verifyingKey, keys.legacyWriter] ∨ writer ∈ admitted := by
  rw [writers, Std.ExtTreeSet.mem_toList, Std.ExtTreeSet.mem_ofList, List.contains_iff_mem,
    List.mem_append]

end PersonalVaultKeys

/-- One immutable authority view. Its revision is a digest of everything else in it. -/
structure KnotSpaceAuthoritySnapshot where
  source : KnotAuthoritySource
  writers : PeerSet
  evidenceReaders : PeerSet
  evidenceSources : PeerSet
  routeHints : Std.ExtTreeMap Bytes32 String compare

namespace KnotSpaceAuthoritySnapshot

def new (source : KnotAuthoritySource) (writers evidenceReaders evidenceSources : List Bytes32)
    (routeHints : List (Bytes32 × String)) : KnotSpaceAuthoritySnapshot where
  source
  writers := .ofList writers
  evidenceReaders := .ofList evidenceReaders
  evidenceSources := .ofList evidenceSources
  routeHints := .ofList routeHints

def fromPersonalSettings (settings : KnotSyncSettings) :
    Except KnotSettingsError KnotSpaceAuthoritySnapshot := do
  let writers ← settings.pairedWriterKeys
  let routeHints := writers.filterMap fun writer =>
    (settings.endpointFor writer).map fun ticket => (writer, ticket)
  .ok (new .personalPairing writers writers writers routeHints)

def hashPeers (label : String) (peers : PeerSet) : List UInt8 :=
  utf8Bytes label.toList ++ (bigEndian 8 peers.toList.length ++ peers.toList.flatMap Bytes32.bytes)

def sourceByte : KnotAuthoritySource → UInt8
  | .personalPairing => 1
  | .gemotCapabilities => 2

def hashRoute (hint : Bytes32 × String) : List UInt8 :=
  let ticket := utf8Bytes hint.2.toList
  hint.1.bytes ++ (bigEndian 8 ticket.length ++ ticket)

def revisionBytes (snapshot : KnotSpaceAuthoritySnapshot) : List UInt8 :=
  utf8Bytes "knot.space-authority/v1\x00".toList ++ ([sourceByte snapshot.source] ++
    (hashPeers "writers" snapshot.writers ++
      (hashPeers "evidence-readers" snapshot.evidenceReaders ++
        (hashPeers "evidence-sources" snapshot.evidenceSources ++
          (utf8Bytes "route-hints".toList ++
            (bigEndian 8 snapshot.routeHints.toList.length ++
              snapshot.routeHints.toList.flatMap hashRoute))))))

def revision (blake3 : List UInt8 → Bytes32) (snapshot : KnotSpaceAuthoritySnapshot) : Bytes32 :=
  blake3 snapshot.revisionBytes

structure Addressable (snapshot : KnotSpaceAuthoritySnapshot) : Prop where
  writers : snapshot.writers.toList.length < 256 ^ 8
  evidenceReaders : snapshot.evidenceReaders.toList.length < 256 ^ 8
  evidenceSources : snapshot.evidenceSources.toList.length < 256 ^ 8
  routeHints : snapshot.routeHints.toList.length < 256 ^ 8
  tickets : ∀ hint ∈ snapshot.routeHints.toList, (utf8Bytes hint.2.toList).length < 256 ^ 8

instance (snapshot : KnotSpaceAuthoritySnapshot) : Decidable snapshot.Addressable :=
  decidable_of_iff (snapshot.writers.toList.length < 256 ^ 8 ∧
    snapshot.evidenceReaders.toList.length < 256 ^ 8 ∧
    snapshot.evidenceSources.toList.length < 256 ^ 8 ∧
    snapshot.routeHints.toList.length < 256 ^ 8 ∧
    ∀ hint ∈ snapshot.routeHints.toList, (utf8Bytes hint.2.toList).length < 256 ^ 8)
    ⟨fun fits => ⟨fits.1, fits.2.1, fits.2.2.1, fits.2.2.2.1, fits.2.2.2.2⟩,
      fun fits => ⟨fits.writers, fits.evidenceReaders, fits.evidenceSources, fits.routeHints,
        fits.tickets⟩⟩

end KnotSpaceAuthoritySnapshot

theorem readsOff_bytes32 : ReadsOff Bytes32.bytes fun _ => True := by
  refine readsOff_of_width 32 Bytes32.size ?_
  intro left right same
  cases left
  cases right
  cases same
  rfl

theorem utf8Bytes_toList_inj {left right : String}
    (same : utf8Bytes left.toList = utf8Bytes right.toList) : left = right := by
  have decoded := fromUtf8_eq_some_iff.mpr (Eq.refl (utf8Bytes left.toList))
  rw [fromUtf8_eq_some_iff.mpr same] at decoded
  exact (Option.some.inj decoded).symm

namespace KnotSpaceAuthoritySnapshot

theorem readsOff_hashRoute :
    ReadsOff hashRoute fun hint => (utf8Bytes hint.2.toList).length < 256 ^ 8 := by
  intro left right leftRest rightRest leftFits rightFits same
  simp only [hashRoute, List.append_assoc] at same
  rcases readsOff_bytes32 _ _ _ _ trivial trivial same with ⟨peers, afterPeer⟩
  simp only [← List.append_assoc (bigEndian 8 _)] at afterPeer
  rcases readsOff_sized 8 _ _ _ _ leftFits rightFits afterPeer with ⟨tickets, rests⟩
  exact ⟨Prod.ext peers (utf8Bytes_toList_inj tickets), rests⟩

theorem peerSet_eq_of_toList_eq {left right : PeerSet} (same : left.toList = right.toList) :
    left = right := by
  apply Std.ExtTreeSet.ext_mem
  intro peer
  rw [← Std.ExtTreeSet.mem_toList, ← Std.ExtTreeSet.mem_toList, same]

theorem hashPeers_append_inj {label : String} {left right : PeerSet}
    {leftRest rightRest : List UInt8} (leftFits : left.toList.length < 256 ^ 8)
    (rightFits : right.toList.length < 256 ^ 8)
    (same : hashPeers label left ++ leftRest = hashPeers label right ++ rightRest) :
    left = right ∧ leftRest = rightRest := by
  simp only [hashPeers, List.append_assoc (utf8Bytes _)] at same
  have afterLabel := List.append_cancel_left same
  rcases readsOff_bytes32.counted 8 _ _ _ _ ⟨leftFits, by simp⟩ ⟨rightFits, by simp⟩ afterLabel
    with ⟨peers, rests⟩
  exact ⟨peerSet_eq_of_toList_eq peers, rests⟩

theorem revisionBytes_inj {left right : KnotSpaceAuthoritySnapshot} (leftFits : left.Addressable)
    (rightFits : right.Addressable) (same : left.revisionBytes = right.revisionBytes) :
    left = right := by
  have stream := List.append_cancel_left same
  rcases List.append_inj stream rfl with ⟨sources, afterSource⟩
  rcases hashPeers_append_inj leftFits.writers rightFits.writers afterSource with
    ⟨writers, afterWriters⟩
  rcases hashPeers_append_inj leftFits.evidenceReaders rightFits.evidenceReaders afterWriters with
    ⟨readers, afterReaders⟩
  rcases hashPeers_append_inj leftFits.evidenceSources rightFits.evidenceSources afterReaders with
    ⟨evidenceSources, afterSources⟩
  have afterLabel := List.append_cancel_left afterSources
  rw [← List.append_nil (bigEndian 8 left.routeHints.toList.length ++ _),
    ← List.append_nil (bigEndian 8 right.routeHints.toList.length ++ _)] at afterLabel
  rcases readsOff_hashRoute.counted 8 _ _ _ _ ⟨leftFits.routeHints, leftFits.tickets⟩
    ⟨rightFits.routeHints, rightFits.tickets⟩ afterLabel with ⟨hints, -⟩
  have source : left.source = right.source := by
    cases leftSource : left.source <;> cases rightSource : right.source <;>
      simp_all [sourceByte]
  have routes : left.routeHints = right.routeHints := Std.ExtTreeMap.toList_inj.mp hints
  cases left
  cases right
  simp_all

end KnotSpaceAuthoritySnapshot

end KnotEditor
