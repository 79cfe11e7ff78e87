import KnotEditor.Library.Fallible
import KnotEditor.Sync.SpaceAuthority

/-! Passages of retained clip artifacts: a scalar range, and the quotes that are to agree with it.
Text is matched character by character, which for UTF-8 is the same as byte by byte. -/

namespace KnotEditor

open Fallible

section Model

variable {Role : Type} [DecidableEq Role]

structure ClipHost where
  blake3 : List UInt8 → Bytes32
  Portable : Type
  portableId : Portable → String
  transport : Portable → Bytes32
  transportText : Portable → String
  byteSize : Portable → Nat
  verifyBytes : Portable → List UInt8 → Except String Unit

/-- `other` is a selector that no text range is read from. -/
inductive KnotClipSelectorV1 (Role : Type)
  | textPosition (artifactRole : Role) (start finish : UInt64)
  | textQuote (artifactRole : Role) (exact_ : String) (before after : Option String)
  | other
  deriving DecidableEq

variable {host : ClipHost}

structure KnotClipEvidenceRef (host : ClipHost) (Role : Type) where
  contentUri : String
  digest : String
  byteSize : Nat
  role : Role
  portable : Option host.Portable

structure KnotClipCitation (host : ClipHost) (Role : Type) where
  selectors : List (KnotClipSelectorV1 Role)
  evidence : List (KnotClipEvidenceRef host Role)

def parseDigest (value : String) : Except String Bytes32 :=
  if value.utf8ByteSize ≠ 64 ∨ !value.toList.all fun character =>
      ('0' ≤ character && character ≤ '9') || ('a' ≤ character && character ≤ 'f') then
    .error "clip evidence digest must be 64 lowercase hexadecimal characters"
  else match hexPairs value.toList with
    | some bytes =>
      if size : bytes.length = 32 then .ok ⟨bytes, size⟩
      else .error "clip evidence digest is not hexadecimal"
    | none => .error "clip evidence digest is not hexadecimal"

namespace KnotClipEvidenceRef

variable (reference : KnotClipEvidenceRef host Role)

def blake3Address : Except String Bytes32 :=
  match reference.portable with
  | some content =>
    if reference.contentUri ≠ host.portableId content ∨
        reference.digest ≠ host.transportText content ∨
        reference.byteSize ≠ host.byteSize content then
      .error "clip evidence portable and normalized fields disagree"
    else .ok (host.transport content)
  | none =>
    match reference.contentUri.toList.dropPrefix? "urn:blake3:".toList with
    | none => .error "legacy clip evidence URI is not a urn:blake3 reference"
    | some named =>
      if String.ofList named ≠ reference.digest then
        .error "legacy clip evidence URI and digest disagree"
      else parseDigest reference.digest

def verifyBytes (bytes : List UInt8) : Except String Unit := do
  if bytes.length ≠ reference.byteSize then
    .error "clip evidence byte length does not match its reference"
  let address ← reference.blake3Address
  if host.blake3 bytes ≠ address then
    .error "clip evidence bytes do not match their BLAKE3 reference"
  reference.portable.forM fun content => host.verifyBytes content bytes

end KnotClipEvidenceRef

/-- `str::match_indices` for a text that is not empty: what stands around each occurrence, from left
to right, none overlapping the one before it. -/
def matchIndicesFrom (exact_ : List Char) :
    List Char → List Char → Nat → List (List Char × List Char)
  | _, [], _ => []
  | before, character :: rest, 0 =>
    if exact_.isPrefixOf (character :: rest) then
      (before, (character :: rest).drop exact_.length) ::
        matchIndicesFrom exact_ (before ++ [character]) rest (exact_.length - 1)
    else matchIndicesFrom exact_ (before ++ [character]) rest 0
  | before, character :: rest, skipped + 1 =>
    matchIndicesFrom exact_ (before ++ [character]) rest skipped

def matchIndices (text exact_ : List Char) : List (List Char × List Char) :=
  matchIndicesFrom exact_ [] text 0

def contextFits (before after : Option String) (around : List Char × List Char) : Bool :=
  (before.all fun context => context.toList.isSuffixOf around.1) &&
    after.all fun context => context.toList.isPrefixOf around.2

def selectPosition (text : List Char) (start finish : UInt64) : Except String String :=
  match usizeTryFrom start, usizeTryFrom finish with
  | some start, some finish =>
    if finish ≤ start ∨ text.length < finish then
      .error "Text position is not a nonempty Unicode scalar range in this artifact."
    else .ok (String.ofList ((text.drop start).take (finish - start)))
  | _, _ => .error "Text position is out of range."

def selectQuote (text : List Char) (exact_ : String) (before after : Option String) :
    Except String String :=
  if exact_.isEmpty then .error "A text quote must be nonempty."
  else if (matchIndices text exact_.toList).any (contextFits before after) then .ok exact_
  else .error "The exact quote or its context is absent from the retained artifact."

def selectedText (selector : KnotClipSelectorV1 Role) (role : Role) (bytes : List UInt8) :
    Except String String :=
  match fromUtf8 bytes with
  | none => .error "A text selector requires a UTF-8 artifact."
  | some text =>
    let unsupported :=
      .error "The selector does not name a supported text range in this artifact role."
    match selector with
    | .textPosition artifactRole start finish =>
      if artifactRole = role then selectPosition text.toList start finish else unsupported
    | .textQuote artifactRole exact_ before after =>
      if artifactRole = role then selectQuote text.toList exact_ before after else unsupported
    | .other => unsupported

def KnotClipEvidenceRef.selectedText (reference : KnotClipEvidenceRef host Role)
    (bytes : List UInt8) (selector : KnotClipSelectorV1 Role) : Except String String := do
  reference.verifyBytes bytes
  KnotEditor.selectedText selector reference.role bytes

def KnotClipSelectorV1.isPosition (role : Role) : KnotClipSelectorV1 Role → Bool
  | .textPosition artifactRole _ _ => artifactRole = role
  | _ => false

def KnotClipSelectorV1.isQuote (role : Role) : KnotClipSelectorV1 Role → Bool
  | .textQuote artifactRole _ _ _ => artifactRole = role
  | _ => false

def checkQuote (reference : KnotClipEvidenceRef host Role) (bytes : List UInt8) (text : String)
    (quote : KnotClipSelectorV1 Role) : Except String Unit := do
  let quoted ← reference.selectedText bytes quote
  if quoted ≠ text then
    .error "The citation quote disagrees with its exact scalar range."
  else .ok ()

def KnotClipCitation.readPassage (citation : KnotClipCitation host Role) (artifact : Nat)
    (bytes : List UInt8) : Except String String :=
  match citation.evidence[artifact]? with
  | none => .error "The citation has no such artifact."
  | some reference =>
    match citation.selectors.filter (·.isPosition reference.role) with
    | [position] => do
        let text ← reference.selectedText bytes position
        (citation.selectors.filter (·.isQuote reference.role)).forM
          (checkQuote reference bytes text)
        return text
    | _ => .error "The citation needs one exact text position for this artifact."

end Model

section Anchoring

variable {Role : Type} [DecidableEq Role] {host : ClipHost}

def selectedChars (text : List Char) (start finish : UInt64) : List Char :=
  (text.drop start.toNat).take (finish.toNat - start.toNat)

def QuotedAt (text : List Char) (start finish : UInt64) : KnotClipSelectorV1 Role → Prop
  | .textQuote _ exact_ before after =>
    exact_.toList = selectedChars text start finish ∧
      contextFits before after (text.take start.toNat, text.drop finish.toNat)
  | _ => True

/-- A quote has the selected text, and its context stands around one of its occurrences. -/
def QuotedSomewhere (text : List Char) (start finish : UInt64) : KnotClipSelectorV1 Role → Prop
  | .textQuote _ exact_ before after =>
    exact_.toList = selectedChars text start finish ∧
      (matchIndices text exact_.toList).any (contextFits before after)
  | _ => True

variable (citation : KnotClipCitation host Role) (artifact : Nat) (bytes : List UInt8)

/-- The passage is the range of the artifact that the citation names, and every quote of the
artifact's role is at that range. -/
def Anchored (passage : String) : Prop :=
  ∃ reference text start finish, citation.evidence[artifact]? = some reference ∧
    fromUtf8 bytes = some text ∧
    .textPosition reference.role start finish ∈ citation.selectors ∧
    start.toNat < finish.toNat ∧ finish.toNat ≤ text.toList.length ∧
    passage.toList = selectedChars text.toList start finish ∧
    ∀ quote ∈ citation.selectors, quote.isQuote reference.role →
      QuotedAt text.toList start finish quote

/-- The citation names one range of the artifact, and each of its quotes has that text and stands in
its context somewhere. -/
structure Quotable (reference : KnotClipEvidenceRef host Role) (text : String)
    (start finish : UInt64) : Prop where
  evidence : citation.evidence[artifact]? = some reference
  verified : reference.verifyBytes bytes = .ok ()
  decoded : fromUtf8 bytes = some text
  position : citation.selectors.filter (·.isPosition reference.role) =
    [.textPosition reference.role start finish]
  nonempty : start.toNat < finish.toNat
  within : finish.toNat ≤ text.toList.length
  quotes : ∀ quote ∈ citation.selectors, quote.isQuote reference.role →
    QuotedSomewhere text.toList start finish quote

/-- No quote of a citation that names one range stands in its context only elsewhere. -/
def NoStrayContext : Prop :=
  ∀ reference text start finish, Quotable citation artifact bytes reference text start finish →
    ∀ quote ∈ citation.selectors, quote.isQuote reference.role →
      QuotedAt text.toList start finish quote

variable {citation artifact bytes} {reference : KnotClipEvidenceRef host Role}

theorem selectPosition_eq_ok_iff {text : List Char} {start finish : UInt64} {passage : String} :
    selectPosition text start finish = .ok passage ↔
      start.toNat < finish.toNat ∧ finish.toNat ≤ text.length ∧
        passage = String.ofList (selectedChars text start finish) := by
  rw [selectPosition, usizeTryFrom_eq, usizeTryFrom_eq]
  simp only
  split
  next refused =>
    simp only [reduceCtorEq, false_iff]
    rintro ⟨nonempty, within, -⟩
    omega
  next accepted =>
    rw [not_or, Nat.not_le, Nat.not_lt] at accepted
    rw [Except.ok.injEq, selectedChars, eq_comm]
    exact ⟨fun same => ⟨accepted.1, accepted.2, same⟩, fun all => all.2.2⟩

theorem selectQuote_eq_ok_iff {text : List Char} {exact_ passage : String}
    {before after : Option String} :
    selectQuote text exact_ before after = .ok passage ↔
      exact_ ≠ "" ∧ (matchIndices text exact_.toList).any (contextFits before after) ∧
        exact_ = passage := by
  unfold selectQuote
  split
  next empty =>
    rw [String.isEmpty_iff] at empty
    simp [empty]
  next nonempty =>
    rw [String.isEmpty_iff] at nonempty
    split
    next found => simp [nonempty, found]
    next absent => simp [absent]

theorem selectedText_position {start finish : UInt64} {passage : String} :
    reference.selectedText bytes (.textPosition reference.role start finish) = .ok passage ↔
      reference.verifyBytes bytes = .ok () ∧ ∃ text, fromUtf8 bytes = some text ∧
        selectPosition text.toList start finish = .ok passage := by
  rw [KnotClipEvidenceRef.selectedText, then_eq_ok_iff, KnotEditor.selectedText]
  refine and_congr_right fun _ => ?_
  cases decoded : fromUtf8 bytes with
  | none => simp
  | some text => simp

theorem selectedText_quote {exact_ passage : String} {before after : Option String} :
    reference.selectedText bytes (.textQuote reference.role exact_ before after) = .ok passage ↔
      reference.verifyBytes bytes = .ok () ∧ ∃ text, fromUtf8 bytes = some text ∧
        selectQuote text.toList exact_ before after = .ok passage := by
  rw [KnotClipEvidenceRef.selectedText, then_eq_ok_iff, KnotEditor.selectedText]
  refine and_congr_right fun _ => ?_
  cases decoded : fromUtf8 bytes with
  | none => simp
  | some text => simp

theorem checkQuote_eq_ok_iff {text passage : String} {quote : KnotClipSelectorV1 Role}
    (verified : reference.verifyBytes bytes = .ok ()) (decoded : fromUtf8 bytes = some text)
    (isQuote : quote.isQuote reference.role) {start finish : UInt64}
    (selected : passage.toList = selectedChars text.toList start finish) (nonempty : passage ≠ "") :
    checkQuote reference bytes passage quote = .ok () ↔
      QuotedSomewhere text.toList start finish quote := by
  cases quote with
  | textPosition role start finish => cases isQuote
  | other => cases isQuote
  | textQuote role exact_ before after =>
    have same : role = reference.role := of_decide_eq_true isQuote
    subst same
    rw [checkQuote, bind_eq_ok_iff, QuotedSomewhere, ← selected]
    constructor
    · rintro ⟨quoted, read, agrees⟩
      obtain ⟨-, source, there, cut⟩ := selectedText_quote.mp read
      cases decoded.symm.trans there
      obtain ⟨-, found, rfl⟩ := selectQuote_eq_ok_iff.mp cut
      split at agrees
      · cases agrees
      next equal =>
        rw [Decidable.not_not] at equal
        exact ⟨by rw [equal], found⟩
    · rintro ⟨equal, found⟩
      have whole : exact_ = passage := String.toList_inj.mp equal
      subst whole
      exact ⟨exact_, selectedText_quote.mpr ⟨verified, text, decoded,
        selectQuote_eq_ok_iff.mpr ⟨nonempty, found, rfl⟩⟩, if_neg (not_not_intro rfl)⟩

theorem selectedChars_ne_nil {text : List Char} {start finish : UInt64}
    (nonempty : start.toNat < finish.toNat) (within : finish.toNat ≤ text.length) :
    selectedChars text start finish ≠ [] := by
  intro none_
  have length := congrArg List.length none_
  rw [selectedChars, List.length_take, List.length_drop, List.length_nil] at length
  omega

theorem passage_ne_empty {text : List Char} {start finish : UInt64}
    (nonempty : start.toNat < finish.toNat) (within : finish.toNat ≤ text.length) :
    String.ofList (selectedChars text start finish) ≠ "" := by
  intro empty
  have none_ := congrArg String.toList empty
  rw [String.toList_ofList] at none_
  exact selectedChars_ne_nil nonempty within none_

theorem exists_of_isPosition {role : Role} {selector : KnotClipSelectorV1 Role}
    (isPosition : selector.isPosition role) :
    ∃ start finish, selector = .textPosition role start finish := by
  cases selector with
  | textPosition artifactRole start finish =>
    have same : artifactRole = role := of_decide_eq_true isPosition
    exact ⟨start, finish, by rw [same]⟩
  | textQuote artifactRole exact_ before after => cases isPosition
  | other => cases isPosition

theorem readPassage_eq_ok_iff {passage : String} :
    citation.readPassage artifact bytes = .ok passage ↔
      ∃ reference text start finish, Quotable citation artifact bytes reference text start finish ∧
        passage = String.ofList (selectedChars text.toList start finish) := by
  unfold KnotClipCitation.readPassage
  constructor
  · intro read
    split at read
    · cases read
    next reference evidence =>
      split at read
      next position positions =>
        obtain ⟨text, selected, rest⟩ := bind_eq_ok_iff.mp read
        obtain ⟨quotes, done⟩ := then_eq_ok_iff.mp rest
        cases done
        have member : position ∈ citation.selectors.filter (·.isPosition reference.role) :=
          positions ▸ List.mem_singleton_self position
        obtain ⟨start, finish, rfl⟩ := exists_of_isPosition (List.mem_filter.mp member).2
        obtain ⟨verified, source, decoded, cut⟩ := selectedText_position.mp selected
        obtain ⟨nonempty, within, rfl⟩ := selectPosition_eq_ok_iff.mp cut
        refine ⟨reference, source, start, finish,
          ⟨evidence, verified, decoded, positions, nonempty, within, ?_⟩, rfl⟩
        intro quote there isQuote
        have checked := forM_eq_ok_iff.mp quotes quote (List.mem_filter.mpr ⟨there, isQuote⟩)
        exact (checkQuote_eq_ok_iff verified decoded isQuote String.toList_ofList
          (passage_ne_empty nonempty within)).mp checked
      · cases read
  · rintro ⟨reference, text, start, finish, quotable, rfl⟩
    have cut := selectedText_position.mpr ⟨quotable.verified, text, quotable.decoded,
      selectPosition_eq_ok_iff.mpr ⟨quotable.nonempty, quotable.within, rfl⟩⟩
    rw [quotable.evidence]
    simp only
    rw [quotable.position]
    simp only
    refine bind_eq_ok_iff.mpr ⟨_, cut, then_eq_ok_iff.mpr ⟨forM_eq_ok_iff.mpr ?_, rfl⟩⟩
    intro quote member
    obtain ⟨there, isQuote⟩ := List.mem_filter.mp member
    exact (checkQuote_eq_ok_iff quotable.verified quotable.decoded isQuote String.toList_ofList
      (passage_ne_empty quotable.nonempty quotable.within)).mpr (quotable.quotes quote there isQuote)

/-- Every passage that is read is anchored, if and only if no quote that is accepted stands in its
context only elsewhere. -/
theorem passages_anchored_iff (citation : KnotClipCitation host Role) (artifact : Nat)
    (bytes : List UInt8) :
    (∀ passage, citation.readPassage artifact bytes = .ok passage →
      Anchored citation artifact bytes passage) ↔ NoStrayContext citation artifact bytes := by
  constructor
  · intro anchored reference text start finish quotable
    obtain ⟨reference', text', start', finish', evidence, decoded, member, -, -, -, quotes⟩ :=
      anchored _ (readPassage_eq_ok_iff.mpr ⟨reference, text, start, finish, quotable, rfl⟩)
    cases evidence.symm.trans quotable.evidence
    cases decoded.symm.trans quotable.decoded
    have only : KnotClipSelectorV1.textPosition reference.role start' finish' ∈
        citation.selectors.filter (·.isPosition reference.role) :=
      List.mem_filter.mpr ⟨member, decide_eq_true rfl⟩
    rw [quotable.position, List.mem_singleton] at only
    cases only
    exact quotes
  · intro stray passage read
    obtain ⟨reference, text, start, finish, quotable, rfl⟩ := readPassage_eq_ok_iff.mp read
    have member : KnotClipSelectorV1.textPosition reference.role start finish ∈
        citation.selectors.filter (·.isPosition reference.role) := by
      rw [quotable.position]
      exact List.mem_singleton_self _
    exact ⟨reference, text, start, finish, quotable.evidence, quotable.decoded,
      (List.mem_filter.mp member).1, quotable.nonempty, quotable.within, String.toList_ofList,
      stray reference text start finish quotable⟩

def ebbTideHost : ClipHost where
  blake3 _ := ⟨[0xc2, 0xe8, 0x09, 0x49, 0xb5, 0x21, 0x71, 0x41, 0x58, 0xa1, 0x22, 0xe4, 0x37, 0x13,
    0x55, 0x17, 0xf5, 0x68, 0x29, 0x7a, 0xe1, 0xa2, 0x93, 0x0e, 0xb5, 0xef, 0x8a, 0x38, 0xd5, 0x9e,
    0x20, 0xd3], rfl⟩
  Portable := Empty
  portableId := Empty.elim
  transport := Empty.elim
  transportText := Empty.elim
  byteSize := Empty.elim
  verifyBytes content := content.elim

def lowTide : KnotClipCitation ebbTideHost Unit where
  selectors := [.textPosition () 4 8, .textQuote () "tide" (some "low ") none]
  evidence :=
    [{ contentUri :=
        "urn:blake3:c2e80949b521714158a122e437135517f568297ae1a2930eb5ef8a38d59e20d3"
       digest := "c2e80949b521714158a122e437135517f568297ae1a2930eb5ef8a38d59e20d3"
       byteSize := 18
       role := ()
       portable := none }]

theorem stray_context_is_read :
    lowTide.readPassage 0 (utf8Bytes "ebb tide, low tide".toList) = .ok "tide" ∧
      ¬ Anchored lowTide 0 (utf8Bytes "ebb tide, low tide".toList) "tide" := by
  refine ⟨by decide +kernel, ?_⟩
  rintro ⟨reference, text, start, finish, evidence, decoded, member, -, -, -, quotes⟩
  cases evidence
  rw [fromUtf8_utf8Bytes] at decoded
  cases decoded
  have range : start = 4 ∧ finish = 8 := by simpa [lowTide] using member
  obtain ⟨rfl, rfl⟩ := range
  have quoted := (quotes (.textQuote () "tide" (some "low ") none) (by decide) rfl).2
  revert quoted
  decide +kernel

end Anchoring

end KnotEditor
