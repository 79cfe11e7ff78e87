import KnotEditor.SourceRanges
import KnotEditor.Sync.RelationFold
import Mathlib.Algebra.GroupWithZero.Nat
import Mathlib.Data.List.Infix

/-! Relation endpoints captured from a source: what the capture takes, and when both validations of
the endpoint accept it. -/

namespace KnotEditor

open Fallible

def knotRelationContextChars : Nat := 32

def contextBefore (source : String) (start : Nat) : String :=
  match splitAtByte source.toList start with
  | some (before, _) => String.ofList (before.drop (before.length - knotRelationContextChars))
  | none => ""

def contextAfter (source : String) (finish : Nat) : String :=
  match splitAtByte source.toList finish with
  | some (_, after) => String.ofList (after.take knotRelationContextChars)
  | none => ""

def captureEndpointContext (source : String) (start finish : Nat) : String × String :=
  (contextBefore source start, contextAfter source finish)

def capturedEndpoint (documentId : String) (documentHead : Bytes32) (source quote : String)
    (start finish : UInt64) : KnotRelationEndpointV1 where
  documentId
  documentHead
  quote
  position := some ⟨start, finish⟩
  prefixText := (captureEndpointContext source start.toNat finish.toNat).1
  suffixText := (captureEndpointContext source start.toNat finish.toNat).2

structure ValidDocumentId (documentId : String) : Prop where
  named : documentId.isEmpty = false
  trimmed : trim documentId = documentId
  nulFree : containsNul documentId = false

def Recognized (predicate : KnotPredicateRefV1) : Prop :=
  ∀ label, predicate ≠ .unrecognized label

/-- The endpoint passes the checks of a payload, on either side of a relation, and the check
against the document it was captured from. -/
structure CaptureVerifies (endpoint : KnotRelationEndpointV1) (document : VaultDocument) :
    Prop where
  accepted : ∀ role, validateEndpoint endpoint role = .ok ()
  payload : ∀ predicate other, Recognized predicate →
    (∀ role, validateEndpoint other role = .ok ()) →
      validateRelationPayload predicate endpoint other = .ok () ∧
        validateRelationPayload predicate other endpoint = .ok ()
  capture : ∀ role, validateEndpointCapture endpoint document role = .ok ()

def NulFreeAround (range : SourceRange) : Prop :=
  ∀ distance < knotRelationContextChars,
    range.before.reverse[distance]? ≠ some (Char.ofNat 0) ∧
      range.after[distance]? ≠ some (Char.ofNat 0)

section

variable {source : String} {range : SourceRange} {start finish : Nat}
variable {endpoint : KnotRelationEndpointV1} {document : VaultDocument} {role : String}

theorem sourceRange_splits (cut : sourceRange source start finish = some range) :
    splitAtByte source.toList start = some (range.before, range.inside ++ range.after) ∧
      splitAtByte source.toList finish = some (range.before ++ range.inside, range.after) := by
  obtain ⟨ordered, rest, first, second⟩ := sourceRange_eq_some_iff.mp cut
  obtain ⟨whole, size⟩ := splitAtByte_spec first
  obtain ⟨tail, length⟩ := splitAtByte_spec second
  rw [← tail] at first
  refine ⟨first, ?_⟩
  have bytes : (utf8Bytes (range.before ++ range.inside)).length = finish := by
    rw [utf8Bytes_append, List.length_append, size, length]
    omega
  have split := splitAtByte_append (range.before ++ range.inside) range.after
  rwa [bytes, List.append_assoc, tail, whole] at split

theorem captureEndpointContext_eq (cut : sourceRange source start finish = some range) :
    captureEndpointContext source start finish =
      (String.ofList (range.before.drop (range.before.length - knotRelationContextChars)),
        String.ofList (range.after.take knotRelationContextChars)) := by
  have splits := sourceRange_splits cut
  rw [captureEndpointContext, contextBefore, contextAfter, splits.1, splits.2]

/-- A quote with a position is accepted when the source has the quote there, with the kept context
on either side. -/
theorem validateEndpointCapture_ok_iff {position : KnotRelationPositionV1}
    (positioned : endpoint.position = some position)
    (body : String.fromUTF8? document.body = some source) :
    validateEndpointCapture endpoint document role = .ok () ↔
      ∃ range, sourceRange source position.start.toNat position.finish.toNat = some range ∧
        range.inside = endpoint.quote.toList ∧ endpoint.prefixText.toList <:+ range.before ∧
          endpoint.suffixText.toList <+: range.after := by
  rw [validateEndpointCapture, positioned, body]
  simp only [usizeTryFrom_eq]
  cases cut : sourceRange source position.start.toNat position.finish.toNat with
  | none => simp
  | some range =>
    have quoted : String.ofList range.inside = endpoint.quote ↔
        range.inside = endpoint.quote.toList := by
      rw [← String.toList_inj, String.toList_ofList]
    have not_beside : ∀ {text : String} {beside : Prop} {found : Bool}, ¬ beside →
        (text.toList = [] → beside) → (found = true → beside) →
          (!text.isEmpty && !found) = true := by
      intro text beside found absent empty present
      rw [Bool.and_eq_true, Bool.not_eq_true', Bool.not_eq_true', Bool.eq_false_iff,
        Bool.eq_false_iff, ne_eq, ne_eq, String.isEmpty_iff, ← String.toList_eq_nil_iff]
      exact ⟨fun none_ => absent (empty none_), fun seen => absent (present seen)⟩
    simp only [bne_iff_ne, ne_eq, quoted, Option.some.injEq, exists_eq_left']
    by_cases same : range.inside = endpoint.quote.toList
    · rw [if_neg (by simpa using same)]
      by_cases before : endpoint.prefixText.toList <:+ range.before
      · rw [if_neg (by simp [List.isSuffixOf_iff_suffix.mpr before])]
        by_cases after : endpoint.suffixText.toList <+: range.after
        · rw [if_neg (by simp [List.isPrefixOf_iff_prefix.mpr after])]
          simp [same, before, after]
        · rw [if_pos (not_beside after (fun none_ => by simp [none_])
            (fun found => List.isPrefixOf_iff_prefix.mp found))]
          simp [after]
      · rw [if_pos (not_beside before (fun none_ => by simp [none_])
          (fun found => List.isSuffixOf_iff_suffix.mp found))]
        simp [before]
    · simp [same]

theorem validateContext_ok_iff {field value : String} :
    validateContext role field value = .ok () ↔
      containsNul value = false ∧ value.utf8ByteSize ≤ knotRelationContextBytes := by
  rw [validateContext]
  split
  · case isTrue refused => grind
  · case isFalse kept => grind

theorem validateEndpoint_ok_iff {position : KnotRelationPositionV1}
    (positioned : endpoint.position = some position) (quoted : endpoint.quote.isEmpty = false)
    (ordered : position.start ≤ position.finish) :
    validateEndpoint endpoint role = .ok () ↔ ValidDocumentId endpoint.documentId ∧
      validateContext role "prefix" endpoint.prefixText = .ok () ∧
        validateContext role "suffix" endpoint.suffixText = .ok () := by
  rw [validateEndpoint, refuse_eq_ok_iff, then_eq_ok_iff, then_eq_ok_iff, positioned, quoted]
  simp only [if_neg (UInt64.not_lt.mpr ordered), Bool.false_eq_true, if_false]
  have ids : ¬ (endpoint.documentId.isEmpty || trim endpoint.documentId != endpoint.documentId ||
      containsNul endpoint.documentId) = true ↔ ValidDocumentId endpoint.documentId := by
    simp only [Bool.or_eq_true, bne_iff_ne, not_or, Bool.not_eq_true, ne_eq, Decidable.not_not]
    exact ⟨fun valid => ⟨valid.1.1, valid.1.2, valid.2⟩,
      fun valid => ⟨⟨valid.named, valid.trimmed⟩, valid.nulFree⟩⟩
  rw [ids]
  simp [pure, Except.pure]

theorem utf8Bytes_length_le (text : List Char) : (utf8Bytes text).length ≤ 4 * text.length := by
  induction text with
  | nil => simp
  | cons character rest ih =>
    have small := character.utf8Size_le_four
    rw [utf8Bytes_cons, List.length_append, String.length_utf8EncodeChar, List.length_cons]
    omega

theorem context_fits {text : List Char} (short : text.length ≤ knotRelationContextChars) :
    (String.ofList text).utf8ByteSize ≤ knotRelationContextBytes := by
  have bytes := utf8Bytes_length_le text
  have size := length_utf8Bytes (String.ofList text)
  rw [String.toList_ofList] at size
  rw [knotRelationContextChars] at short
  rw [knotRelationContextBytes, ← size]
  omega

theorem containsNul_ofList (text : List Char) :
    containsNul (String.ofList text) = false ↔ Char.ofNat 0 ∉ text := by
  simp [containsNul]

theorem nulFreeAround_iff (range : SourceRange) :
    NulFreeAround range ↔
      Char.ofNat 0 ∉ range.before.drop (range.before.length - knotRelationContextChars) ∧
        Char.ofNat 0 ∉ range.after.take knotRelationContextChars := by
  have within : ∀ text : List Char, Char.ofNat 0 ∉ text.take knotRelationContextChars ↔
      ∀ distance < knotRelationContextChars, text[distance]? ≠ some (Char.ofNat 0) := by
    intro text
    rw [List.mem_take_iff_getElem]
    constructor
    · intro absent distance near found
      obtain ⟨bound, same⟩ := List.getElem?_eq_some_iff.mp found
      exact absent ⟨distance, by omega, same⟩
    · rintro clear ⟨distance, near, same⟩
      apply clear distance (by omega)
      rw [List.getElem?_eq_getElem (by omega), same]
  rw [within, ← List.mem_reverse, ← List.take_reverse, within]
  exact ⟨fun clear => ⟨fun distance near => (clear distance near).1,
    fun distance near => (clear distance near).2⟩,
    fun clear distance near => ⟨clear.1 distance near, clear.2 distance near⟩⟩

end

section Captured

variable {source : String} {range : SourceRange} {start finish : UInt64}
variable {documentId : String} {documentHead : Bytes32} {document : VaultDocument}

theorem inside_ne_nil (cut : sourceRange source start.toNat finish.toNat = some range)
    (nonempty : start < finish) : range.inside ≠ [] := by
  intro empty
  obtain ⟨ordered, rest, first, second⟩ := sourceRange_eq_some_iff.mp cut
  have size := (splitAtByte_spec second).2
  rw [empty] at size
  have less := UInt64.lt_iff_toNat_lt.mp nonempty
  simp at size
  omega

theorem validateEndpoint_captured_iff
    (cut : sourceRange source start.toNat finish.toNat = some range) (nonempty : start < finish)
    (valid : ValidDocumentId documentId) (role : String) :
    validateEndpoint (capturedEndpoint documentId documentHead source
      (String.ofList range.inside) start finish) role = .ok () ↔ NulFreeAround range := by
  have quoted : (String.ofList range.inside).isEmpty = false := by
    rw [Bool.eq_false_iff, ne_eq, String.isEmpty_iff, ← String.toList_eq_nil_iff,
      String.toList_ofList]
    exact inside_ne_nil cut nonempty
  have ordered : start ≤ finish := UInt64.le_of_lt nonempty
  rw [validateEndpoint_ok_iff rfl quoted ordered, nulFreeAround_iff]
  simp only [capturedEndpoint, captureEndpointContext_eq cut, validateContext_ok_iff,
    containsNul_ofList]
  have before : (range.before.drop (range.before.length - knotRelationContextChars)).length ≤
      knotRelationContextChars := by
    rw [List.length_drop]
    omega
  have after : (range.after.take knotRelationContextChars).length ≤ knotRelationContextChars :=
    List.length_take_le _ _
  simp only [valid, true_and, context_fits before, context_fits after, and_true]

theorem validateEndpointCapture_captured
    (cut : sourceRange source start.toNat finish.toNat = some range)
    (body : String.fromUTF8? document.body = some source) (role : String) :
    validateEndpointCapture (capturedEndpoint documentId documentHead source
      (String.ofList range.inside) start finish) document role = .ok () := by
  rw [validateEndpointCapture_ok_iff rfl body]
  refine ⟨range, cut, ?_⟩
  simp only [capturedEndpoint, captureEndpointContext_eq cut, String.toList_ofList, true_and]
  exact ⟨List.drop_suffix _ _, List.take_prefix _ _⟩

theorem validateRelationPayload_ok {predicate : KnotPredicateRefV1}
    {subject object : KnotRelationEndpointV1} (recognized : Recognized predicate)
    (first : ∀ role, validateEndpoint subject role = .ok ())
    (second : ∀ role, validateEndpoint object role = .ok ()) :
    validateRelationPayload predicate subject object = .ok () := by
  cases predicate with
  | unrecognized label => exact absurd rfl (recognized label)
  | core core => simp [validateRelationPayload, first, second, bind, Except.bind]
  | defined id => simp [validateRelationPayload, first, second, bind, Except.bind]

/-- The capture counts characters and the validation bounds bytes; they disagree over NUL only. -/
theorem captured_endpoint_verifies_iff
    (cut : sourceRange source start.toNat finish.toNat = some range) (nonempty : start < finish)
    (valid : ValidDocumentId documentId) (documentHead : Bytes32)
    (body : String.fromUTF8? document.body = some source) :
    CaptureVerifies (capturedEndpoint documentId documentHead source
      (String.ofList range.inside) start finish) document ↔ NulFreeAround range := by
  constructor
  · intro verifies
    exact (validateEndpoint_captured_iff cut nonempty valid "subject").mp
      (verifies.accepted "subject")
  · intro clear
    have accepted : ∀ role, validateEndpoint (capturedEndpoint documentId documentHead source
        (String.ofList range.inside) start finish) role = .ok () :=
      fun role => (validateEndpoint_captured_iff cut nonempty valid role).mpr clear
    refine ⟨accepted, ?_, validateEndpointCapture_captured cut body⟩
    intro predicate other recognized otherAccepted
    exact ⟨validateRelationPayload_ok recognized accepted otherAccepted,
      validateRelationPayload_ok recognized otherAccepted accepted⟩

end Captured

def noted (body : String) : VaultDocument := ⟨"essay", "Essay", body.toUTF8, "text/djot"⟩

def tideEndpoint : KnotRelationEndpointV1 :=
  capturedEndpoint "essay" (.filled 0x21) "αβγ tide γβα" "tide" 7 11

theorem captured_endpoint_verifies_tide : CaptureVerifies tideEndpoint (noted "αβγ tide γβα") := by
  have cut : sourceRange "αβγ tide γβα" (7 : UInt64).toNat (11 : UInt64).toNat =
      some ⟨"αβγ ".toList, "tide".toList, " γβα".toList⟩ := by
    decide
  have clear : NulFreeAround ⟨"αβγ ".toList, "tide".toList, " γβα".toList⟩ := by
    unfold NulFreeAround
    decide
  exact (captured_endpoint_verifies_iff cut (by decide) ⟨by decide, by decide, by decide⟩
    (.filled 0x21) (by decide)).mpr clear

def nulEndpoint : KnotRelationEndpointV1 :=
  capturedEndpoint "essay" (.filled 0x21) "\x00tide" "tide" 1 5

/-- A NUL right before the quote is captured as context, and the context is then refused. -/
theorem nul_context_is_refused :
    sourceRange "\x00tide" 1 5 = some ⟨[Char.ofNat 0], "tide".toList, []⟩ ∧
      validateEndpoint nulEndpoint "subject" =
        .error "relation subject prefix must be NUL-free and at most 128 bytes" ∧
      ¬ CaptureVerifies nulEndpoint (noted "\x00tide") := by
  have refused : validateEndpoint nulEndpoint "subject" =
      .error "relation subject prefix must be NUL-free and at most 128 bytes" := by
    decide
  refine ⟨by decide, refused, ?_⟩
  intro verifies
  rw [verifies.accepted "subject"] at refused
  cases refused

end KnotEditor

/-! Relation endpoints as Web Annotation targets: positions in characters instead of bytes. -/

namespace KnotEditor

inductive SpecificResourceSelector
  | textQuote (exact_ prefixText suffixText : String)
  | textPosition (start finish : UInt64)
  deriving DecidableEq

structure SpecificResource where
  resourceType : String
  source : String
  selector : List SpecificResourceSelector
  deriving DecidableEq

def isCharBoundary (text : String) (offset : Nat) : Bool :=
  (splitAtByte text.toList offset).isSome

def charsBefore (text : String) (offset : Nat) : Option (List Char) :=
  (splitAtByte text.toList offset).map Prod.fst

/-- Export one relation endpoint, counting characters against `sourceText`. -/
def SpecificResource.fromRelationEndpoint (source : String) (endpoint : KnotRelationEndpointV1)
    (sourceText : String) : Option SpecificResource := do
  let position ← endpoint.position
  let start ← usizeTryFrom position.start
  let finish ← usizeTryFrom position.finish
  if !isCharBoundary sourceText start || !isCharBoundary sourceText finish then none
  let before ← charsBefore sourceText start
  let through ← charsBefore sourceText finish
  return {
    resourceType := "SpecificResource"
    source
    selector := [
      .textQuote endpoint.quote endpoint.prefixText endpoint.suffixText,
      .textPosition (UInt64.ofNat before.length) (UInt64.ofNat through.length)] }

/-- Characters `start` to `finish` of the text are the quote, and the kept context lies around
them. -/
structure PointsAtQuote (text : String) (endpoint : KnotRelationEndpointV1)
    (start finish : UInt64) : Prop where
  ordered : start ≤ finish
  quoted : (text.toList.drop start.toNat).take (finish.toNat - start.toNat) =
    endpoint.quote.toList
  preceded : endpoint.prefixText.toList <:+ text.toList.take start.toNat
  followed : endpoint.suffixText.toList <+: text.toList.drop finish.toNat

section

variable {sourceText : String} {endpoint : KnotRelationEndpointV1}
variable {position : KnotRelationPositionV1} {range : SourceRange}

theorem fromRelationEndpoint_eq_none (source : String)
    (positioned : endpoint.position = some position)
    (outside : ¬ CharBoundary sourceText position.start.toNat ∨
      ¬ CharBoundary sourceText position.finish.toNat) :
    SpecificResource.fromRelationEndpoint source endpoint sourceText = none := by
  have off : isCharBoundary sourceText position.start.toNat = false ∨
      isCharBoundary sourceText position.finish.toNat = false := by
    simpa only [isCharBoundary, CharBoundary, Bool.not_eq_true] using outside
  rcases off with start | finish
  · simp [SpecificResource.fromRelationEndpoint, positioned, usizeTryFrom_eq, start]
  · simp [SpecificResource.fromRelationEndpoint, positioned, usizeTryFrom_eq, finish]

theorem fromRelationEndpoint_eq_some (source : String)
    (positioned : endpoint.position = some position)
    (cut : sourceRange sourceText position.start.toNat position.finish.toNat = some range) :
    SpecificResource.fromRelationEndpoint source endpoint sourceText = some {
      resourceType := "SpecificResource"
      source
      selector := [
        .textQuote endpoint.quote endpoint.prefixText endpoint.suffixText,
        .textPosition (UInt64.ofNat range.before.length)
          (UInt64.ofNat (range.before ++ range.inside).length)] } := by
  have splits := sourceRange_splits cut
  simp [SpecificResource.fromRelationEndpoint, positioned, usizeTryFrom_eq, isCharBoundary,
    charsBefore, splits.1, splits.2]

theorem pointsAtQuote (cut : sourceRange sourceText position.start.toNat position.finish.toNat =
      some range) (quoted : range.inside = endpoint.quote.toList)
    (preceded : endpoint.prefixText.toList <:+ range.before)
    (followed : endpoint.suffixText.toList <+: range.after) :
    PointsAtQuote sourceText endpoint (UInt64.ofNat range.before.length)
      (UInt64.ofNat (range.before ++ range.inside).length) := by
  obtain ⟨first, second⟩ := sourceRange_splits cut
  obtain ⟨whole, startSize⟩ := splitAtByte_spec first
  obtain ⟨_, finishSize⟩ := splitAtByte_spec second
  -- A count of characters fits 64 bits because the count of their bytes does.
  have startCount := length_le_utf8Bytes range.before
  have finishCount := length_le_utf8Bytes (range.before ++ range.inside)
  have startBound := position.start.toNat_lt
  have finishBound := position.finish.toNat_lt
  have start : (UInt64.ofNat range.before.length).toNat = range.before.length := by
    rw [UInt64.toNat_ofNat', Nat.mod_eq_of_lt (by omega)]
  have finish : (UInt64.ofNat (range.before ++ range.inside).length).toNat =
      (range.before ++ range.inside).length := by
    rw [UInt64.toNat_ofNat', Nat.mod_eq_of_lt (by omega)]
  constructor
  · rw [UInt64.le_iff_toNat_le, start, finish, List.length_append]
    omega
  · rw [start, finish, ← whole, List.length_append, Nat.add_sub_cancel_left, List.drop_left,
      List.take_left, quoted]
  · rw [start, ← whole, List.take_left]
    exact preceded
  · rw [finish, ← whole, ← List.append_assoc, List.drop_left]
    exact followed

/-- The exported position counts characters of the same text that the offsets count bytes of. -/
theorem export_points_at_quote (source sourceText : String) (endpoint : KnotRelationEndpointV1)
    (position : KnotRelationPositionV1) (positioned : endpoint.position = some position) :
    (∀ document role, String.fromUTF8? document.body = some sourceText →
      validateEndpointCapture endpoint document role = .ok () →
        ∃ start finish, SpecificResource.fromRelationEndpoint source endpoint sourceText = some {
            resourceType := "SpecificResource"
            source
            selector := [
              .textQuote endpoint.quote endpoint.prefixText endpoint.suffixText,
              .textPosition start finish] } ∧
          PointsAtQuote sourceText endpoint start finish) ∧
      (¬ CharBoundary sourceText position.start.toNat ∨
          ¬ CharBoundary sourceText position.finish.toNat →
        SpecificResource.fromRelationEndpoint source endpoint sourceText = none) := by
  constructor
  · intro document role body accepted
    obtain ⟨range, cut, quoted, preceded, followed⟩ :=
      (validateEndpointCapture_ok_iff positioned body).mp accepted
    exact ⟨_, _, fromRelationEndpoint_eq_some source positioned cut,
      pointsAtQuote cut quoted preceded followed⟩
  · exact fromRelationEndpoint_eq_none source positioned

end

theorem export_points_at_quote_tide :
    (∃ start finish, SpecificResource.fromRelationEndpoint "urn:knot:doc:essay" tideEndpoint
        "αβγ tide γβα" = some {
          resourceType := "SpecificResource"
          source := "urn:knot:doc:essay"
          selector := [.textQuote "tide" "αβγ " " γβα", .textPosition start finish] } ∧
      PointsAtQuote "αβγ tide γβα" tideEndpoint start finish) ∧
      SpecificResource.fromRelationEndpoint "urn:knot:doc:essay"
        { tideEndpoint with position := some ⟨1, 3⟩ } "αβγ tide γβα" = none :=
  ⟨(export_points_at_quote "urn:knot:doc:essay" "αβγ tide γβα" tideEndpoint ⟨7, 11⟩ rfl).1
      (noted "αβγ tide γβα") "subject" (by decide) (by decide),
    (export_points_at_quote "urn:knot:doc:essay" "αβγ tide γβα"
      { tideEndpoint with position := some ⟨1, 3⟩ } ⟨1, 3⟩ rfl).2 (.inl (by unfold CharBoundary; decide))⟩

end KnotEditor
