import KnotEditor.Mark.History

/-! What a reader can learn about the exports it may not read: nothing but whether one of them
has, at an earlier path, a body the reader asks for by its content hash. -/

namespace KnotEditor.Mark

open KnotEditor.Mark.MarkReadAdapter FirstHolder

variable {host : MarkHost}

def readable (host : MarkHost) (auth : Option String) (adapter : MarkReadAdapter)
    (path : String) : Option MarkDocument :=
  adapter.documents[path]?.filter fun document => document.access.allows host auth

def SameReadable (host : MarkHost) (auth : Option String) (left right : MarkReadAdapter) : Prop :=
  ∀ path, readable host auth left path = readable host auth right path

/-- The two states differ at most in documents that the request's auth value does not open. -/
def SameFor (host : MarkHost) (left right : MarkReadAdapter) (request : ByteArray) : Prop :=
  match decodeMarkRequest request with
  | .ok (.fetch _ auth _ _) => SameReadable host auth left right
  | .ok (.versions _ auth) => SameReadable host auth left right
  | _ => True

def Reached (host : MarkHost) (adapter : MarkReadAdapter) : Prop :=
  ∃ limit actions, adapter =
    List.foldl (MarkReadAdapter.perform host) (MarkReadAdapter.new limit) actions

/-- FETCH of a content hash, or of a numbered version of the document that holds it. -/
def Addresses (request : ByteArray) (auth : Option String) (contentHash : Bytes32)
    (requested : Option Nat) : Prop :=
  ∃ path ifNoneMatch ifModifiedSince base,
    decodeMarkRequest request = .ok (.fetch path auth ifNoneMatch ifModifiedSince) ∧
      resolveMarkPath path = .ok (base, requested) ∧ parseContentHash base = some contentHash

def readableHash (host : MarkHost) (auth : Option String) (document : MarkDocument) :
    Option Bytes32 :=
  if document.access.allows host auth then latestHash document else none

def HiddenBefore (host : MarkHost) (auth : Option String) (adapter : MarkReadAdapter)
    (contentHash : Bytes32) (path : String) : Prop :=
  ∃ other document, adapter.documents[other]? = some document ∧
    document.access.allows host auth = false ∧ latestHash document = some contentHash ∧
    compare other path = .lt

/-- The reader asks by its hash for a body it may read, and exactly one of the states also keeps
that body from the reader at an earlier path. -/
def HiddenCopyDecides (host : MarkHost) (left right : MarkReadAdapter) (request : ByteArray) :
    Prop :=
  ∃ auth contentHash requested path document, Addresses request auth contentHash requested ∧
    IsFirst (readableHash host auth) left.documents contentHash path ∧
    left.documents[path]? = some document ∧
    (selectVersion document requested).isSome = true ∧
    ¬ (HiddenBefore host auth left contentHash path ↔
      HiddenBefore host auth right contentHash path)

variable (adapter : MarkReadAdapter) (left right : MarkReadAdapter) (path : String)

theorem sound_of_reached (reached : Reached host adapter) :
    Sound host adapter := by
  rcases reached with ⟨limit, actions, rfl⟩
  have along : Run.Along (MarkReadAdapter.perform host) (fun _ _ => True)
      (MarkReadAdapter.new limit) actions := Run.along_always (fun _ _ => trivial) actions _
  exact Run.invariant_run (fun state action sound _ => sound_perform state action sound)
    actions _ (sound_new limit) along

theorem fetchDocument_denied (document : MarkDocument) (requested : Option Nat)
    (auth ifNoneMatch : Option String) (ifModifiedSince : Option MarkTimestamp)
    (denied : document.access.allows host auth = false) :
    fetchDocument host document requested auth ifNoneMatch ifModifiedSince = .notFound := by
  rw [fetchDocument, denied]
  rfl

def Unavailable (host : MarkHost) (auth : Option String) (adapter : MarkReadAdapter)
    (path : String) : Prop :=
  ∀ document, adapter.documents[path]? = some document →
    document.access.allows host auth = false

theorem sameReadable_at (auth : Option String) (same : SameReadable host auth left right)
    (path : String) :
    (∃ document, left.documents[path]? = some document ∧
        right.documents[path]? = some document ∧ document.access.allows host auth = true) ∨
      (Unavailable host auth left path ∧ Unavailable host auth right path) := by
  have seen := same path
  cases found : readable host auth left path with
  | some document =>
    rw [found] at seen
    rcases Option.filter_eq_some_iff.mp found with ⟨held, allowed⟩
    exact Or.inl ⟨document, held, (Option.filter_eq_some_iff.mp seen.symm).1, allowed⟩
  | none =>
    rw [found] at seen
    refine Or.inr ⟨?_, ?_⟩
    · intro document held
      simpa using Option.filter_eq_none_iff.mp found document held
    · intro document held
      simpa using Option.filter_eq_none_iff.mp seen.symm document held

theorem versions_unavailable (path base : String) (auth : Option String)
    (resolved : resolveMarkPath path = .ok (base, none))
    (unavailable : Unavailable host auth adapter base) :
    adapter.versions host path auth = .notFound := by
  rw [MarkReadAdapter.versions, resolved]
  simp only
  cases held : adapter.documents[base]? with
  | none => rfl
  | some document =>
    simp only [unavailable document held, Bool.not_false, Bool.true_or, if_true]

theorem versions_same (auth : Option String) (same : SameReadable host auth left right) :
    left.versions host path auth = right.versions host path auth := by
  cases resolved : resolveMarkPath path with
  | error error => rw [MarkReadAdapter.versions, MarkReadAdapter.versions, resolved]
  | ok answer =>
    rcases answer with ⟨base, requested⟩
    cases requested with
    | some version => rw [MarkReadAdapter.versions, MarkReadAdapter.versions, resolved]
    | none =>
      rcases sameReadable_at left right auth same base with
        ⟨document, leftHeld, rightHeld, allowed⟩ | ⟨leftHidden, rightHidden⟩
      · rw [MarkReadAdapter.versions, MarkReadAdapter.versions, resolved]
        simp only [leftHeld, rightHeld]
      · rw [versions_unavailable left path base auth resolved leftHidden,
          versions_unavailable right path base auth resolved rightHidden]

section Fetch

variable (adapter : MarkReadAdapter) (path base : String) (requested : Option Nat)
  (auth ifNoneMatch : Option String) (ifModifiedSince : Option MarkTimestamp)

theorem fetch_unavailable (named : path ≠ "/health")
    (resolved : resolveMarkPath path = .ok (base, requested))
    (unavailable : ∀ holder, adapter.locate base = some holder →
      Unavailable host auth adapter holder) :
    adapter.fetch host path auth ifNoneMatch ifModifiedSince = .notFound := by
  rw [fetch, if_neg named, resolved]
  simp only
  cases located : adapter.locate base with
  | none => rfl
  | some holder =>
    rw [Option.bind_some]
    cases held : adapter.documents[holder]? with
    | none => rfl
    | some document =>
      exact fetchDocument_denied document requested auth ifNoneMatch ifModifiedSince
        (unavailable holder located document held)

theorem fetch_held (holder : String) (document : MarkDocument) (named : path ≠ "/health")
    (resolved : resolveMarkPath path = .ok (base, requested))
    (located : adapter.locate base = some holder)
    (held : adapter.documents[holder]? = some document) :
    adapter.fetch host path auth ifNoneMatch ifModifiedSince =
      fetchDocument host document requested auth ifNoneMatch ifModifiedSince := by
  rw [fetch, if_neg named, resolved]
  simp only [located, Option.bind_some, held]

end Fetch

theorem locate_named (named : parseContentHash path = none) : adapter.locate path = some path := by
  rw [locate, named]

theorem locate_addressed (contentHash : Bytes32)
    (addressed : parseContentHash path = some contentHash) :
    adapter.locate path = adapter.currentContent[contentHash]? := by
  rw [locate, addressed]

theorem fetch_named_same (path base : String) (requested : Option Nat)
    (auth ifNoneMatch : Option String) (ifModifiedSince : Option MarkTimestamp)
    (same : SameReadable host auth left right) (located : path ≠ "/health")
    (resolved : resolveMarkPath path = .ok (base, requested))
    (named : parseContentHash base = none) :
    left.fetch host path auth ifNoneMatch ifModifiedSince =
      right.fetch host path auth ifNoneMatch ifModifiedSince := by
  have leftLocated := locate_named left base named
  have rightLocated := locate_named right base named
  rcases sameReadable_at left right auth same base with
    ⟨document, leftHeld, rightHeld, allowed⟩ | ⟨leftHidden, rightHidden⟩
  · rw [fetch_held left path base requested auth ifNoneMatch ifModifiedSince base document
        located resolved leftLocated leftHeld,
      fetch_held right path base requested auth ifNoneMatch ifModifiedSince base document
        located resolved rightLocated rightHeld]
  · rw [fetch_unavailable left path base requested auth ifNoneMatch ifModifiedSince located
        resolved, fetch_unavailable right path base requested auth ifNoneMatch ifModifiedSince
        located resolved]
    · intro holder found
      cases rightLocated.symm.trans found
      exact rightHidden
    · intro holder found
      cases leftLocated.symm.trans found
      exact leftHidden

theorem health_resolved : resolveMarkPath "/health" = .ok ("/health", none) := by
  decide

theorem health_named : parseContentHash "/health" = none := by
  decide

theorem readableHash_eq_some_iff (auth : Option String) (document : MarkDocument)
    (contentHash : Bytes32) :
    readableHash host auth document = some contentHash ↔
      document.access.allows host auth = true ∧ latestHash document = some contentHash := by
  rw [readableHash]
  by_cases allowed : document.access.allows host auth = true
  · simp [allowed]
  · simp [allowed]

theorem bind_eq_some_of_held {feature : MarkDocument → Option Bytes32}
    {adapter : MarkReadAdapter} {path : String} {document : MarkDocument}
    (held : adapter.documents[path]? = some document) :
    adapter.documents[path]?.bind feature = feature document := by
  rw [held, Option.bind_some]

theorem unavailable_of_unread (auth : Option String) (contentHash : Bytes32)
    (indexed : Indexed adapter)
    (unread : ¬ ∃ path : String,
      adapter.documents[path]?.bind (readableHash host auth) = some contentHash) (holder : String)
    (found : adapter.currentContent[contentHash]? = some holder) :
    Unavailable host auth adapter holder := by
  intro document held
  have current := ((indexed contentHash holder).mp found).1
  rw [bind_eq_some_of_held held] at current
  by_cases allowed : document.access.allows host auth = true
  · refine absurd ⟨holder, ?_⟩ unread
    rw [bind_eq_some_of_held held]
    exact (readableHash_eq_some_iff auth document contentHash).mpr ⟨allowed, current⟩
  · simpa using allowed

theorem unavailable_of_hidden (auth : Option String) (contentHash : Bytes32) (path : String)
    (indexed : Indexed adapter)
    (first : IsFirst (readableHash host auth) adapter.documents contentHash path)
    (hidden : HiddenBefore host auth adapter contentHash path) (holder : String)
    (found : adapter.currentContent[contentHash]? = some holder) :
    Unavailable host auth adapter holder := by
  intro document held
  rcases hidden with ⟨other, concealed, otherHeld, _, otherCurrent, earlier⟩
  rcases (indexed contentHash holder).mp found with ⟨current, minimal⟩
  rw [bind_eq_some_of_held held] at current
  by_cases allowed : document.access.allows host auth = true
  · have later := first.2 holder (by
      rw [bind_eq_some_of_held held]
      exact (readableHash_eq_some_iff auth document contentHash).mpr ⟨allowed, current⟩)
    have before := minimal other (by rw [bind_eq_some_of_held otherHeld, otherCurrent])
    have between := Std.TransCmp.isLE_trans later before
    have reversed : compare path other = .gt := Std.OrientedCmp.gt_of_lt earlier
    rw [reversed] at between
    cases between
  · simpa using allowed

theorem indexed_unhidden (auth : Option String) (contentHash : Bytes32) (path : String)
    (indexed : Indexed adapter)
    (first : IsFirst (readableHash host auth) adapter.documents contentHash path)
    (unhidden : ¬ HiddenBefore host auth adapter contentHash path) :
    adapter.currentContent[contentHash]? = some path := by
  refine (indexed contentHash path).mpr ⟨?_, ?_⟩
  · rcases Option.bind_eq_some_iff.mp first.1 with ⟨document, held, has⟩
    rw [bind_eq_some_of_held held]
    exact ((readableHash_eq_some_iff auth document contentHash).mp has).2
  · intro other holds
    rcases Option.bind_eq_some_iff.mp holds with ⟨document, held, has⟩
    by_cases allowed : document.access.allows host auth = true
    · apply first.2 other
      rw [bind_eq_some_of_held held]
      exact (readableHash_eq_some_iff auth document contentHash).mpr ⟨allowed, has⟩
    · by_cases earlier : compare other path = .lt
      · exact absurd ⟨other, document, held, by simpa using allowed, has, earlier⟩ unhidden
      · have swapped : compare path other = (compare other path).swap := Std.OrientedCmp.eq_swap
        rw [swapped]
        cases order : compare other path with
        | lt => exact absurd order earlier
        | eq => rfl
        | gt => rfl

def statusLine (status : String) : List UInt8 :=
  ("---\nstatus: " ++ status ++ "\n").toUTF8.data.toList

theorem toWire_bytes (response : MarkResponse) :
    response.toWire.data.toList = statusLine response.status ++
      ((String.join (response.metadata.map MarkResponse.metadataLine) ++
        "---\n").toUTF8.data.toList ++ response.body.data.toList) := by
  rw [MarkResponse.toWire, statusLine]
  simp only [String.toUTF8_eq_toByteArray, String.toByteArray_append, ByteArray.data_append,
    Array.toList_append, List.append_assoc]

theorem toWire_ne (left right : MarkResponse) (position : Nat) (one two : UInt8)
    (leftByte : (statusLine left.status)[position]? = some one)
    (rightByte : (statusLine right.status)[position]? = some two) (differ : one ≠ two) :
    left.toWire ≠ right.toWire := by
  intro same
  have bytes : left.toWire.data.toList = right.toWire.data.toList := by rw [same]
  rw [toWire_bytes, toWire_bytes] at bytes
  have here := congrArg (·[position]?) bytes
  simp only [List.getElem?_append_left (List.getElem?_eq_some_iff.mp leftByte).1,
    List.getElem?_append_left (List.getElem?_eq_some_iff.mp rightByte).1, leftByte, rightByte,
    Option.some.injEq] at here
  exact differ here

theorem serveVersion_toWire_ne (document : MarkDocument) (version : MarkVersion)
    (requested : Option Nat) (ifNoneMatch : Option String)
    (ifModifiedSince : Option MarkTimestamp) :
    (serveVersion document version requested ifNoneMatch ifModifiedSince).toWire ≠
      MarkResponse.notFound.toWire := by
  rw [serveVersion]
  by_cases unmodified : ifNoneMatch = some version.etagText ∨
      (ifModifiedSince.any fun since => decide (version.modified.value ≤ since.value))
  · rw [if_pos unmodified]
    exact toWire_ne _ _ 16 109 102 (by decide) (by decide) (by decide)
  · rw [if_neg unmodified]
    exact toWire_ne (.ok _ _) _ 12 111 110
      (show (statusLine "ok")[12]? = some 111 by decide) (by decide) (by decide)

theorem fetch_addressed (path base holder : String) (requested : Option Nat)
    (auth ifNoneMatch : Option String) (ifModifiedSince : Option MarkTimestamp)
    (contentHash : Bytes32) (document : MarkDocument) (indexed : Indexed adapter)
    (located : path ≠ "/health") (resolved : resolveMarkPath path = .ok (base, requested))
    (addressed : parseContentHash base = some contentHash)
    (first : IsFirst (readableHash host auth) adapter.documents contentHash holder)
    (held : adapter.documents[holder]? = some document) :
    (HiddenBefore host auth adapter contentHash holder →
      adapter.fetch host path auth ifNoneMatch ifModifiedSince = .notFound) ∧
    (¬ HiddenBefore host auth adapter contentHash holder →
      adapter.fetch host path auth ifNoneMatch ifModifiedSince =
        fetchDocument host document requested auth ifNoneMatch ifModifiedSince) := by
  have lookup := locate_addressed adapter base contentHash addressed
  constructor
  · intro hidden
    apply fetch_unavailable adapter path base requested auth ifNoneMatch ifModifiedSince located
      resolved
    intro other found
    rw [lookup] at found
    exact unavailable_of_hidden adapter auth contentHash holder indexed first hidden other found
  · intro unhidden
    apply fetch_held adapter path base requested auth ifNoneMatch ifModifiedSince holder document
      located resolved _ held
    rw [lookup]
    exact indexed_unhidden adapter auth contentHash holder indexed first unhidden

theorem fetch_unread (path base : String) (requested : Option Nat)
    (auth ifNoneMatch : Option String) (ifModifiedSince : Option MarkTimestamp)
    (contentHash : Bytes32) (indexed : Indexed adapter) (located : path ≠ "/health")
    (resolved : resolveMarkPath path = .ok (base, requested))
    (addressed : parseContentHash base = some contentHash)
    (unread : ¬ ∃ holder : String,
      adapter.documents[holder]?.bind (readableHash host auth) = some contentHash) :
    adapter.fetch host path auth ifNoneMatch ifModifiedSince = .notFound := by
  apply fetch_unavailable adapter path base requested auth ifNoneMatch ifModifiedSince located
    resolved
  intro holder found
  rw [locate_addressed adapter base contentHash addressed] at found
  exact unavailable_of_unread adapter auth contentHash indexed unread holder found

theorem readableHash_same (auth : Option String) (same : SameReadable host auth left right)
    (path : String) :
    left.documents[path]?.bind (readableHash host auth) =
      right.documents[path]?.bind (readableHash host auth) := by
  have denied : ∀ adapter : MarkReadAdapter, Unavailable host auth adapter path →
      adapter.documents[path]?.bind (readableHash host auth) = none := by
    intro adapter unavailable
    cases held : adapter.documents[path]? with
    | none => rfl
    | some document =>
      rw [Option.bind_some, readableHash, unavailable document held]
      rfl
  rcases sameReadable_at left right auth same path with
    ⟨document, leftHeld, rightHeld, allowed⟩ | ⟨leftHidden, rightHidden⟩
  · rw [leftHeld, rightHeld]
  · rw [denied left leftHidden, denied right rightHidden]

theorem held_same (auth : Option String) (contentHash : Bytes32) (path : String)
    (document : MarkDocument) (same : SameReadable host auth left right)
    (first : IsFirst (readableHash host auth) left.documents contentHash path)
    (held : left.documents[path]? = some document) :
    document.access.allows host auth = true ∧ right.documents[path]? = some document := by
  have read := first.1
  rw [bind_eq_some_of_held held, readableHash_eq_some_iff] at read
  rcases sameReadable_at left right auth same path with
    ⟨found, leftHeld, rightHeld, allowed⟩ | ⟨leftHidden, rightHidden⟩
  · cases held.symm.trans leftHeld
    exact ⟨read.1, rightHeld⟩
  · rw [leftHidden document held] at read
    cases read.1

theorem fetch_addressed_same_iff (path base holder : String) (requested : Option Nat)
    (auth ifNoneMatch : Option String) (ifModifiedSince : Option MarkTimestamp)
    (contentHash : Bytes32) (document : MarkDocument) (leftIndexed : Indexed left)
    (rightIndexed : Indexed right) (same : SameReadable host auth left right)
    (located : path ≠ "/health") (resolved : resolveMarkPath path = .ok (base, requested))
    (addressed : parseContentHash base = some contentHash)
    (first : IsFirst (readableHash host auth) left.documents contentHash holder)
    (held : left.documents[holder]? = some document) :
    (left.fetch host path auth ifNoneMatch ifModifiedSince).toWire =
        (right.fetch host path auth ifNoneMatch ifModifiedSince).toWire ↔
      ¬ ((selectVersion document requested).isSome = true ∧
        ¬ (HiddenBefore host auth left contentHash holder ↔
          HiddenBefore host auth right contentHash holder)) := by
  rcases held_same left right auth contentHash holder document same first held with
    ⟨allowed, rightHeld⟩
  have rightFirst : IsFirst (readableHash host auth) right.documents contentHash holder := by
    simpa only [IsFirst, readableHash_same left right auth same] using first
  have leftAnswer := fetch_addressed left path base holder requested auth ifNoneMatch
    ifModifiedSince contentHash document leftIndexed located resolved addressed first held
  have rightAnswer := fetch_addressed right path base holder requested auth ifNoneMatch
    ifModifiedSince contentHash document rightIndexed located resolved addressed rightFirst
    rightHeld
  cases selected : selectVersion document requested with
  | none =>
    have absent : fetchDocument host document requested auth ifNoneMatch ifModifiedSince =
        .notFound := by
      rw [fetchDocument, allowed, selected]
      rfl
    rw [absent] at leftAnswer rightAnswer
    have leftMissing := (Classical.em (HiddenBefore host auth left contentHash holder)).elim
      leftAnswer.1 leftAnswer.2
    have rightMissing := (Classical.em (HiddenBefore host auth right contentHash holder)).elim
      rightAnswer.1 rightAnswer.2
    simp [leftMissing, rightMissing]
  | some version =>
    have served : fetchDocument host document requested auth ifNoneMatch ifModifiedSince =
        serveVersion document version requested ifNoneMatch ifModifiedSince := by
      rw [fetchDocument, allowed, selected]
      rfl
    have distinct := serveVersion_toWire_ne document version requested ifNoneMatch
      ifModifiedSince
    rw [served] at leftAnswer rightAnswer
    by_cases leftHidden : HiddenBefore host auth left contentHash holder
    · by_cases rightHidden : HiddenBefore host auth right contentHash holder
      · simp [leftAnswer.1 leftHidden, rightAnswer.1 rightHidden, leftHidden, rightHidden]
      · simp [leftAnswer.1 leftHidden, rightAnswer.2 rightHidden, leftHidden, rightHidden,
          distinct.symm]
    · by_cases rightHidden : HiddenBefore host auth right contentHash holder
      · simp [leftAnswer.2 leftHidden, rightAnswer.1 rightHidden, leftHidden, rightHidden,
          distinct]
      · simp [leftAnswer.2 leftHidden, rightAnswer.2 rightHidden, leftHidden, rightHidden]

theorem hiddenCopyDecides_iff (request : ByteArray) (path base : String) (requested : Option Nat)
    (auth ifNoneMatch : Option String) (ifModifiedSince : Option MarkTimestamp)
    (decoded : decodeMarkRequest request = .ok (.fetch path auth ifNoneMatch ifModifiedSince))
    (resolved : resolveMarkPath path = .ok (base, requested)) :
    HiddenCopyDecides host left right request ↔
      ∃ contentHash holder document, parseContentHash base = some contentHash ∧
        IsFirst (readableHash host auth) left.documents contentHash holder ∧
        left.documents[holder]? = some document ∧
        (selectVersion document requested).isSome = true ∧
        ¬ (HiddenBefore host auth left contentHash holder ↔
          HiddenBefore host auth right contentHash holder) := by
  constructor
  · rintro ⟨auth', contentHash, requested', holder, document,
      ⟨path', ifNoneMatch', ifModifiedSince', base', decoded', resolved', addressed⟩, decides⟩
    rw [decoded] at decoded'
    cases decoded'
    rw [resolved] at resolved'
    cases resolved'
    exact ⟨contentHash, holder, document, addressed, decides⟩
  · rintro ⟨contentHash, holder, document, addressed, decides⟩
    exact ⟨auth, contentHash, requested, holder, document,
      ⟨path, ifNoneMatch, ifModifiedSince, base, decoded, resolved, addressed⟩, decides⟩

theorem fetch_agrees_iff (request : ByteArray) (path : String) (auth ifNoneMatch : Option String)
    (ifModifiedSince : Option MarkTimestamp) (leftIndexed : Indexed left)
    (rightIndexed : Indexed right) (same : SameReadable host auth left right)
    (decoded : decodeMarkRequest request = .ok (.fetch path auth ifNoneMatch ifModifiedSince)) :
    (left.fetch host path auth ifNoneMatch ifModifiedSince).toWire =
        (right.fetch host path auth ifNoneMatch ifModifiedSince).toWire ↔
      ¬ HiddenCopyDecides host left right request := by
  cases resolved : resolveMarkPath path with
  | error error =>
    refine iff_of_true ?_ ?_
    · rw [fetch, fetch, resolved]
    · rintro ⟨_, _, _, _, _, ⟨path', _, _, base, decoded', resolved', _⟩, _⟩
      rw [decoded] at decoded'
      cases decoded'
      rw [resolved] at resolved'
      cases resolved'
  | ok answer =>
    rcases answer with ⟨base, requested⟩
    rw [hiddenCopyDecides_iff left right request path base requested auth ifNoneMatch
      ifModifiedSince decoded resolved]
    cases addressed : parseContentHash base with
    | none =>
      refine iff_of_true ?_ (by simp)
      by_cases located : path = "/health"
      · rw [fetch, fetch, if_pos located, if_pos located]
      · rw [fetch_named_same left right path base requested auth ifNoneMatch ifModifiedSince
          same located resolved addressed]
    | some contentHash =>
      have located : path ≠ "/health" := by
        intro health
        rw [health, health_resolved] at resolved
        cases resolved
        cases health_named.symm.trans addressed
      by_cases read : ∃ holder : String,
          left.documents[holder]?.bind (readableHash host auth) = some contentHash
      · rcases exists_isFirst (readableHash host auth) left.documents contentHash read with
          ⟨holder, first⟩
        rcases Option.bind_eq_some_iff.mp first.1 with ⟨document, held, has⟩
        rw [fetch_addressed_same_iff left right path base holder requested auth ifNoneMatch
          ifModifiedSince contentHash document leftIndexed rightIndexed same located resolved
          addressed first held, not_iff_not]
        constructor
        · intro decides
          exact ⟨contentHash, holder, document, rfl, first, held, decides⟩
        · rintro ⟨contentHash', holder', document', named, first', held', decides⟩
          cases named
          cases isFirst_unique first first'
          cases held.symm.trans held'
          exact decides
      · have rightUnread : ¬ ∃ holder : String,
            right.documents[holder]?.bind (readableHash host auth) = some contentHash := by
          simpa only [readableHash_same left right auth same] using read
        rw [fetch_unread left path base requested auth ifNoneMatch ifModifiedSince
            contentHash leftIndexed located resolved addressed read,
          fetch_unread right path base requested auth ifNoneMatch ifModifiedSince contentHash
            rightIndexed located resolved addressed rightUnread]
        refine iff_of_true rfl ?_
        rintro ⟨contentHash', holder, document, named, first, _⟩
        cases named
        exact read ⟨holder, first.1⟩

/-- Two states that differ only in exports the reader may not read answer alike, unless one of
those is an earlier copy of the body that is asked for. -/
theorem responses_agree_iff (host : MarkHost) (left right : MarkReadAdapter)
    (request : ByteArray) (leftReached : Reached host left) (rightReached : Reached host right)
    (same : SameFor host left right request) :
    (left.respond host request).toWire = (right.respond host request).toWire ↔
      ¬ HiddenCopyDecides host left right request := by
  have leftIndexed := (sound_of_reached left leftReached).indexed
  have rightIndexed := (sound_of_reached right rightReached).indexed
  have unaddressed : (∀ path auth ifNoneMatch ifModifiedSince,
      decodeMarkRequest request ≠ .ok (.fetch path auth ifNoneMatch ifModifiedSince)) →
      ¬ HiddenCopyDecides host left right request := by
    rintro other ⟨auth, contentHash, requested, holder, document, ⟨path, ifNoneMatch,
      ifModifiedSince, base, decoded, _⟩, _⟩
    exact other path auth ifNoneMatch ifModifiedSince decoded
  rw [MarkReadAdapter.respond, MarkReadAdapter.respond]
  rw [SameFor] at same
  cases decoded : decodeMarkRequest request with
  | error error =>
    refine iff_of_true rfl (unaddressed ?_)
    intro path auth ifNoneMatch ifModifiedSince
    rw [decoded]
    nofun
  | ok asked =>
    rw [decoded] at same
    cases asked with
    | other verb path =>
      refine iff_of_true rfl (unaddressed ?_)
      intro path auth ifNoneMatch ifModifiedSince
      rw [decoded]
      nofun
    | versions path auth =>
      refine iff_of_true ?_ (unaddressed ?_)
      · simp only [respondTo, versions_same left right path auth same]
      · intro path auth ifNoneMatch ifModifiedSince
        rw [decoded]
        nofun
    | fetch path auth ifNoneMatch ifModifiedSince =>
      exact fetch_agrees_iff left right request path auth ifNoneMatch ifModifiedSince
        leftIndexed rightIndexed same decoded

def tideTable : ByteArray := "Tide table.\n".toUTF8

def MarkHost.sample : MarkHost where
  sha256 bytes := if bytes = tideTable then .filled 0x11 else .filled 0x22
  blake3 _ := .filled 0x33
  toMarkdown _ _ _ := .ok "Tide table.\n"

def tideSource (publication : PublicationId) : KnotPublishedDocument where
  publication
  mediaType := "text/djot"
  body := tideTable
  operation := .filled 1
  bodyDigest := .filled 0x33

def exportTides (path : String) (publication : PublicationId) (access : MarkReadAccess) :
    List MarkAction :=
  [.configureExport path publication access,
    .snapshot path (tideSource publication) ⟨"2026-08-08T02:00:00Z"⟩]

def harbour : MarkReadAdapter :=
  (exportTides "/harbour.md" 5 .everyone).foldl (MarkReadAdapter.perform .sample)
    (MarkReadAdapter.new maxDocumentBytes)

def cellar : MarkReadAdapter :=
  (exportTides "/cellar.md" 6 (.tokenHash (.filled 0x44))).foldl
    (MarkReadAdapter.perform .sample) harbour

def tideRequest : ByteArray := ("FETCH /sha256-" ++ hex32 (.filled 0x11) ++ "\n").toUTF8

theorem harbour_reached : Reached .sample harbour := ⟨maxDocumentBytes, _, rfl⟩

theorem cellar_reached : Reached .sample cellar :=
  ⟨maxDocumentBytes, exportTides "/harbour.md" 5 .everyone ++
    exportTides "/cellar.md" 6 (.tokenHash (.filled 0x44)), rfl⟩

theorem cellar_sameReadable : SameReadable .sample none cellar harbour := by
  intro path
  by_cases same : "/cellar.md" = path
  · subst same
    have absent : readable .sample none harbour "/cellar.md" = none := by decide
    have denied : readable .sample none cellar "/cellar.md" = none := by decide
    rw [absent, denied]
  · rw [readable, readable, cellar, exportTides, List.foldl_cons, List.foldl_cons,
      List.foldl_nil, documents_perform_other _ _ (.snapshot _ _ _) path same,
      documents_perform_other _ _ (.configureExport _ _ _) path same]

theorem tideRequest_decoded : decodeMarkRequest tideRequest =
    .ok (.fetch ("/sha256-" ++ hex32 (.filled 0x11)) none none none) := by
  decide

theorem cellar_sameFor : SameFor .sample cellar harbour tideRequest := by
  rw [SameFor, tideRequest_decoded]
  exact cellar_sameReadable

theorem tide_answers_differ : (cellar.respond .sample tideRequest).toWire ≠
    (harbour.respond .sample tideRequest).toWire := by
  decide +kernel

theorem responses_agree_tides : HiddenCopyDecides .sample cellar harbour tideRequest := by
  have agree := responses_agree_iff .sample cellar harbour tideRequest cellar_reached
    harbour_reached cellar_sameFor
  exact Classical.not_not.mp fun unhidden => tide_answers_differ (agree.mpr unhidden)

/-- The public text can no longer be fetched by its hash once the protected copy is there. -/
theorem protected_copy_hides_public :
    Reached .sample cellar ∧ Reached .sample harbour ∧
      SameFor .sample cellar harbour tideRequest ∧
      (cellar.respond .sample tideRequest).toWire ≠
        (harbour.respond .sample tideRequest).toWire :=
  ⟨cellar_reached, harbour_reached, cellar_sameFor, tide_answers_differ⟩

end KnotEditor.Mark
