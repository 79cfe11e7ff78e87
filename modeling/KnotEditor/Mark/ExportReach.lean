import KnotEditor.Mark.Disclosure

/-! From an export's path to a request line and back: what `configure_export` accepts, a reader can
ask for unless it holds a space. -/

namespace KnotEditor.Mark

open KnotEditor.Mark.MarkReadAdapter

variable {host : MarkHost}

def fetchLine (path : String) : ByteArray := ("FETCH " ++ path ++ "\n").toUTF8

def versionPath (path : String) (number : Nat) : String := path ++ "/v" ++ toString number

structure ReachableExport (host : MarkHost) (adapter : MarkReadAdapter) (path : String)
    (document : MarkDocument) : Prop where
  decoded : decodeMarkRequest (fetchLine path) = .ok (.fetch path none none none)
  unversioned : resolveMarkPath path = .ok (path, none)
  unhashed : parseContentHash path = none
  latest : ∀ version, document.versions.getLast? = some version →
    adapter.respond host (fetchLine path) =
      .ok (versionMetadata document version none) version.body
  numbered : ∀ number, 1 ≤ number → number ≤ document.versions.length →
    resolveMarkPath (versionPath path number) = .ok (path, some number) ∧
      ((fetchLine (versionPath path number)).size ≤ maxRequestBytes →
        decodeMarkRequest (fetchLine (versionPath path number)) =
          .ok (.fetch (versionPath path number) none none none))

theorem splitOnce_append (separator : Char) (front back : List Char) (absent : separator ∉ front) :
    splitOnce [separator] (front ++ separator :: back) = some (front, back) := by
  induction front with
  | nil => simp [splitOnce]
  | cons character rest ih =>
    rw [List.mem_cons, not_or] at absent
    simp [splitOnce, absent.1, ih absent.2]

theorem utf8Length_toList (text : String) : utf8Length text.toList = text.toUTF8.size := by
  have bytes : utf8Length text.toList = (utf8Bytes text.toList).length := by
    simp [utf8Length, utf8Bytes, List.length_flatMap, String.length_utf8EncodeChar]
  rw [bytes, length_utf8Bytes]
  rfl

theorem requestPath_printable (path : List Char) (valid : RequestPath path) (character : Char)
    (control : isControl character = true) : character ∉ path := by
  intro member
  rw [valid.printable character member] at control
  cases control

theorem decode_fetchLine (path : String) (valid : RequestPath path.toList)
    (bounded : (fetchLine path).size ≤ maxRequestBytes) :
    decodeMarkRequest (fetchLine path) =
      if ' ' ∈ path.toList then .error .malformedRequest
      else .ok (.fetch path none none none) := by
  have line : ("FETCH " ++ path ++ "\n").toList = ("FETCH ".toList ++ path.toList) ++ '\n' :: [] := by
    simp
  have printable : ∀ character, isControl character = true →
      character ∉ "FETCH ".toList ++ path.toList := by
    intro character control member
    rcases List.mem_append.mp member with verb | inside
    · have plain : "FETCH ".toList.all fun character => !isControl character := by decide
      have printed := List.all_eq_true.mp plain character verb
      simp [control] at printed
    · exact requestPath_printable path.toList valid character control inside
  have ended := splitOnce_append '\n' ("FETCH ".toList ++ path.toList) []
    (printable '\n' (by decide))
  have spaced : splitOnce [' '] ("FETCH ".toList ++ path.toList) =
      some ("FETCH".toList, path.toList) :=
    splitOnce_append ' ' "FETCH".toList path.toList (by decide)
  have size : utf8Length ("FETCH ".toList ++ path.toList) + 1 = (fetchLine path).size := by
    rw [fetchLine, ← utf8Length_toList, line]
    have newline : '\n'.utf8Size = 1 := rfl
    simp [utf8Length]
    omega
  have returns : ("FETCH ".toList ++ path.toList).contains '\r' = false := by
    simpa using printable '\r' (by decide)
  have absolute : path.toList ≠ [] := by
    intro empty
    have first := valid.absolute
    simp [empty] at first
  have accepted := (validateRequestPath_ok_iff path path).mpr ⟨rfl, valid⟩
  rw [decodeMarkRequest, if_neg (by omega), fetchLine, fromUTF8_toUTF8]
  simp only [line, ended, returns, Bool.or_false]
  rw [if_neg (by simp only [decide_eq_true_eq]; omega)]
  simp only [spaced]
  by_cases space : ' ' ∈ path.toList
  · simp [space]
  · rw [if_neg (by simp [space, absolute])]
    simp [space, accepted, String.ofList_toList, parseFrontmatter, requestOf, parseSince,
      Metadata.get, bind, Except.bind, Except.map]

theorem versionPath_toList (path : String) (number : Nat) :
    (versionPath path number).toList = path.toList ++ '/' :: 'v' :: Nat.toDigits 10 number := by
  rw [versionPath, show toString number = String.ofList (Nat.toDigits 10 number) from rfl]
  simp

theorem space_notMem_versionPath (path : String) (number : Nat) (absent : ' ' ∉ path.toList) :
    ' ' ∉ (versionPath path number).toList := by
  rw [versionPath_toList]
  intro member
  have digits : ' ' ∉ Nat.toDigits 10 number := by
    intro digit
    have shape := isAsciiDigit_of_mem_toDigits number ' ' digit
    exact absurd shape (by decide)
  simp [absent, digits] at member

theorem resolveMarkPath_versionPath (path : String) (number : Nat)
    (valid : RequestPath path.toList) (positive : 1 ≤ number) (small : number < 2 ^ 64) :
    resolveMarkPath (versionPath path number) = .ok (path, some number) := by
  have resolved := resolveMarkPath_version path (Nat.toDigits 10 number) valid
    Nat.toDigits_ne_nil (isAsciiDigit_of_mem_toDigits number)
  rw [versionPath, show toString number = String.ofList (Nat.toDigits 10 number) from rfl,
    resolved, parseU64, Nat.ofDigitChars_ten_toDigits]
  obtain ⟨version, rfl⟩ := Nat.exists_eq_add_of_le' positive
  simp only [if_pos small]

theorem reachable_of_spaceless (adapter : MarkReadAdapter) (path : String)
    (document : MarkDocument) (named : DocumentPath path)
    (history : VersionHistory host document.versions)
    (exported : adapter.documents[path]? = some document) (open_ : document.access = .everyone)
    (bounded : (fetchLine path).size ≤ maxRequestBytes) (absent : ' ' ∉ path.toList) :
    ReachableExport host adapter path document where
  decoded := by rw [decode_fetchLine path named.toRequestPath bounded, if_neg absent]
  unversioned := resolveMarkPath_documentPath path named
  unhashed := parseContentHash_documentPath path named.extension
  latest := by
    intro version last
    rw [respond, decode_fetchLine path named.toRequestPath bounded, if_neg absent]
    simp only [respondTo, fetch, if_neg (documentPath_ne_health path named),
      resolveMarkPath_documentPath path named, locate,
      parseContentHash_documentPath path named.extension, Option.bind_some, exported,
      fetchDocument, open_, MarkReadAccess.allows, selectVersion, last,
      serveVersion_unconditional]
    rfl
  numbered := by
    intro number positive existing
    have counted := history.counted
    have limit : usizeMax = 2 ^ 64 - 1 := rfl
    refine ⟨resolveMarkPath_versionPath path number named.toRequestPath positive (by omega), ?_⟩
    intro fits
    have valid : RequestPath (versionPath path number).toList := by
      rw [versionPath_toList]
      exact requestPath_version path.toList _ named.toRequestPath
        (isAsciiDigit_of_mem_toDigits number)
    rw [decode_fetchLine (versionPath path number) valid fits,
      if_neg (space_notMem_versionPath path number absent)]

/-- An export is out of reach when its path holds a space, and for no other reason. -/
theorem export_reachable_iff (host : MarkHost) (adapter : MarkReadAdapter)
    (reached : Reached host adapter) (path : String) (document : MarkDocument)
    (exported : adapter.documents[path]? = some document) (open_ : document.access = .everyone)
    (bounded : (fetchLine path).size ≤ maxRequestBytes) :
    ReachableExport host adapter path document ↔ ' ' ∉ path.toList := by
  have documented := (sound_of_reached adapter reached).documented
  have named := documented.paths path document exported
  constructor
  · intro reachable space
    have decoded := reachable.decoded
    rw [decode_fetchLine path named.toRequestPath bounded, if_pos space] at decoded
    cases decoded
  · intro absent
    exact reachable_of_spaceless adapter path document named
      (documented.histories path document exported) exported open_ bounded absent

theorem harbour_exports : ∃ document, harbour.documents["/harbour.md"]? = some document ∧
    document.access = .everyone ∧ document.versions ≠ [] := by
  have held : (harbour.documents["/harbour.md"]?).any
      (fun document => decide (document.access = .everyone) && !document.versions.isEmpty) := by
    decide
  cases found : harbour.documents["/harbour.md"]? with
  | none => simp [found] at held
  | some document =>
    refine ⟨document, rfl, ?_⟩
    simpa [found] using held

theorem export_reachable_harbour :
    ∃ document, harbour.documents["/harbour.md"]? = some document ∧
      document.versions ≠ [] ∧ ReachableExport .sample harbour "/harbour.md" document := by
  rcases harbour_exports with ⟨document, exported, open_, snapshotted⟩
  exact ⟨document, exported, snapshotted, (export_reachable_iff .sample harbour harbour_reached "/harbour.md"
    document exported open_ (by decide)).mpr (by decide)⟩

def spacedHarbour : MarkReadAdapter :=
  (exportTides "/harbour tides.md" 5 .everyone).foldl (MarkReadAdapter.perform .sample)
    (MarkReadAdapter.new maxDocumentBytes)

theorem spaced_export_unreachable :
    Reached .sample spacedHarbour ∧
      (spacedHarbour.documents["/harbour tides.md"]?).any
        (fun document => decide (document.access = .everyone) && !document.versions.isEmpty) ∧
      (fetchLine "/harbour tides.md").size ≤ maxRequestBytes ∧
      decodeMarkRequest (fetchLine "/harbour tides.md") = .error .malformedRequest ∧
      spacedHarbour.respond .sample (fetchLine "/harbour tides.md") = .badRequest :=
  ⟨⟨maxDocumentBytes, _, rfl⟩, by decide, by decide, by decide,
    by decide⟩

end KnotEditor.Mark
