import KnotEditor.Mark.Disclosure

/-! FETCH with the validators of a version that the client holds: `not-modified` can be stale,
and exactly when the clock of the snapshots has not moved on. -/

namespace KnotEditor.Mark

open KnotEditor.Mark.MarkReadAdapter

variable {host : MarkHost}

def SuccessfulSnapshot (host : MarkHost) (adapter : MarkReadAdapter) : MarkAction → Prop
  | .snapshot path source modified =>
    ∃ outcome, (adapter.snapshot host path source modified).1 = .ok outcome
  | _ => False

def currentVersion (adapter : MarkReadAdapter) (path : String) : Option MarkVersion :=
  adapter.documents[path]?.bind fun document => document.versions.getLast?

/-- FETCH of `path` with the etag and the time that the version `held` was served with. -/
def conditionalFetch (host : MarkHost) (adapter : MarkReadAdapter) (path : String)
    (auth : Option String) (held : MarkVersion) : MarkResponse :=
  adapter.respondTo host (.fetch path auth (some held.etagText) (some held.modified))

def NeverStale (host : MarkHost) (adapter : MarkReadAdapter) (path : String)
    (auth : Option String) (held current : MarkVersion) : Prop :=
  conditionalFetch host adapter path auth held = .notModified → current = held

structure Stamped (host : MarkHost) (version : MarkVersion) : Prop where
  digested : version.etag = host.sha256 version.stored
  numbered : ∃ rest : String, version.stored = (versionLines version.id ++ rest).toUTF8

def AllStamped (host : MarkHost) (adapter : MarkReadAdapter) : Prop :=
  ∀ (path : String) document, adapter.documents[path]? = some document →
    ∀ version ∈ document.versions, Stamped host version

theorem stamped_nextVersion (versions : List MarkVersion) (source : KnotPublishedDocument)
    (modified : MarkTimestamp) (markdown : String) :
    Stamped host (nextVersion host versions source modified markdown.toUTF8) where
  digested := rfl
  numbered := by
    refine ⟨((versions.getLast?.map MarkVersion.etag).map previousHashLine).getD "" ++
      (markSourceLines source ++ "---\n") ++ markdown, ?_⟩
    simp only [nextVersion, markStoredVersion, markStoredHeader, String.append_assoc,
      String.toUTF8_eq_toByteArray, String.toByteArray_append, ByteArray.append_assoc]

theorem versionLines_inj (left right : Nat) (rest others : String)
    (same : (versionLines left ++ rest).toUTF8 = (versionLines right ++ others).toUTF8) :
    left = right := by
  have text := congrArg String.toList (String.toByteArray_inj.mp same)
  have shape : ∀ (id : Nat) (tail : String), ∃ more, (versionLines id ++ tail).toList =
      "---\nversion: ".toList ++ (Nat.toDigits 10 id ++ '\n' :: more) := by
    intro id tail
    refine ⟨"archived: false\n".toList ++ tail.toList, ?_⟩
    have lines : versionLines id = "---\nversion: " ++ String.ofList (Nat.toDigits 10 id) ++
      "\narchived: false\n" := rfl
    simp [lines]
  obtain ⟨more, leftText⟩ := shape left rest
  obtain ⟨tail, rightText⟩ := shape right others
  rw [leftText, rightText, List.append_right_inj] at text
  have digits : ∀ (id : Nat) (after : List Char),
      (Nat.toDigits 10 id ++ '\n' :: after).takeWhile isAsciiDigit = Nat.toDigits 10 id := by
    intro id after
    rw [List.takeWhile_append_of_pos (isAsciiDigit_of_mem_toDigits id)]
    simp [isAsciiDigit]
  have numbers := congrArg (List.takeWhile isAsciiDigit) text
  rw [digits, digits] at numbers
  have values := congrArg (Nat.ofDigitChars 10 · 0) numbers
  simpa using values

theorem allStamped_new (limit : Nat) : AllStamped host (MarkReadAdapter.new limit) := by
  intro path document held
  simp [MarkReadAdapter.new] at held

variable (adapter : MarkReadAdapter) (modified : MarkTimestamp) (path : String)
  (document : MarkDocument)

theorem allStamped_insert (before : AllStamped host adapter)
    (stamped : ∀ version ∈ document.versions, Stamped host version) :
    AllStamped host { adapter with documents := adapter.documents.insert path document } := by
  intro other found held
  by_cases same : path = other
  · subst same
    rw [Std.ExtTreeMap.getElem?_insert_self] at held
    cases held
    exact stamped
  · rw [Std.ExtTreeMap.getElem?_insert, if_neg (by simpa using same)] at held
    exact before other found held

theorem allStamped_perform (action : MarkAction) (before : AllStamped host adapter)
    : AllStamped host (adapter.perform host action) := by
  cases action with
  | configureExport path publication access =>
    rcases configureExport_cases adapter path publication access with
      ⟨error, refused⟩ | ⟨after, named, kept, done⟩
    · rw [MarkReadAdapter.perform, refused]
      exact before
    · rw [MarkReadAdapter.perform, done]
      apply allStamped_insert adapter path after before
      rw [kept]
      cases found : adapter.documents[path]? with
      | none => simp
      | some document => exact before path document found
  | withdraw path =>
    rcases withdraw_cases adapter path with kept | erased
    · rw [MarkReadAdapter.perform, kept]
      exact before
    · rw [MarkReadAdapter.perform, erased]
      intro other document held
      apply before other document
      have erasure : (adapter.documents.erase path)[other]? = some document := held
      rw [Std.ExtTreeMap.getElem?_erase] at erasure
      by_cases same : compare path other = .eq
      · simp [same] at erasure
      · simpa [same] using erasure
  | snapshot path source modified =>
    rcases snapshot_cases host adapter path source modified with
      kept | ⟨document, markdown, found, room, differs, done⟩
    · rw [MarkReadAdapter.perform, kept]
      exact before
    · rw [MarkReadAdapter.perform, done]
      apply allStamped_insert adapter path _ before
      intro version member
      rcases List.mem_append.mp member with earlier | latest
      · exact before path document found version earlier
      · rw [List.mem_singleton.mp latest]
        exact stamped_nextVersion document.versions source modified markdown

theorem allStamped_of_reached (reached : Reached host adapter) :
    AllStamped host adapter := by
  rcases reached with ⟨limit, actions, rfl⟩
  have along : Run.Along (MarkReadAdapter.perform host) (fun _ _ => True)
      (MarkReadAdapter.new limit) actions := Run.along_always (fun _ _ => trivial) actions _
  exact Run.invariant_run (fun state action stamped _ => allStamped_perform state action stamped)
    actions _ (allStamped_new limit) along

def Extends (path : String) (document : MarkDocument) (adapter : MarkReadAdapter) : Prop :=
  ∃ after, adapter.documents[path]? = some after ∧ after.access = document.access ∧
    document.versions <+: after.versions

theorem extends_snapshot (action : MarkAction) (path : String) (document : MarkDocument)
    (before : Extends path document adapter) (snapshot : SuccessfulSnapshot host adapter action) :
    Extends path document (adapter.perform host action) := by
  rcases before with ⟨after, held, access, grown⟩
  cases action with
  | configureExport path publication access => cases snapshot
  | withdraw path => cases snapshot
  | snapshot other source modified =>
    rcases snapshot_cases host adapter other source modified with
      kept | ⟨found, markdown, present, room, differs, done⟩
    · rw [MarkReadAdapter.perform, kept]
      exact ⟨after, held, access, grown⟩
    · by_cases same : other = path
      · subst same
        rw [held] at present
        cases present
        rw [MarkReadAdapter.perform, done]
        exact ⟨_, Std.ExtTreeMap.getElem?_insert_self, access,
          grown.trans (List.prefix_append _ _)⟩
      · exact ⟨after, (documents_perform_other host adapter
          (.snapshot other source modified) path same).trans held,
          access, grown⟩

theorem extends_snapshots (adapter : MarkReadAdapter)
    (exported : adapter.documents[path]? = some document) (later : List MarkAction)
    (snapshots : Run.Along (MarkReadAdapter.perform host) (SuccessfulSnapshot host) adapter later) :
    Extends path document (later.foldl (MarkReadAdapter.perform host) adapter) :=
  Run.invariant_run
    (fun state action before snapshot =>
      extends_snapshot state action path document before snapshot)
    later adapter ⟨document, exported, rfl, List.prefix_rfl⟩ snapshots

theorem snapshot_created (host : MarkHost) (adapter : MarkReadAdapter) (path : String)
    (source : KnotPublishedDocument) (modified : MarkTimestamp) (document : MarkDocument)
    (body : ByteArray) (exported : adapter.documents[path]? = some document)
    (converted : snapshotBody host adapter document source = .ok body)
    (differs : ∀ current, document.versions.getLast? = some current → current.body ≠ body)
    (room : document.versions.length + 1 ≤ usizeMax) :
    adapter.snapshot host path source modified =
      (.ok (.created (document.versions.length + 1)), rebuildContentIndex { adapter with
        documents := adapter.documents.insert path { document with
          versions := document.versions ++
            [nextVersion host document.versions source modified body] } }) := by
  have renewed : (document.versions.getLast?.filter fun current => current.body = body) = none := by
    rw [Option.filter_eq_none_iff]
    intro current last
    simpa using differs current last
  simp only [snapshot, exported, converted, renewed]
  rw [if_neg (by omega)]
  rfl

theorem reached_later (reached : Reached host adapter) (later : List MarkAction) :
    Reached host (later.foldl (MarkReadAdapter.perform host) adapter) := by
  rcases reached with ⟨limit, actions, rfl⟩
  exact ⟨limit, actions ++ later, by rw [List.foldl_append]⟩

theorem conditionalFetch_eq (auth : Option String) (document : MarkDocument)
    (held current : MarkVersion) (named : DocumentPath path)
    (exported : adapter.documents[path]? = some document)
    (allowed : document.access.allows host auth = true)
    (latest : document.versions.getLast? = some current) :
    conditionalFetch host adapter path auth held =
      serveVersion document current none (some held.etagText) (some held.modified) := by
  rw [conditionalFetch, respondTo, fetch, if_neg (documentPath_ne_health path named),
    resolveMarkPath_documentPath path named]
  simp [locate, parseContentHash_documentPath path named.extension, exported, fetchDocument,
    allowed, selectVersion, latest]

theorem serveVersion_notModified_iff (held current : MarkVersion) :
    serveVersion document current none (some held.etagText) (some held.modified) = .notModified ↔
      held.etag = current.etag ∨ current.modified.value ≤ held.modified.value := by
  have etags : held.etagText = current.etagText ↔ held.etag = current.etag :=
    ⟨hex32_inj _ _, congrArg hex32⟩
  rw [serveVersion]
  split
  · case isTrue conditional =>
      simpa [etags] using conditional
  · case isFalse conditional =>
      constructor
      · intro answer
        simp [MarkResponse.ok, MarkResponse.notModified] at answer
      · intro known
        exact absurd (by simpa [etags] using known) conditional

theorem version_eq_of_etag (versions : List MarkVersion) (history : VersionHistory host versions)
    (stamped : ∀ version ∈ versions, Stamped host version) (held current : MarkVersion)
    (heldMember : held ∈ versions) (currentMember : current ∈ versions)
    (collisionFree : host.sha256 held.stored = host.sha256 current.stored →
      held.stored = current.stored)
    (same : held.etag = current.etag) : held = current := by
  have first := stamped held heldMember
  have second := stamped current currentMember
  rw [first.digested, second.digested] at same
  have stored := collisionFree same
  obtain ⟨rest, firstText⟩ := first.numbered
  obtain ⟨others, secondText⟩ := second.numbered
  rw [firstText, secondText] at stored
  have ids := versionLines_inj held.id current.id rest others stored
  have distinct : (versions.map MarkVersion.id).Nodup := by
    rw [history.ids]
    exact List.nodup_range'
  exact List.inj_on_of_nodup_map distinct heldMember currentMember ids

/-- Whatever was snapshotted since, with whatever times. -/
theorem conditional_fetch_is_fresh_iff (host : MarkHost) (adapter : MarkReadAdapter)
    (reached : Reached host adapter) (path : String) (auth : Option String)
    (document : MarkDocument) (exported : adapter.documents[path]? = some document)
    (allowed : document.access.allows host auth = true)
    (held : MarkVersion) (served : held ∈ document.versions) (later : List MarkAction)
    (snapshots : Run.Along (MarkReadAdapter.perform host) (SuccessfulSnapshot host) adapter later)
    (current : MarkVersion)
    (latest : currentVersion (later.foldl (MarkReadAdapter.perform host) adapter) path =
      some current)
    (collisionFree : host.sha256 held.stored = host.sha256 current.stored →
      held.stored = current.stored) :
    NeverStale host (later.foldl (MarkReadAdapter.perform host) adapter) path auth held current ↔
      current = held ∨ held.modified.value < current.modified.value := by
  obtain ⟨after, found, access, grown⟩ :=
    extends_snapshots path document adapter exported later snapshots
  have sound := sound_of_reached _ (reached_later adapter reached later)
  have stamped := allStamped_of_reached _ (reached_later adapter reached later) path after found
  rw [currentVersion, found, Option.bind_some] at latest
  have answer := conditionalFetch_eq _ path auth after held current
    (sound.documented.paths path after found) found (access ▸ allowed) latest
  rw [NeverStale, answer, serveVersion_notModified_iff]
  constructor
  · intro fresh
    by_cases moved : held.modified.value < current.modified.value
    · exact Or.inr moved
    · exact Or.inl (fresh (Or.inr (String.not_lt.mp moved)))
  · rintro (same | moved) known
    · exact same
    · rcases known with etag | since
      · exact (version_eq_of_etag after.versions (sound.documented.histories path after found)
          stamped held current (grown.subset served) (List.mem_of_getLast? latest) collisionFree
          etag).symm
      · exact absurd moved (String.not_lt.mpr since)

def ferryHost : MarkHost where
  sha256 bytes := .filled (UInt8.ofNat bytes.size)
  blake3 _ := .filled 0x33
  toMarkdown _ _ bytes := .ok (if bytes.size = 12 then "Every hour.\n" else "No ferries today.\n")

def ferrySource (text : String) : KnotPublishedDocument where
  publication := 5
  mediaType := "text/djot"
  body := text.toUTF8
  operation := .filled 1
  bodyDigest := .filled 0x33

def ferryTime : MarkTimestamp := ⟨"2026-08-08T02:00:00Z"⟩

def ferryHeld : MarkVersion :=
  nextVersion ferryHost [] (ferrySource "Every hour.\n") ferryTime "Every hour.\n".toUTF8

def ferryCurrent (modified : MarkTimestamp) : MarkVersion :=
  nextVersion ferryHost [ferryHeld] (ferrySource "No ferries today.\n") modified
    "No ferries today.\n".toUTF8

def ferryDocument : MarkDocument := ⟨.everyone, 5, [ferryHeld]⟩

def ferryConfigured : MarkReadAdapter :=
  ((MarkReadAdapter.new maxDocumentBytes).configureExport "/ferry.md" 5 .everyone).2

def ferryAdapter : MarkReadAdapter :=
  (ferryConfigured.snapshot ferryHost "/ferry.md" (ferrySource "Every hour.\n") ferryTime).2

def ferryLater (modified : MarkTimestamp) : List MarkAction :=
  [.snapshot "/ferry.md" (ferrySource "No ferries today.\n") modified]

theorem ferryAdapter_reached : Reached ferryHost ferryAdapter :=
  ⟨maxDocumentBytes, [.configureExport "/ferry.md" 5 .everyone,
    .snapshot "/ferry.md" (ferrySource "Every hour.\n") ferryTime], rfl⟩

theorem ferryAdapter_exports : ferryAdapter.documents["/ferry.md"]? = some ferryDocument := by
  have configured : ferryConfigured.documents["/ferry.md"]? = some ⟨.everyone, 5, []⟩ := by
    decide
  have created := snapshot_created ferryHost ferryConfigured "/ferry.md"
    (ferrySource "Every hour.\n") ferryTime ⟨.everyone, 5, []⟩ "Every hour.\n".toUTF8 configured (by decide)
    (by simp) (by decide)
  rw [ferryAdapter, created]
  exact Std.ExtTreeMap.getElem?_insert_self

theorem ferryLater_created :
    ferryAdapter.snapshot ferryHost "/ferry.md" (ferrySource "No ferries today.\n") modified =
      (.ok (.created 2), rebuildContentIndex { ferryAdapter with
        documents := ferryAdapter.documents.insert "/ferry.md"
          ⟨.everyone, 5, [ferryHeld, ferryCurrent modified]⟩ }) :=
  snapshot_created ferryHost ferryAdapter "/ferry.md" (ferrySource "No ferries today.\n") modified
    ferryDocument "No ferries today.\n".toUTF8 ferryAdapter_exports (by decide)
    (by intro current last; cases last; decide) (by decide)

theorem ferryLater_current :
    currentVersion ((ferryLater modified).foldl (MarkReadAdapter.perform ferryHost) ferryAdapter)
      "/ferry.md" = some (ferryCurrent modified) := by
  rw [ferryLater, List.foldl_cons, List.foldl_nil, MarkReadAdapter.perform, ferryLater_created,
    currentVersion]
  simp [rebuildContentIndex]

theorem ferryLater_succeeds :
    Run.Along (MarkReadAdapter.perform ferryHost) (SuccessfulSnapshot ferryHost) ferryAdapter
      (ferryLater modified) :=
  ⟨⟨.created 2, by rw [ferryLater_created]⟩, trivial⟩

theorem ferry_etags_differ :
    ferryHeld.etag ≠ (ferryCurrent modified).etag := by
  have sizes : ferryHeld.etag ≠ (ferryCurrent ferryTime).etag := by decide +kernel
  exact sizes

theorem conditional_fetch_is_fresh_ferry :
    NeverStale ferryHost
      ((ferryLater ⟨"2026-08-08T02:00:01Z"⟩).foldl (MarkReadAdapter.perform ferryHost)
        ferryAdapter) "/ferry.md" none ferryHeld (ferryCurrent ⟨"2026-08-08T02:00:01Z"⟩) :=
  (conditional_fetch_is_fresh_iff ferryHost ferryAdapter ferryAdapter_reached "/ferry.md" none
    ferryDocument ferryAdapter_exports rfl ferryHeld List.mem_cons_self
    (ferryLater ⟨"2026-08-08T02:00:01Z"⟩) (ferryLater_succeeds _)
    (ferryCurrent ⟨"2026-08-08T02:00:01Z"⟩) (ferryLater_current _)
    (fun same => absurd same (ferry_etags_differ ⟨"2026-08-08T02:00:01Z"⟩))).mpr (.inr (by decide))

/-- A second snapshot within the same second: the client keeps the first text. -/
theorem same_second_is_stale :
    Reached ferryHost ferryAdapter ∧
      Run.Along (MarkReadAdapter.perform ferryHost) (SuccessfulSnapshot ferryHost) ferryAdapter
        (ferryLater ferryTime) ∧
      currentVersion ((ferryLater ferryTime).foldl (MarkReadAdapter.perform ferryHost)
        ferryAdapter) "/ferry.md" = some (ferryCurrent ferryTime) ∧
      ferryHeld.etag ≠ (ferryCurrent ferryTime).etag ∧
      ¬ NeverStale ferryHost ((ferryLater ferryTime).foldl (MarkReadAdapter.perform ferryHost)
        ferryAdapter) "/ferry.md" none ferryHeld (ferryCurrent ferryTime) := by
  refine ⟨ferryAdapter_reached, ferryLater_succeeds _, ferryLater_current _,
    ferry_etags_differ _, ?_⟩
  intro fresh
  have stale : ferryCurrent ferryTime = ferryHeld := fresh (by decide +kernel)
  exact ferry_etags_differ ferryTime (congrArg MarkVersion.etag stale).symm

end KnotEditor.Mark
