import KnotEditor.Library.Fallible
import KnotEditor.Library.FirstHolder
import KnotEditor.Library.Run
import KnotEditor.Mark.Adapter
import KnotEditor.Mark.Resolution
import KnotEditor.Utf8
import Mathlib.Data.List.Chain

/-! A Mark document's numbered history only grows, every version of it can be fetched by its
number, and the content index names the first path that currently holds each body. -/

namespace KnotEditor.Mark

open Fallible KnotEditor.Mark.MarkReadAdapter

variable {host : MarkHost}

def latestHash (document : MarkDocument) : Option Bytes32 :=
  document.versions.getLast?.map MarkVersion.contentHash

structure VersionHistory (host : MarkHost) (versions : List MarkVersion) : Prop where
  counted : versions.length ≤ usizeMax
  ids : versions.map MarkVersion.id = List.range' 1 versions.length
  distinct : versions.IsChain fun previous current => previous.body ≠ current.body
  linked : markChainIsValid host versions = true

/-- FETCH of `path/vK` gives the K-th body and nothing else. -/
def ServesVersions (host : MarkHost) (adapter : MarkReadAdapter) (path : String)
    (document : MarkDocument) : Prop :=
  ∀ (auth : Option String) (number : Nat), document.access.allows host auth = true →
    (1 ≤ number ∧ number ≤ document.versions.length →
      ∃ version, document.versions[number - 1]? = some version ∧
        adapter.fetch host (path ++ "/v" ++ toString number) auth none none =
          .ok (versionMetadata document version (some number)) version.body) ∧
    (¬ (1 ≤ number ∧ number ≤ document.versions.length) →
      adapter.fetch host (path ++ "/v" ++ toString number) auth none none = .notFound)

structure Consistent (host : MarkHost) (adapter : MarkReadAdapter) : Prop where
  histories : ∀ (path : String) document, adapter.documents[path]? = some document →
    VersionHistory host document.versions
  served : ∀ (path : String) document, adapter.documents[path]? = some document →
    ServesVersions host adapter path document
  index : ∀ (contentHash : Bytes32) (path : String),
    adapter.currentContent[contentHash]? = some path ↔
      FirstHolder.IsFirst latestHash adapter.documents contentHash path

def KeepsHistory (host : MarkHost) (adapter : MarkReadAdapter) : MarkAction → Prop
  | .configureExport path publication access =>
    (∀ (other : String) document, adapter.documents[other]? = some document →
      ∃ after, (adapter.configureExport path publication access).2.documents[other]? =
        some after ∧ after.versions = document.versions) ∧
    ∀ error, (adapter.configureExport path publication access).1 = .error error →
      (adapter.configureExport path publication access).2 = adapter
  | .withdraw path =>
    ∀ other, other ≠ path →
      (adapter.withdraw path).2.documents[other]? = adapter.documents[other]?
  | .snapshot path source modified =>
    (∀ (other : String) document, adapter.documents[other]? = some document →
      ∃ after, (adapter.snapshot host path source modified).2.documents[other]? =
        some after ∧ document.versions <+: after.versions) ∧
    ∀ error, (adapter.snapshot host path source modified).1 = .error error →
      (adapter.snapshot host path source modified).2 = adapter

theorem markChainIsValid_iff (versions : List MarkVersion) :
    markChainIsValid host versions = true ↔
      versions.IsChain fun previous current => linksTo host previous current = true := by
  induction versions with
  | nil => simp [markChainIsValid]
  | cons previous rest ih =>
    cases rest with
    | nil => simp [markChainIsValid]
    | cons current rest =>
      rw [markChainIsValid, Bool.and_eq_true, ih, List.isChain_cons_cons]

theorem markStoredVersion_text (id : Nat) (previousHash : Option Bytes32)
    (source : KnotPublishedDocument) (markdown : String) :
    String.fromUTF8? (markStoredVersion id previousHash source markdown.toUTF8) =
      some (markStoredHeader id previousHash source ++ markdown) :=
  fromUTF8_toUTF8 (markStoredHeader id previousHash source ++ markdown)

theorem nextVersion_linked (versions : List MarkVersion) (previous : MarkVersion)
    (source : KnotPublishedDocument) (modified : MarkTimestamp) (markdown : String)
    (last : versions.getLast? = some previous) :
    linksTo host previous (nextVersion host versions source modified markdown.toUTF8) = true := by
  have text := markStoredVersion_text (versions.length + 1) (some previous.etag) source markdown
  rw [linksTo, Bool.and_eq_true]
  refine ⟨beq_iff_eq.mpr rfl, ?_⟩
  rw [nextVersion, last, Option.map_some, text, Option.any_some, decide_eq_true_eq,
    markStoredHeader, Option.map_some, Option.getD_some, String.toList_append,
    String.toList_append, String.toList_append, List.append_assoc]
  refine ⟨(versionLines (versions.length + 1)).toList,
    (markSourceLines source ++ "---\n").toList ++ markdown.toList, ?_⟩
  simp only [List.append_assoc]

theorem versionHistory_nil : VersionHistory host [] :=
  ⟨Nat.zero_le _, rfl, List.IsChain.nil, rfl⟩

theorem versionHistory_grows (versions : List MarkVersion) (source : KnotPublishedDocument)
    (modified : MarkTimestamp) (markdown : String) (history : VersionHistory host versions)
    (room : versions.length + 1 ≤ usizeMax)
    (differs : ∀ current, versions.getLast? = some current → current.body ≠ markdown.toUTF8) :
    VersionHistory host
      (versions ++ [nextVersion host versions source modified markdown.toUTF8]) where
  counted := by
    rw [List.length_append, List.length_singleton]
    exact room
  ids := by
    rw [List.map_append, history.ids, List.length_append, List.length_singleton,
      List.range'_concat, Nat.one_mul]
    simp only [List.map_cons, List.map_nil, nextVersion, Nat.add_comm]
  distinct := by
    rw [List.isChain_append]
    refine ⟨history.distinct, List.IsChain.singleton _, ?_⟩
    intro previous last current first
    cases first
    exact differs previous last
  linked := by
    rw [markChainIsValid_iff, List.isChain_append]
    refine ⟨(markChainIsValid_iff versions).mp history.linked, List.IsChain.singleton _, ?_⟩
    intro previous last current first
    cases first
    exact nextVersion_linked versions previous source modified markdown last

variable (adapter : MarkReadAdapter) (path : String) (document : MarkDocument)

theorem snapshotBody_ok (source : KnotPublishedDocument) (body : ByteArray)
    (converted : snapshotBody host adapter document source = .ok body) :
    ∃ markdown : String, body = markdown.toUTF8 := by
  simp only [snapshotBody, bind_eq_ok_iff, refuse_eq_ok_iff] at converted
  rcases converted with ⟨_, _, _, _, markdown, _, _, same⟩
  cases same
  exact ⟨markdown, rfl⟩

theorem snapshot_cases (host : MarkHost) (adapter : MarkReadAdapter) (path : String)
    (source : KnotPublishedDocument) (modified : MarkTimestamp) :
    (adapter.snapshot host path source modified).2 = adapter ∨
      ∃ document markdown, adapter.documents[path]? = some document ∧
        document.versions.length + 1 ≤ usizeMax ∧
        (∀ current, document.versions.getLast? = some current →
          current.body ≠ String.toUTF8 markdown) ∧
        adapter.snapshot host path source modified =
          (.ok (.created (document.versions.length + 1)), rebuildContentIndex { adapter with
            documents := adapter.documents.insert path { document with
              versions := document.versions ++
                [nextVersion host document.versions source modified markdown.toUTF8] } }) := by
  rw [MarkReadAdapter.snapshot]
  cases found : adapter.documents[path]? with
  | none => exact Or.inl rfl
  | some document =>
    simp only
    cases converted : snapshotBody host adapter document source with
    | error error => exact Or.inl rfl
    | ok body =>
      simp only
      cases same : document.versions.getLast?.filter fun current => current.body = body with
      | some current => exact Or.inl rfl
      | none =>
        simp only
        by_cases full : document.versions.length + 1 > usizeMax
        · rw [if_pos full]
          exact Or.inl rfl
        · rw [if_neg full]
          rcases snapshotBody_ok adapter document source body converted with
            ⟨markdown, text⟩
          refine Or.inr ⟨document, markdown, rfl, Nat.le_of_not_gt full, ?_, ?_⟩
          · intro current last
            rw [last, text] at same
            simpa using same
          · rw [text]
            rfl

theorem configureExport_cases (publication : PublicationId) (access : MarkReadAccess) :
    (∃ error, adapter.configureExport path publication access = (.error error, adapter)) ∨
      ∃ after, DocumentPath path ∧
        after.versions = (adapter.documents[path]?.map MarkDocument.versions).getD [] ∧
        adapter.configureExport path publication access =
          (.ok (), { adapter with documents := adapter.documents.insert path after }) := by
  rw [MarkReadAdapter.configureExport]
  cases checked : validateDocumentPath path with
  | error error => exact Or.inl ⟨error, rfl⟩
  | ok valid =>
    rcases validateDocumentPath_ok path valid checked with ⟨same, named⟩
    subst same
    simp only
    cases found : adapter.documents[valid]? with
    | none => exact Or.inr ⟨_, named, rfl, rfl⟩
    | some document =>
      simp only
      by_cases bound : document.publication ≠ publication
      · rw [if_pos bound]
        exact Or.inl ⟨_, rfl⟩
      · rw [if_neg bound]
        exact Or.inr ⟨{ document with access }, named, rfl, rfl⟩

theorem withdraw_cases :
    (adapter.withdraw path).2 = adapter ∨
      (adapter.withdraw path).2 =
        rebuildContentIndex { adapter with documents := adapter.documents.erase path } := by
  rw [MarkReadAdapter.withdraw]
  cases adapter.documents[path]? with
  | none => exact Or.inl rfl
  | some document => exact Or.inr rfl

structure Documented (host : MarkHost) (documents : Std.ExtTreeMap String MarkDocument) :
    Prop where
  paths : ∀ (path : String) document, documents[path]? = some document → DocumentPath path
  histories : ∀ (path : String) document, documents[path]? = some document →
    VersionHistory host document.versions

theorem documented_insert (documents : Std.ExtTreeMap String MarkDocument) (path : String)
    (document : MarkDocument) (before : Documented host documents) (named : DocumentPath path)
    (history : VersionHistory host document.versions) :
    Documented host (documents.insert path document) where
  paths := by
    intro other found held
    by_cases same : path = other
    · rwa [← same]
    · rw [Std.ExtTreeMap.getElem?_insert, if_neg (by simpa using same)] at held
      exact before.paths other found held
  histories := by
    intro other found held
    by_cases same : path = other
    · rw [← same, Std.ExtTreeMap.getElem?_insert_self] at held
      cases held
      exact history
    · rw [Std.ExtTreeMap.getElem?_insert, if_neg (by simpa using same)] at held
      exact before.histories other found held

theorem documented_erase (documents : Std.ExtTreeMap String MarkDocument) (path : String)
    (before : Documented host documents) : Documented host (documents.erase path) := by
  have kept : ∀ (other : String) (document : MarkDocument),
      (documents.erase path)[other]? = some document →
        documents[other]? = some document := by
    intro other document held
    rw [Std.ExtTreeMap.getElem?_erase] at held
    by_cases same : compare path other = .eq
    · rw [if_pos same] at held
      cases held
    · rwa [if_neg same] at held
  exact ⟨fun other document held => before.paths other document (kept other document held),
    fun other document held => before.histories other document (kept other document held)⟩

def Indexed (adapter : MarkReadAdapter) : Prop :=
  ∀ (contentHash : Bytes32) (path : String),
    adapter.currentContent[contentHash]? = some path ↔
      FirstHolder.IsFirst latestHash adapter.documents contentHash path

theorem contentIndex_eq (entries : List (String × MarkDocument)) :
    contentIndex entries = FirstHolder.index latestHash entries := by
  rw [contentIndex, FirstHolder.index]
  congr 1
  funext index entry
  rw [latestHash]
  cases entry.2.versions.getLast? <;> rfl

theorem indexed_rebuild : Indexed (rebuildContentIndex adapter) := by
  intro contentHash path
  rw [rebuildContentIndex, contentIndex_eq]
  exact FirstHolder.getElem?_index_toList latestHash adapter.documents contentHash path

theorem indexed_configured (after : MarkDocument) (before : Indexed adapter)
    (kept : after.versions = (adapter.documents[path]?.map MarkDocument.versions).getD []) :
    Indexed { adapter with documents := adapter.documents.insert path after } := by
  have unchanged : ∀ other : String,
      (adapter.documents.insert path after)[other]?.bind latestHash =
        adapter.documents[other]?.bind latestHash := by
    intro other
    by_cases same : path = other
    · subst same
      rw [Std.ExtTreeMap.getElem?_insert_self, Option.bind_some, latestHash, kept]
      cases adapter.documents[path]? with
      | none => rfl
      | some document => rfl
    · rw [Std.ExtTreeMap.getElem?_insert, if_neg (by simpa using same)]
  intro contentHash holder
  rw [before contentHash holder]
  simp only [FirstHolder.IsFirst, unchanged]

structure Sound (host : MarkHost) (adapter : MarkReadAdapter) : Prop where
  documented : Documented host adapter.documents
  indexed : Indexed adapter

theorem sound_new (limit : Nat) : Sound host (MarkReadAdapter.new limit) where
  documented := ⟨by simp [MarkReadAdapter.new], by simp [MarkReadAdapter.new]⟩
  indexed := by
    intro contentHash path
    simp [MarkReadAdapter.new, FirstHolder.IsFirst]

theorem sound_perform (action : MarkAction) (sound : Sound host adapter)
    : Sound host (adapter.perform host action) := by
  cases action with
  | configureExport path publication access =>
    rcases configureExport_cases adapter path publication access with
      ⟨error, refused⟩ | ⟨after, named, kept, done⟩
    · rw [MarkReadAdapter.perform, refused]
      exact sound
    · rw [MarkReadAdapter.perform, done]
      refine ⟨documented_insert _ path after sound.documented named ?_,
        indexed_configured adapter path after sound.indexed kept⟩
      rw [kept]
      cases found : adapter.documents[path]? with
      | none => exact versionHistory_nil
      | some document => exact sound.documented.histories path document found
  | withdraw path =>
    rcases withdraw_cases adapter path with kept | erased
    · rw [MarkReadAdapter.perform, kept]
      exact sound
    · rw [MarkReadAdapter.perform, erased]
      exact ⟨documented_erase adapter.documents path sound.documented, indexed_rebuild _⟩
  | snapshot path source modified =>
    rcases snapshot_cases host adapter path source modified with
      kept | ⟨document, markdown, found, room, differs, done⟩
    · rw [MarkReadAdapter.perform, kept]
      exact sound
    · rw [MarkReadAdapter.perform, done]
      have named := sound.documented.paths path document found
      have history := sound.documented.histories path document found
      exact ⟨documented_insert _ path _ sound.documented named
        (versionHistory_grows document.versions source modified markdown history room differs),
        indexed_rebuild _⟩

theorem fetch_version (host : MarkHost) (adapter : MarkReadAdapter) (path : String)
    (document : MarkDocument) (auth : Option String) (digits : List Char) (named : DocumentPath path)
    (held : adapter.documents[path]? = some document) (written : digits ≠ [])
    (numeric : ∀ character ∈ digits, isAsciiDigit character = true) :
    adapter.fetch host (path ++ "/v" ++ String.ofList digits) auth none none =
      match parseU64 digits with
      | some (version + 1) => fetchDocument host document (some (version + 1)) auth none none
      | _ => .notFound := by
  have resolved := resolveMarkPath_version path digits named.toRequestPath written numeric
  have undotted : '.' ∉ "/health".toList := by decide
  have located : path ++ "/v" ++ String.ofList digits ≠ "/health" := by
    intro same
    apply undotted
    rw [← same, String.toList_append, String.toList_append]
    have dotted : '.' ∈ path.toList := named.extension.subset List.mem_cons_self
    exact List.mem_append_left _ (List.mem_append_left _ dotted)
  rw [fetch, if_neg located, resolved]
  cases parseU64 digits with
  | none => rfl
  | some number =>
    cases number with
    | zero => rfl
    | succ version =>
      simp only [locate, parseContentHash_documentPath path named.extension,
        Option.bind_some, held]

theorem isAsciiDigit_of_mem_toDigits (number : Nat) :
    ∀ character ∈ Nat.toDigits 10 number, isAsciiDigit character = true := by
  intro character member
  have digit := Nat.isDigit_of_mem_toDigits (by decide) (by decide) member
  simpa [isAsciiDigit, Char.isDigit, Char.le_def] using digit

theorem serveVersion_unconditional (version : MarkVersion) (requested : Option Nat) :
    serveVersion document version requested none none =
      .ok (versionMetadata document version requested) version.body := by
  rw [serveVersion, if_neg (by simp)]

theorem servesVersions (named : DocumentPath path) (history : VersionHistory host document.versions)
    (held : adapter.documents[path]? = some document) :
    ServesVersions host adapter path document := by
  intro auth number allowed
  have fetched := fetch_version host adapter path document auth (Nat.toDigits 10 number)
    named held Nat.toDigits_ne_nil (isAsciiDigit_of_mem_toDigits number)
  have written : toString number = String.ofList (Nat.toDigits 10 number) := rfl
  rw [written, fetched, parseU64, Nat.ofDigitChars_ten_toDigits]
  have counted := history.counted
  have limit : usizeMax = 2 ^ 64 - 1 := rfl
  constructor
  · rintro ⟨positive, bounded⟩
    cases number with
    | zero => omega
    | succ version =>
      have small : version + 1 < 2 ^ 64 := by omega
      have present : version < document.versions.length := by omega
      refine ⟨document.versions[version], List.getElem?_eq_getElem present, ?_⟩
      simp only [if_pos small, fetchDocument, allowed, selectVersion, Nat.add_sub_cancel,
        List.getElem?_eq_getElem present, Bool.not_true, Bool.false_eq_true, if_false,
        serveVersion_unconditional]
  · intro outside
    by_cases small : number < 2 ^ 64
    · simp only [if_pos small]
      cases number with
      | zero => rfl
      | succ version =>
        have absent : document.versions.length ≤ version := by omega
        simp only [fetchDocument, allowed, selectVersion, Nat.add_sub_cancel,
          List.getElem?_eq_none absent]
        rfl
    · simp only [if_neg small]

theorem consistent_of_sound (sound : Sound host adapter) :
    Consistent host adapter where
  histories := sound.documented.histories
  served := by
    intro path document held
    exact servesVersions adapter path document (sound.documented.paths path document held)
      (sound.documented.histories path document held) held
  index := sound.indexed

theorem documents_perform_other (host : MarkHost) (adapter : MarkReadAdapter) (action : MarkAction)
    (other : String) (elsewhere : action.path ≠ other) :
    (adapter.perform host action).documents[other]? = adapter.documents[other]? := by
  have inserted : ∀ document : MarkDocument,
      (adapter.documents.insert action.path document)[other]? = adapter.documents[other]? := by
    intro document
    rw [Std.ExtTreeMap.getElem?_insert, if_neg (by simpa using elsewhere)]
  cases action with
  | configureExport path publication access =>
    rcases configureExport_cases adapter path publication access with
      ⟨error, refused⟩ | ⟨after, named, kept, done⟩
    · rw [MarkReadAdapter.perform, refused]
    · rw [MarkReadAdapter.perform, done]
      exact inserted after
  | withdraw path =>
    rcases withdraw_cases adapter path with kept | erased
    · rw [MarkReadAdapter.perform, kept]
    · rw [MarkReadAdapter.perform, erased]
      show (adapter.documents.erase path)[other]? = adapter.documents[other]?
      rw [Std.ExtTreeMap.getElem?_erase, if_neg (by simpa [MarkAction.path] using elsewhere)]
  | snapshot path source modified =>
    rcases snapshot_cases host adapter path source modified with
      kept | ⟨document, markdown, found, room, differs, done⟩
    · rw [MarkReadAdapter.perform, kept]
    · rw [MarkReadAdapter.perform, done]
      exact inserted _

theorem keepsHistory_perform (action : MarkAction) :
    KeepsHistory host adapter action := by
  have elsewhere := documents_perform_other host adapter action
  cases action with
  | configureExport path publication access =>
    constructor
    · intro other document held
      by_cases same : path = other
      · subst same
        rcases configureExport_cases adapter path publication access with
          ⟨error, refused⟩ | ⟨after, named, kept, done⟩
        · rw [refused]
          exact ⟨document, held, rfl⟩
        · rw [held] at kept
          rw [done]
          exact ⟨after, Std.ExtTreeMap.getElem?_insert_self, kept⟩
      · exact ⟨document, (elsewhere other same).trans held, rfl⟩
    · intro error failed
      rcases configureExport_cases adapter path publication access with
        ⟨_, refused⟩ | ⟨after, named, kept, done⟩
      · rw [refused]
      · rw [done] at failed
        cases failed
  | withdraw path =>
    intro other differs
    exact elsewhere other (Ne.symm differs)
  | snapshot path source modified =>
    constructor
    · intro other document held
      by_cases same : path = other
      · subst same
        rcases snapshot_cases host adapter path source modified with
          kept | ⟨grown, markdown, found, room, differs, done⟩
        · rw [kept]
          exact ⟨document, held, List.prefix_rfl⟩
        · rw [done]
          rw [found] at held
          cases held
          exact ⟨_, Std.ExtTreeMap.getElem?_insert_self, List.prefix_append _ _⟩
      · exact ⟨document, (elsewhere other same).trans held, List.prefix_rfl⟩
    · intro error failed
      rcases snapshot_cases host adapter path source modified with
        kept | ⟨document, markdown, found, room, differs, done⟩
      · exact kept
      · rw [done] at failed
        cases failed

/-- Whatever is configured, withdrawn and snapshotted, in whatever order. -/
theorem mark_history_is_append_only (host : MarkHost) (limit : Nat) (actions : List MarkAction) :
    Run.Along (MarkReadAdapter.perform host) (KeepsHistory host) (MarkReadAdapter.new limit)
        actions ∧
      Consistent host (actions.foldl (MarkReadAdapter.perform host)
        (MarkReadAdapter.new limit)) := by
  refine ⟨Run.along_always keepsHistory_perform actions _, ?_⟩
  apply consistent_of_sound
  have along : Run.Along (MarkReadAdapter.perform host) (fun _ _ => True)
      (MarkReadAdapter.new limit) actions := Run.along_always (fun _ _ => trivial) actions _
  exact Run.invariant_run (fun state action sound _ => sound_perform state action sound)
    actions _ (sound_new limit) along

end KnotEditor.Mark
