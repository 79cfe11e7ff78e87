import KnotEditor.FileCatalog
import KnotEditor.Library.Fallible
import KnotEditor.Library.Run

/-! Every reachable catalog passes its own validation, and its file opens to the same state. -/

namespace KnotEditor

open Fallible

variable {host : CatalogHost}

def CatalogJsonRoundTrips (host : CatalogHost) : Prop :=
  ∀ state bytes, host.toVec state = .ok bytes → host.fromSlice bytes = .ok state

def StoredCatalog.ids (state : StoredCatalog) : List String :=
  state.bindings.map StoredBinding.id

def StoredCatalog.paths (state : StoredCatalog) : List FilePath :=
  state.bindings.map StoredBinding.relativePath

structure ValidBindings (host : CatalogHost) (bindings : List StoredBinding) : Prop where
  documentIds : ∀ binding ∈ bindings, validateDocumentId host binding.id = .ok ()
  relativePaths : ∀ binding ∈ bindings,
    validateRelativePath host binding.relativePath = .ok ()
  ids : (bindings.map StoredBinding.id).Nodup
  paths : (bindings.map StoredBinding.relativePath).Nodup

theorem validateBindings_eq_ok_iff (bindings : List StoredBinding) :
    ∀ (ids : List String) (paths : List FilePath),
      (validateBindings host ids paths bindings = .ok () ↔
        (∀ binding ∈ bindings, validateDocumentId host binding.id = .ok ()) ∧
          (∀ binding ∈ bindings, validateRelativePath host binding.relativePath = .ok ()) ∧
            ((bindings.map StoredBinding.id).Nodup ∧
              ∀ binding ∈ bindings, binding.id ∉ ids) ∧
            ((bindings.map StoredBinding.relativePath).Nodup ∧
              ∀ binding ∈ bindings, binding.relativePath ∉ paths)) := by
  induction bindings with
  | nil =>
    intro ids paths
    simp [validateBindings]
  | cons binding rest ih =>
    intro ids paths
    simp only [validateBindings, then_eq_ok_iff, refuse_eq_ok_iff, ih, List.forall_mem_cons,
      List.map_cons, List.nodup_cons, List.mem_map]
    simp only [List.mem_cons, not_or]
    constructor
    · rintro ⟨documentId, relativePath, newId, newPath, documentIds, relativePaths,
        ⟨ids, freshIds⟩, paths, freshPaths⟩
      refine ⟨⟨documentId, documentIds⟩, ⟨relativePath, relativePaths⟩,
        ⟨⟨?_, ids⟩, newId, fun other member => (freshIds other member).2⟩,
        ⟨⟨?_, paths⟩, newPath, fun other member => (freshPaths other member).2⟩⟩
      · rintro ⟨other, member, same⟩
        exact (freshIds other member).1 same
      · rintro ⟨other, member, same⟩
        exact (freshPaths other member).1 same
    · rintro ⟨⟨documentId, documentIds⟩, ⟨relativePath, relativePaths⟩,
        ⟨⟨aloneId, ids⟩, newId, freshIds⟩, ⟨alonePath, paths⟩, newPath, freshPaths⟩
      refine ⟨documentId, relativePath, newId, newPath, documentIds, relativePaths,
        ⟨ids, ?_⟩, paths, ?_⟩
      · intro other member
        exact ⟨fun same => aloneId ⟨other, member, same⟩, freshIds other member⟩
      · intro other member
        exact ⟨fun same => alonePath ⟨other, member, same⟩, freshPaths other member⟩

theorem validateState_eq_ok_iff (state : StoredCatalog) (root : FilePath) :
    validateState host state root = .ok () ↔
      state.version = Catalog.version ∧ state.root = root ∧ ValidBindings host state.bindings := by
  have bindings := @validateBindings_eq_ok_iff host state.bindings [] []
  by_cases versions : state.version = Catalog.version
  · by_cases roots : state.root = root
    · simp only [validateState, versions, roots, ne_eq, not_true, if_false, true_and, bindings]
      constructor
      · rintro ⟨documentIds, relativePaths, ⟨ids, _⟩, paths, _⟩
        exact ⟨documentIds, relativePaths, ids, paths⟩
      · intro valid
        exact ⟨valid.documentIds, valid.relativePaths, ⟨valid.ids, fun _ _ => List.not_mem_nil⟩,
          valid.paths, fun _ _ => List.not_mem_nil⟩
    · simp [validateState, versions, roots]
  · simp [validateState, versions]

theorem issued_documentId (uuid : String) (drawn : host.parseUuid uuid = .ok 4) :
    validateDocumentId host (Catalog.documentIdPrefix ++ uuid) = .ok () := by
  have front : Catalog.documentIdPrefix.toList.isPrefixOf
      (Catalog.documentIdPrefix ++ uuid).toList = true := by
    rw [String.toList_append, List.isPrefixOf_iff_prefix]
    exact List.prefix_append _ _
  have rest : String.ofList ((Catalog.documentIdPrefix ++ uuid).toList.drop
      Catalog.documentIdPrefix.toList.length) = uuid := by
    rw [String.toList_append, List.drop_left, String.ofList_toList]
  simp only [validateDocumentId, front, if_true, rest, drawn, ne_eq, not_true, if_false]

namespace KnotFileCatalog

variable (files : FileSystem) (id : String) (relative : FilePath) (catalog : KnotFileCatalog)
  (bindings : List StoredBinding)

theorem canonicalFileRelative_valid (path relative : FilePath)
    (resolved : canonicalFileRelative host files catalog path = .ok relative) :
    validateRelativePath host relative = .ok () := by
  simp only [canonicalFileRelative, bind_eq_ok_iff, refuse_eq_ok_iff] at resolved
  rcases resolved with ⟨canonical, _, _, _, _, stripped⟩
  rw [relativeFromCanonical] at stripped
  cases inside : FilePath.stripPrefix canonical catalog.root with
  | none =>
    rw [inside] at stripped
    cases stripped
  | some other =>
    rw [inside] at stripped
    simp only [then_eq_ok_iff] at stripped
    rcases stripped with ⟨valid, same⟩
    cases same
    exact valid

theorem persistState_ok (state : StoredCatalog) (faults : BackendFaults) (bytes : ByteArray)
    (persisted : persistState host state faults = .ok bytes) : host.toVec state = .ok bytes := by
  rw [persistState] at persisted
  cases encoded : host.toVec state with
  | error error =>
    rw [encoded] at persisted
    cases persisted
  | ok written =>
    rw [encoded] at persisted
    cases put : faults.put with
    | some error =>
      simp only [put] at persisted
      cases persisted
    | none =>
      simp only [put] at persisted
      cases persisted
      rfl

structure Sound (host : CatalogHost) (catalog : KnotFileCatalog) : Prop where
  valid : validateState host catalog.state catalog.root = .ok ()
  saved : ∃ bytes, catalog.stored = some bytes ∧ host.fromSlice bytes = .ok catalog.state

theorem persist_ok (catalog saved : KnotFileCatalog) (next : StoredCatalog)
    (faults : BackendFaults) (persisted : persist host catalog next faults = .ok saved) :
    saved.root = catalog.root ∧ saved.state = next ∧
      ∃ bytes, saved.stored = some bytes ∧ host.toVec next = .ok bytes := by
  simp only [persist, bind_eq_ok_iff] at persisted
  rcases persisted with ⟨bytes, put, same⟩
  cases same
  exact ⟨rfl, rfl, bytes, rfl, persistState_ok next faults bytes put⟩

theorem persist_sound (roundTrips : CatalogJsonRoundTrips host) (catalog saved : KnotFileCatalog)
    (bindings : List StoredBinding) (faults : BackendFaults) (sound : catalog.Sound host)
    (valid : ValidBindings host bindings)
    (persisted : persist host catalog { catalog.state with bindings } faults = .ok saved) :
    saved.Sound host := by
  rcases persist_ok catalog saved _ faults persisted with ⟨root, state, bytes, stored, encoded⟩
  rcases (validateState_eq_ok_iff _ _).mp sound.valid with ⟨version, sameRoot, _⟩
  refine ⟨?_, bytes, stored, ?_⟩
  · rw [root, state]
    exact (validateState_eq_ok_iff _ _).mpr ⟨version, sameRoot, valid⟩
  · rw [state]
    exact roundTrips _ bytes encoded

theorem bind_cases (path : FilePath) (uuid : String) (faults : BackendFaults) :
    (∃ error, catalog.bind host files path uuid faults = (.error error, catalog)) ∨
      (∃ binding ∈ catalog.state.bindings,
        canonicalFileRelative host files catalog path = .ok binding.relativePath ∧
          catalog.bind host files path uuid faults = (.ok binding.id, catalog)) ∨
      ∃ relative bindings saved,
        canonicalFileRelative host files catalog path = .ok relative ∧
          relative ∉ catalog.state.paths ∧
            bindings.Perm (⟨Catalog.documentIdPrefix ++ uuid, relative⟩ ::
              catalog.state.bindings) ∧
              persist host catalog { catalog.state with bindings } faults = .ok saved ∧
                catalog.bind host files path uuid faults =
                  (.ok (Catalog.documentIdPrefix ++ uuid), saved) := by
  rw [KnotFileCatalog.bind]
  cases resolved : canonicalFileRelative host files catalog path with
  | error error => exact Or.inl ⟨error, rfl⟩
  | ok relative =>
    cases found : catalog.state.bindings.find? fun binding =>
        binding.relativePath = relative with
    | some binding =>
      have matched := List.find?_some found
      have same : binding.relativePath = relative := of_decide_eq_true matched
      refine Or.inr (Or.inl ⟨binding, List.mem_of_find?_eq_some found, ?_, ?_⟩)
      · rw [same]
      · simp only [found]
    | none =>
      have unbound : relative ∉ catalog.state.paths := by
        intro member
        rcases List.mem_map.mp member with ⟨binding, inside, same⟩
        exact List.find?_eq_none.mp found binding inside (decide_eq_true same)
      have sorted : ((catalog.state.bindings ++
          [StoredBinding.mk (Catalog.documentIdPrefix ++ uuid) relative]).mergeSort
            fun left right => decide (left.id ≤ right.id)).Perm
          (⟨Catalog.documentIdPrefix ++ uuid, relative⟩ :: catalog.state.bindings) :=
        (List.mergeSort_perm _ _).trans (List.perm_append_singleton _ _)
      simp only [found]
      cases persisted : persist host catalog { catalog.state with
          bindings := (catalog.state.bindings ++
            [StoredBinding.mk (Catalog.documentIdPrefix ++ uuid) relative]).mergeSort
              fun left right => decide (left.id ≤ right.id) } faults with
      | error error => exact Or.inl ⟨error, rfl⟩
      | ok saved =>
        exact Or.inr (Or.inr ⟨relative, _, saved, rfl, unbound, sorted, persisted, rfl⟩)

theorem moveBinding_eq_map (distinct : (bindings.map StoredBinding.id).Nodup) :
    moveBinding id relative bindings = bindings.map fun binding =>
      if binding.id = id then { binding with relativePath := relative } else binding := by
  induction bindings with
  | nil => rfl
  | cons binding rest ih =>
    rw [List.map_cons, List.nodup_cons] at distinct
    by_cases here : binding.id = id
    · have others : rest.map (fun binding =>
          if binding.id = id then { binding with relativePath := relative } else binding) =
          rest := by
        refine (List.map_congr_left ?_).trans (List.map_id rest)
        intro other member
        refine if_neg ?_
        intro same
        exact distinct.1 (here.trans same.symm ▸ List.mem_map_of_mem member)
      simp only [moveBinding, here, if_true, List.map_cons, others]
    · simp only [moveBinding, here, if_false, List.map_cons, ih distinct.2]

theorem moveBinding_ids :
    (moveBinding id relative bindings).map StoredBinding.id =
      bindings.map StoredBinding.id := by
  induction bindings with
  | nil => rfl
  | cons binding rest ih =>
    by_cases here : binding.id = id
    · simp only [moveBinding, here, if_true, List.map_cons]
    · simp only [moveBinding, here, if_false, List.map_cons, ih]

theorem rebind_cases (id : String) (newPath : FilePath) (faults : BackendFaults) :
    (∃ error, catalog.rebind host files id newPath faults = (.error error, catalog)) ∨
      ∃ relative saved, id ∈ catalog.state.ids ∧
        canonicalFileRelative host files catalog newPath = .ok relative ∧
          relative ∉ catalog.state.paths ∧
            persist host catalog { catalog.state with
              bindings := moveBinding id relative catalog.state.bindings } faults = .ok saved ∧
              catalog.rebind host files id newPath faults = (.ok (), saved) := by
  cases prepared : rebindPrepared host files catalog id newPath faults with
  | error error =>
    refine Or.inl ⟨error, ?_⟩
    rw [rebind, prepared]
  | ok saved =>
    have answered : catalog.rebind host files id newPath faults = (.ok (), saved) := by
      rw [rebind, prepared]
    rw [rebindPrepared] at prepared
    cases found : catalog.state.bindings.find? fun binding => binding.id = id with
    | none =>
      simp only [found] at prepared
      cases prepared
    | some current =>
      simp only [found, bind_eq_ok_iff, refuse_eq_ok_iff, List.any_eq_true,
        decide_eq_true_eq] at prepared
      rcases prepared with ⟨_, _, relative, resolved, unbound, persisted⟩
      have known : id ∈ catalog.state.ids := by
        have matched := List.find?_some found
        have same : current.id = id := of_decide_eq_true matched
        exact List.mem_map.mpr ⟨current, List.mem_of_find?_eq_some found, same⟩
      have free : relative ∉ catalog.state.paths := by
        intro member
        exact unbound (List.mem_map.mp member)
      exact Or.inr ⟨relative, saved, known, resolved, free, persisted, answered⟩

theorem validBindings_add (bindings grown : List StoredBinding) (id : String)
    (relative : FilePath) (valid : ValidBindings host bindings)
    (shape : grown.Perm (⟨id, relative⟩ :: bindings))
    (documentId : validateDocumentId host id = .ok ())
    (relativePath : validateRelativePath host relative = .ok ())
    (freshId : id ∉ bindings.map StoredBinding.id)
    (freshPath : relative ∉ bindings.map StoredBinding.relativePath) :
    ValidBindings host grown where
  documentIds := by
    intro binding member
    rcases List.mem_cons.mp (shape.mem_iff.mp member) with new | old
    · rw [new]
      exact documentId
    · exact valid.documentIds binding old
  relativePaths := by
    intro binding member
    rcases List.mem_cons.mp (shape.mem_iff.mp member) with new | old
    · rw [new]
      exact relativePath
    · exact valid.relativePaths binding old
  ids := (shape.map StoredBinding.id).nodup_iff.mpr (List.nodup_cons.mpr ⟨freshId, valid.ids⟩)
  paths := (shape.map StoredBinding.relativePath).nodup_iff.mpr
    (List.nodup_cons.mpr ⟨freshPath, valid.paths⟩)

theorem moveBinding_mem (binding : StoredBinding)
    (member : binding ∈ moveBinding id relative bindings) :
    binding ∈ bindings ∨
      ∃ old ∈ bindings, old.id = id ∧ binding = { old with relativePath := relative } := by
  induction bindings with
  | nil => cases member
  | cons first rest ih =>
    by_cases here : first.id = id
    · simp only [moveBinding, here, if_true, List.mem_cons] at member
      rcases member with moved | kept
      · refine Or.inr ⟨first, List.mem_cons_self, here, ?_⟩
        rw [moved, here]
      · exact Or.inl (List.mem_cons_of_mem _ kept)
    · simp only [moveBinding, here, if_false, List.mem_cons] at member
      rcases member with same | kept
      · exact Or.inl (List.mem_cons.mpr (Or.inl same))
      · rcases ih kept with old | ⟨old, inside, known, same⟩
        · exact Or.inl (List.mem_cons_of_mem _ old)
        · exact Or.inr ⟨old, List.mem_cons_of_mem _ inside, known, same⟩

theorem moveBinding_paths_nodup (distinct : (bindings.map StoredBinding.relativePath).Nodup)
    (free : relative ∉ bindings.map StoredBinding.relativePath) :
    ((moveBinding id relative bindings).map StoredBinding.relativePath).Nodup := by
  induction bindings with
  | nil => exact List.nodup_nil
  | cons first rest ih =>
    rw [List.map_cons, List.nodup_cons] at distinct
    rw [List.map_cons, List.mem_cons, not_or] at free
    by_cases here : first.id = id
    · simp only [moveBinding, here, if_true, List.map_cons, List.nodup_cons]
      exact ⟨free.2, distinct.2⟩
    · simp only [moveBinding, here, if_false, List.map_cons, List.nodup_cons]
      refine ⟨?_, ih distinct.2 free.2⟩
      intro member
      rcases List.mem_map.mp member with ⟨binding, inside, same⟩
      rcases moveBinding_mem id relative rest binding inside with old | ⟨old, _, _, moved⟩
      · exact distinct.1 (same ▸ List.mem_map_of_mem old)
      · rw [moved] at same
        exact free.1 same

theorem validBindings_move (id : String) (relative : FilePath) (valid : ValidBindings host bindings)
    (relativePath : validateRelativePath host relative = .ok ())
    (free : relative ∉ bindings.map StoredBinding.relativePath) :
    ValidBindings host (moveBinding id relative bindings) where
  documentIds := by
    intro binding member
    rcases moveBinding_mem id relative bindings binding member with old | ⟨old, inside, _, moved⟩
    · exact valid.documentIds binding old
    · rw [moved]
      exact valid.documentIds old inside
  relativePaths := by
    intro binding member
    rcases moveBinding_mem id relative bindings binding member with old | ⟨old, _, _, moved⟩
    · exact valid.relativePaths binding old
    · rw [moved]
      exact relativePath
  ids := by
    rw [moveBinding_ids]
    exact valid.ids
  paths := moveBinding_paths_nodup id relative bindings valid.paths free

def Reopens (host : CatalogHost) (catalog : KnotFileCatalog) : Prop :=
  ∀ (files : FileSystem) (rootPath catalogPath catalogFile : FilePath) (faults : BackendFaults),
    canonicalRoot host files rootPath = .ok catalog.root →
      canonicalCatalogPath host files catalogPath = .ok catalogFile →
        FilePath.startsWith catalogFile catalog.root = false →
          faults.openBackend = none → faults.get = none →
            KnotFileCatalog.open host files rootPath catalogPath catalog.stored faults =
              .ok catalog

theorem sound_reopens (sound : catalog.Sound host) :
    catalog.Reopens host := by
  intro files rootPath catalogPath catalogFile faults rooted located outside opens gets
  rcases sound.saved with ⟨bytes, stored, decoded⟩
  have loaded : loadState host catalog.root (some bytes) faults =
      .ok (catalog.state, bytes) := by
    simp only [loadState, bind_eq_ok_iff, mapError_eq_ok_iff]
    exact ⟨catalog.state, decoded, (), sound.valid, rfl⟩
  simp only [KnotFileCatalog.open, bind_eq_ok_iff, refuse_eq_ok_iff]
  refine ⟨catalog.root, rooted, catalogFile, located, ?_, (), ?_, (), ?_, (catalog.state, bytes),
    ?_, ?_⟩
  · rw [outside]
    exact Bool.false_ne_true
  · rw [opens]
    rfl
  · rw [gets]
    rfl
  · rw [stored]
    exact loaded
  · rw [← stored]

theorem open_sound (roundTrips : CatalogJsonRoundTrips host) (files : FileSystem)
    (rootPath catalogPath : FilePath) (stored : Option ByteArray) (faults : BackendFaults)
    (catalog : KnotFileCatalog)
    (opened : KnotFileCatalog.open host files rootPath catalogPath stored faults = .ok catalog) :
    catalog.Sound host := by
  simp only [KnotFileCatalog.open, bind_eq_ok_iff, refuse_eq_ok_iff] at opened
  rcases opened with ⟨root, _, _, _, _, _, _, _, _, ⟨state, bytes⟩, loaded, same⟩
  cases same
  cases stored with
  | some read =>
    simp only [loadState, bind_eq_ok_iff, mapError_eq_ok_iff] at loaded
    rcases loaded with ⟨_, decoded, _, valid, same⟩
    cases same
    exact ⟨valid, bytes, rfl, decoded⟩
  | none =>
    simp only [loadState, bind_eq_ok_iff] at loaded
    rcases loaded with ⟨written, persisted, same⟩
    cases same
    refine ⟨?_, bytes, rfl, roundTrips _ bytes (persistState_ok _ faults bytes persisted)⟩
    exact (validateState_eq_ok_iff _ _).mpr ⟨rfl, rfl, by intros; contradiction, by intros; contradiction, List.nodup_nil, List.nodup_nil⟩

end KnotFileCatalog

open KnotFileCatalog

def FreshDraw (host : CatalogHost) (catalog : KnotFileCatalog) : CatalogCall → Prop
  | .bind _ _ uuid _ => host.parseUuid uuid = .ok 4 ∧
      Catalog.documentIdPrefix ++ uuid ∉ catalog.state.ids
  | .rebind _ _ _ _ => True

theorem sound_catalog_perform (roundTrips : CatalogJsonRoundTrips host)
    (catalog : KnotFileCatalog) (call : CatalogCall) (sound : catalog.Sound host)
    (fresh : FreshDraw host catalog call) : (catalog.perform host call).Sound host := by
  have valid := ((validateState_eq_ok_iff _ _).mp sound.valid).2.2
  cases call with
  | bind files path uuid faults =>
    simp only [perform]
    rcases bind_cases files catalog path uuid faults with
      ⟨error, refused⟩ | ⟨binding, _, _, existing⟩ |
      ⟨relative, bindings, saved, resolved, unbound, shape, persisted, issued⟩
    · rw [refused]
      exact sound
    · rw [existing]
      exact sound
    · rw [issued]
      have grown := validBindings_add catalog.state.bindings bindings _ relative valid shape
        (issued_documentId uuid fresh.1)
        (canonicalFileRelative_valid files catalog path relative resolved) fresh.2 unbound
      exact persist_sound roundTrips catalog saved bindings faults sound grown persisted
  | rebind files id newPath faults =>
    simp only [perform]
    rcases rebind_cases files catalog id newPath faults with
      ⟨error, refused⟩ | ⟨relative, saved, _, resolved, unbound, persisted, answered⟩
    · rw [refused]
      exact sound
    · rw [answered]
      have moved := validBindings_move catalog.state.bindings id relative valid
        (canonicalFileRelative_valid files catalog newPath relative resolved) unbound
      exact persist_sound roundTrips catalog saved _ faults sound moved persisted

structure ExactBind (host : CatalogHost) (files : FileSystem) (catalog : KnotFileCatalog)
    (path : FilePath) (outcome : Except String String × KnotFileCatalog) : Prop where
  refused : ∀ error, outcome.1 = .error error → outcome.2 = catalog
  existing : ∀ binding ∈ catalog.state.bindings,
    canonicalFileRelative host files catalog path = .ok binding.relativePath →
      outcome = (.ok binding.id, catalog)
  issued : ∀ id, outcome.1 = .ok id → ∃ relative,
    canonicalFileRelative host files catalog path = .ok relative ∧
      ⟨id, relative⟩ ∈ outcome.2.state.bindings ∧
        (outcome.2 = catalog ∨ id ∉ catalog.state.ids ∧
          outcome.2.state.bindings.Perm (⟨id, relative⟩ :: catalog.state.bindings))

structure ExactRebind (host : CatalogHost) (files : FileSystem) (catalog : KnotFileCatalog)
    (id : String) (newPath : FilePath) (outcome : Except String Unit × KnotFileCatalog) :
    Prop where
  refused : ∀ error, outcome.1 = .error error → outcome.2 = catalog
  moved : outcome.1 = .ok () → id ∈ catalog.state.ids ∧ ∃ relative,
    canonicalFileRelative host files catalog newPath = .ok relative ∧
      relative ∉ catalog.state.paths ∧
        outcome.2.state.bindings = catalog.state.bindings.map fun binding =>
          if binding.id = id then { binding with relativePath := relative } else binding

def ExactCatalogCall (host : CatalogHost) (catalog : KnotFileCatalog) : CatalogCall → Prop
  | .bind files path uuid faults =>
    ExactBind host files catalog path (catalog.bind host files path uuid faults)
  | .rebind files id newPath faults =>
    ExactRebind host files catalog id newPath (catalog.rebind host files id newPath faults)

theorem bind_existing (files : FileSystem) (catalog : KnotFileCatalog) (path : FilePath)
    (uuid : String) (faults : BackendFaults) (sound : catalog.Sound host) :
    ∀ binding ∈ catalog.state.bindings,
      canonicalFileRelative host files catalog path = .ok binding.relativePath →
        catalog.bind host files path uuid faults = (.ok binding.id, catalog) := by
  intro binding member resolved
  have valid := ((validateState_eq_ok_iff _ _).mp sound.valid).2.2
  cases found : catalog.state.bindings.find? fun other =>
      other.relativePath = binding.relativePath with
  | none =>
    exact absurd (decide_eq_true rfl) (List.find?_eq_none.mp found binding member)
  | some other =>
    have matched := List.find?_some found
    have same : other = binding := List.inj_on_of_nodup_map valid.paths
      (List.mem_of_find?_eq_some found) member (of_decide_eq_true matched)
    simp only [KnotFileCatalog.bind, resolved, found, same]

theorem exact_catalog_perform (catalog : KnotFileCatalog) (call : CatalogCall)
    (sound : catalog.Sound host) (fresh : FreshDraw host catalog call) :
    ExactCatalogCall host catalog call := by
  have valid := ((validateState_eq_ok_iff _ _).mp sound.valid).2.2
  cases call with
  | bind files path uuid faults =>
    have existing := bind_existing files catalog path uuid faults sound
    simp only [ExactCatalogCall]
    rcases bind_cases files catalog path uuid faults with
      ⟨error, refused⟩ | ⟨binding, member, resolved, found⟩ |
      ⟨relative, bindings, saved, resolved, unbound, shape, persisted, issued⟩
    · rw [refused] at existing ⊢
      exact ⟨fun _ _ => rfl, existing, by intros; contradiction⟩
    · rw [found] at existing ⊢
      refine ⟨fun _ _ => rfl, existing, ?_⟩
      intro id answered
      cases answered
      exact ⟨binding.relativePath, resolved, member, Or.inl rfl⟩
    · rw [issued] at existing ⊢
      refine ⟨by intros; contradiction, existing, ?_⟩
      intro id answered
      cases answered
      have state := (persist_ok catalog saved _ faults persisted).2.1
      refine ⟨relative, resolved, ?_, Or.inr ⟨fresh.2, ?_⟩⟩
      · rw [state]
        exact shape.mem_iff.mpr List.mem_cons_self
      · rw [state]
        exact shape
  | rebind files id newPath faults =>
    simp only [ExactCatalogCall]
    rcases rebind_cases files catalog id newPath faults with
      ⟨error, refused⟩ | ⟨relative, saved, known, resolved, unbound, persisted, answered⟩
    · rw [refused]
      exact ⟨fun _ _ => rfl, by intros; contradiction⟩
    · rw [answered]
      refine ⟨by intros; contradiction, fun _ => ⟨known, relative, resolved, unbound, ?_⟩⟩
      have state := (persist_ok catalog saved _ faults persisted).2.1
      simp only [state]
      exact moveBinding_eq_map id relative catalog.state.bindings valid.ids

def draws (calls : List CatalogCall) : List String :=
  calls.filterMap fun call =>
    match call with
    | .bind _ _ uuid _ => some uuid
    | .rebind _ _ _ _ => none

theorem perform_ids (catalog : KnotFileCatalog) (call : CatalogCall) :
    (∀ id ∈ catalog.state.ids, id ∈ (catalog.perform host call).state.ids) ∧
      ∀ id ∈ (catalog.perform host call).state.ids, id ∈ catalog.state.ids ∨
        ∃ uuid ∈ draws [call], id = Catalog.documentIdPrefix ++ uuid := by
  cases call with
  | bind files path uuid faults =>
    simp only [perform]
    rcases bind_cases files catalog path uuid faults with
      ⟨error, refused⟩ | ⟨binding, _, _, found⟩ |
      ⟨relative, bindings, saved, _, _, shape, persisted, issued⟩
    · rw [refused]
      exact ⟨fun _ member => member, fun _ member => Or.inl member⟩
    · rw [found]
      exact ⟨fun _ member => member, fun _ member => Or.inl member⟩
    · rw [issued]
      have state := (persist_ok catalog saved _ faults persisted).2.1
      have ids : saved.state.ids.Perm
          ((Catalog.documentIdPrefix ++ uuid) :: catalog.state.ids) := by
        rw [StoredCatalog.ids, state]
        exact shape.map StoredBinding.id
      refine ⟨fun id member => ids.mem_iff.mpr (List.mem_cons_of_mem _ member), ?_⟩
      intro id member
      rcases List.mem_cons.mp (ids.mem_iff.mp member) with new | old
      · exact Or.inr ⟨uuid, List.mem_singleton_self uuid, new⟩
      · exact Or.inl old
  | rebind files id newPath faults =>
    simp only [perform]
    rcases rebind_cases files catalog id newPath faults with
      ⟨error, refused⟩ | ⟨relative, saved, _, _, _, persisted, answered⟩
    · rw [refused]
      exact ⟨fun _ member => member, fun _ member => Or.inl member⟩
    · rw [answered]
      have state := (persist_ok catalog saved _ faults persisted).2.1
      have ids : saved.state.ids = catalog.state.ids := by
        rw [StoredCatalog.ids, state]
        exact moveBinding_ids id relative catalog.state.bindings
      rw [ids]
      exact ⟨fun _ member => member, fun _ member => Or.inl member⟩

theorem run_ids (calls : List CatalogCall) (catalog : KnotFileCatalog) :
    ∀ id ∈ catalog.state.ids, id ∈ (calls.foldl (perform host) catalog).state.ids := by
  induction calls generalizing catalog with
  | nil =>
    intro id member
    exact member
  | cons call rest ih =>
    intro id member
    exact ih (catalog.perform host call) id ((perform_ids catalog call).1 id member)

theorem prefixed_inj (left right : String)
    (same : Catalog.documentIdPrefix ++ left = Catalog.documentIdPrefix ++ right) :
    left = right := by
  have lists := congrArg String.toList same
  rw [String.toList_append, String.toList_append] at lists
  exact String.toList_inj.mp (List.append_cancel_left lists)

theorem along_fresh (calls : List CatalogCall) (catalog : KnotFileCatalog)
    (versions : ∀ uuid ∈ draws calls, host.parseUuid uuid = .ok 4)
    (distinct : (draws calls).Nodup)
    (unused : ∀ uuid ∈ draws calls, Catalog.documentIdPrefix ++ uuid ∉ catalog.state.ids) :
    Run.Along (perform host) (FreshDraw host) catalog calls := by
  induction calls generalizing catalog with
  | nil => trivial
  | cons call rest ih =>
    have shape : draws (call :: rest) = draws [call] ++ draws rest := by
      rw [← List.singleton_append, draws, List.filterMap_append]
      rfl
    rw [shape] at versions distinct unused
    refine ⟨?_, ih _ ?_ ?_ ?_⟩
    · cases call with
      | bind files path uuid faults =>
        have drawn : uuid ∈ draws [.bind files path uuid faults] ++ draws rest :=
          List.mem_append_left _ (List.mem_singleton_self uuid)
        exact ⟨versions uuid drawn, unused uuid drawn⟩
      | rebind files id newPath faults => trivial
    · intro uuid member
      exact versions uuid (List.mem_append_right _ member)
    · exact (List.nodup_append.mp distinct).2.1
    · intro uuid member taken
      rcases (perform_ids catalog call).2 _ taken with old | ⟨other, drawn, same⟩
      · exact unused uuid (List.mem_append_right _ member) old
      · exact (List.nodup_append.mp distinct).2.2 other drawn uuid member
          (prefixed_inj uuid other same).symm

/-- Over any run of calls, whatever the file system answers and whichever persists fail. -/
theorem file_catalog_invariant (roundTrips : CatalogJsonRoundTrips host) (files : FileSystem)
    (rootPath catalogPath : FilePath) (stored : Option ByteArray) (faults : BackendFaults)
    (catalog : KnotFileCatalog)
    (opened : KnotFileCatalog.open host files rootPath catalogPath stored faults = .ok catalog)
    (calls : List CatalogCall) (versions : ∀ uuid ∈ draws calls, host.parseUuid uuid = .ok 4)
    (distinct : (draws calls).Nodup)
    (unused : ∀ uuid ∈ draws calls, Catalog.documentIdPrefix ++ uuid ∉ catalog.state.ids) :
    Run.Along (perform host) (ExactCatalogCall host) catalog calls ∧
      ∀ front back, calls = front ++ back →
        let reached := front.foldl (perform host) catalog
        validateState host reached.state reached.root = .ok () ∧ reached.state.ids.Nodup ∧
          reached.state.paths.Nodup ∧ reached.Reopens host ∧
            ∀ id ∈ reached.state.ids, id ∈ (back.foldl (perform host) reached).state.ids := by
  have start := open_sound roundTrips files rootPath catalogPath stored faults catalog opened
  have fresh := along_fresh calls catalog versions distinct unused
  have keeps : ∀ catalog call, KnotFileCatalog.Sound host catalog → FreshDraw host catalog call →
      (catalog.perform host call).Sound host :=
    fun catalog call => sound_catalog_perform roundTrips catalog call
  refine ⟨Run.along_of_invariant keeps
    (fun catalog call sound draw => exact_catalog_perform catalog call sound draw) calls catalog
    start fresh, ?_⟩
  intro front back split
  subst split
  have early := ((Run.along_append catalog front back).mp fresh).1
  have sound := Run.invariant_run keeps front catalog start early
  have valid := ((validateState_eq_ok_iff _ _).mp sound.valid).2.2
  exact ⟨sound.valid, valid.ids, valid.paths, sound_reopens _ sound, run_ids back _⟩

def notesRoot : FilePath := [.rootDir, .normal "notes".toUTF8]

def notesCatalog : FilePath := [.rootDir, .normal "state".toUTF8, .normal "catalog.redb".toUTF8]

def draftUuid : String := "6f1c2f0e-8a5d-4b1e-9c3a-2d7e5f4b8a10"

def emptyCatalog : StoredCatalog :=
  { version := Catalog.version, root := notesRoot, bindings := [] }

def draftCatalog : StoredCatalog :=
  { emptyCatalog with bindings :=
      [⟨Catalog.documentIdPrefix ++ draftUuid, [.normal "draft.djot".toUTF8]⟩] }

def emptyCatalogJson : String :=
  "\x7b\"version\":1,\"root\":\"/notes\",\"bindings\":[]\x7d"

def draftCatalogJson : String :=
  "\x7b\"version\":1,\"root\":\"/notes\",\"bindings\":[\x7b\"id\":" ++
    "\"knot:document:6f1c2f0e-8a5d-4b1e-9c3a-2d7e5f4b8a10\"," ++
    "\"relative_path\":\"draft.djot\"\x7d]\x7d"

def CatalogHost.sample : CatalogHost where
  display _ := "path"
  toVec state :=
    if state = emptyCatalog then .ok emptyCatalogJson.toUTF8
    else if state = draftCatalog then .ok draftCatalogJson.toUTF8
    else .error "not written here"
  fromSlice bytes :=
    if bytes = emptyCatalogJson.toUTF8 then .ok emptyCatalog
    else if bytes = draftCatalogJson.toUTF8 then .ok draftCatalog
    else .error "not read here"
  parseUuid raw := if raw = draftUuid then .ok 4 else .error "invalid length"

def FileSystem.sample : FileSystem where
  canonicalize path := .ok path
  isFile _ := .ok true
  isDir _ := true
  symlinkMetadata _ := .notFound
  currentDir := .ok notesRoot

theorem catalog_jsons_differ : draftCatalogJson.toUTF8 ≠ emptyCatalogJson.toUTF8 := by
  intro same
  have sizes := congrArg ByteArray.size same
  revert sizes
  decide +kernel

theorem sample_catalog_roundTrips : CatalogJsonRoundTrips CatalogHost.sample := by
  intro state bytes encoded
  simp only [CatalogHost.sample] at encoded ⊢
  by_cases empty : state = emptyCatalog
  · rw [if_pos empty] at encoded
    cases encoded
    rw [if_pos rfl, empty]
  · rw [if_neg empty] at encoded
    by_cases draft : state = draftCatalog
    · rw [if_pos draft] at encoded
      cases encoded
      rw [if_neg catalog_jsons_differ, if_pos rfl, draft]
    · rw [if_neg draft] at encoded
      cases encoded

theorem file_catalog_draft :
    Run.Along (perform CatalogHost.sample) (ExactCatalogCall CatalogHost.sample)
      ⟨notesRoot, emptyCatalog, some emptyCatalogJson.toUTF8⟩
      [.bind .sample [.normal "draft.djot".toUTF8] draftUuid {}] := by
  have opened : KnotFileCatalog.open CatalogHost.sample .sample notesRoot notesCatalog none {} =
      .ok ⟨notesRoot, emptyCatalog, some emptyCatalogJson.toUTF8⟩ := by
    have root : canonicalRoot CatalogHost.sample .sample notesRoot = .ok notesRoot := rfl
    have file : canonicalCatalogPath CatalogHost.sample .sample notesCatalog =
        .ok notesCatalog := rfl
    have outside : FilePath.startsWith notesCatalog notesRoot = false := by decide
    have written : persistState CatalogHost.sample emptyCatalog {} =
        .ok emptyCatalogJson.toUTF8 := by
      simp only [persistState, CatalogHost.sample, if_true]
    simp only [KnotFileCatalog.open, bind_eq_ok_iff, refuse_eq_ok_iff]
    refine ⟨notesRoot, root, notesCatalog, file, ?_, (), rfl, (), rfl,
      (emptyCatalog, emptyCatalogJson.toUTF8), ?_, rfl⟩
    · rw [outside]
      exact Bool.false_ne_true
    · simp only [loadState, bind_eq_ok_iff]
      exact ⟨_, written, rfl⟩
  refine (file_catalog_invariant sample_catalog_roundTrips .sample notesRoot notesCatalog none {}
    _ opened [.bind .sample [.normal "draft.djot".toUTF8] draftUuid {}] ?_ ?_ ?_).1
  · intro uuid member
    rw [List.mem_singleton.mp member]
    simp only [CatalogHost.sample, if_true]
  · exact List.nodup_cons.mpr ⟨List.not_mem_nil, List.nodup_nil⟩
  · intro uuid _
    exact List.not_mem_nil

end KnotEditor
