import KnotEditor.Library.Fallible
import KnotEditor.Library.Run
import KnotEditor.Search

/-! What runs of builds, rebuilds and queries over one vault leave sealed, and what queries
disclose. Each call is one step: search reads and writes the sealed record synchronously. -/

namespace KnotEditor.Search

variable {esp : Esp} {host : SearchHost esp}

namespace KnotIndexIdentity

variable {identity other third : KnotIndexIdentity esp}

end KnotIndexIdentity

variable (host) in
structure SearchWorld where
  vault : SearchVault host
  instances : List (KnotSearch esp)

variable (host) in
inductive SearchCall
  | build (attached : Bool) (directory : List (DiskDocument host))
      (read : host.Path → Option String) (config : SearchConfig host) (faults : SearchFaults)
  | rebuildVaultIndex (search : Nat) (faults : SearchFaults)
  | query (search : Nat) (attached : Bool) (query : String) (k : Nat) (subject : Bytes32)
      (authority : Bytes32 → host.Cap → Bool) (faults : SearchFaults)
  /-- Documents saved, the vault locked or unlocked: the search record is not touched. -/
  | change (vault : KnotVault)

namespace SearchWorld

variable (world : SearchWorld host)

def attach (attached : Bool) : Option (SearchVault host) :=
  if attached then some world.vault else none

def step : SearchCall host → SearchWorld host
  | .build attached directory read config faults =>
    match KnotSearch.build directory read (world.attach attached) config faults with
    | .error _ => world
    | .ok (search, left) =>
      { vault := left.getD world.vault, instances := world.instances ++ [search] }
  | .rebuildVaultIndex search faults =>
    match world.instances[search]? with
    | none => world
    | some search =>
      match search.rebuildVaultIndex world.vault faults with
      | .error _ => world
      | .ok left => { world with vault := left }
  | .query .. => world
  | .change vault => { world with vault := { world.vault with vault } }

end SearchWorld

/-- The vault scope is withheld from a subject also when the scope itself is refused. -/
def Withheld (authority : Bytes32 → host.Cap → Bool) (subject : Bytes32) : Prop :=
  @covers esp host authority subject vaultScope ≠ .ok true

/-- What a call may do to the sealed index, and what a query of a built search may answer. -/
structure VectorSpacesKept (world : SearchWorld host) (call : SearchCall host) : Prop where
  neverScored : ∀ search attached query k subject authority faults sealed found,
    call = .query search attached query k subject authority faults →
    world.instances[search]? = some found →
    world.vault.loadSearchIndex {} = .ok (some sealed) →
    sealed.recorded.isSameModel found.identity = false →
    found.query (world.attach attached) query k subject authority faults =
        found.query (none : Option (SearchVault host)) query k subject authority faults ∨
      found.query (world.attach attached) query k subject authority faults =
        .error (.identityMismatch sealed.recorded found.identity) ∨
      ∃ reason, faults.loadRecord = some reason ∧
        found.query (world.attach attached) query k subject authority faults =
          .error (.vault s!"could not load Knot vault search index: {reason}")
  neverReplaced : (world.step call).vault.searchIndex ≠ world.vault.searchIndex →
    (∃ search faults, call = .rebuildVaultIndex search faults) ∨
      ∃ directory read config faults search left,
        call = .build true directory read config faults ∧
        KnotSearch.build directory read (some world.vault) config faults =
          .ok (search, some left) ∧
        ((world.vault.loadSearchIndex {} : Except String _) = .ok none ∨
          ∃ sealed, world.vault.loadSearchIndex {} = .ok (some sealed) ∧
            sealed.recorded.isSameModel search.identity = true)
  refusedUnchanged : ∀ attached directory read config faults error,
    call = .build attached directory read config faults →
    KnotSearch.build directory read (world.attach attached) config faults = .error error →
    world.step call = world
  /-- A search holds nothing of the vault it was built over. -/
  builtAlike : ∀ attached directory read config faults first second built rebuilt,
    call = .build attached directory read config faults →
    KnotSearch.build directory read (some first) config faults = .ok built →
    KnotSearch.build directory read (some second) config faults = .ok rebuilt →
    built.1 = rebuilt.1
  withheldBlind : ∀ search ∈ world.instances, ∀ query k subject authority faults,
    Withheld authority subject → ∀ first second : SearchVault host,
      search.query (some first) query k subject authority faults =
        search.query (some second) query k subject authority faults
  lockedBlind : ∀ search ∈ world.instances, ∀ query k subject authority faults,
    ∀ first second : SearchVault host, first.isLocked = true → second.isLocked = true →
      search.query (some first) query k subject authority faults =
        search.query (some second) query k subject authority faults

namespace KnotSearch

variable (search : KnotSearch esp)

section Query

variable {query : String} {k : Nat} {subject : Bytes32} {authority : Bytes32 → host.Cap → Bool}
  {faults : SearchFaults}

theorem query_eq_none_of_withheld (withheld : Withheld authority subject)
    (vault : Option (SearchVault host)) :
    search.query vault query k subject authority faults =
      search.query none query k subject authority faults := by
  unfold KnotSearch.query
  unfold Withheld at withheld
  cases granted : @covers esp host authority subject vaultScope with
  | error error => rfl
  | ok covered =>
    cases covered with
    | false => rfl
    | true => exact absurd granted withheld

theorem query_eq_none_of_locked {vault : SearchVault host} (locked : vault.isLocked = true) :
    search.query (some vault) query k subject authority faults =
      search.query none query k subject authority faults := by
  simp only [KnotSearch.query, Option.filter, locked, Bool.not_true, Bool.false_eq_true,
    if_false]

theorem query_of_vaultHits_error {vault : SearchVault host} {error : KnotSearchError esp}
    (refused : search.vaultHits vault query k faults = .error error) :
    search.query (some vault) query k subject authority faults =
        search.query none query k subject authority faults ∨
      search.query (some vault) query k subject authority faults = .error error := by
  cases locked : vault.isLocked with
  | true => exact Or.inl (search.query_eq_none_of_locked locked)
  | false =>
    by_cases withheld : Withheld authority subject
    · exact Or.inl (search.query_eq_none_of_withheld withheld _)
    · have granted := not_not.1 withheld
      unfold KnotSearch.query
      by_cases none : k = 0
      · left
        simp [none, bind, Except.bind]
      · cases disk : search.diskHits query k subject authority with
        | error _ =>
          left
          simp [none, bind, Except.bind]
        | ok hits =>
          right
          simp [none, granted, Option.filter, locked, refused, bind, Except.bind]

end Query

end KnotSearch

theorem SearchVault.loadSearchIndex_of_fault {vault : SearchVault host} {faults : SearchFaults}
    {reason : String} (fault : faults.loadRecord = some reason) (unlocked : vault.isLocked = false) :
    vault.loadSearchIndex faults =
      .error s!"could not load Knot vault search index: {reason}" := by
  unfold SearchVault.isLocked at unlocked
  unfold SearchVault.loadSearchIndex
  cases store : vault.vault.store with
  | none => simp [store] at unlocked
  | some key => simp [fault]

theorem SearchVault.loadSearchIndex_of_no_fault (vault : SearchVault host) {faults : SearchFaults}
    (fault : faults.loadRecord = none) :
    vault.loadSearchIndex faults = vault.loadSearchIndex {} := by
  unfold SearchVault.loadSearchIndex
  rw [fault]

theorem SearchVault.isLocked_eq_false_of_load {vault : SearchVault host} {faults : SearchFaults}
    {loaded : Option (KnotSealedSearchIndex esp)}
    (load : vault.loadSearchIndex faults = .ok loaded) : vault.isLocked = false := by
  unfold SearchVault.isLocked
  cases store : vault.vault.store with
  | none => simp [SearchVault.loadSearchIndex, store] at load
  | some key => rfl

theorem admitSealed_eq_error {sealed : KnotSealedSearchIndex esp} {requested : KnotIndexIdentity esp}
    (other : sealed.recorded.isSameModel requested = false) :
    admitSealed sealed requested = .error (.identityMismatch sealed.recorded requested) := by
  simp [admitSealed, KnotIndexIdentity.answers, other]

namespace KnotSearch

variable (search : KnotSearch esp)

theorem vaultHits_of_other_model {vault : SearchVault host} {sealed : KnotSealedSearchIndex esp}
    (query : String) (k : Nat) (faults : SearchFaults)
    (load : vault.loadSearchIndex {} = .ok (some sealed))
    (other : sealed.recorded.isSameModel search.identity = false) :
    search.vaultHits vault query k faults =
        .error (.identityMismatch sealed.recorded search.identity) ∨
      ∃ reason, faults.loadRecord = some reason ∧
        search.vaultHits vault query k faults =
          .error (.vault s!"could not load Knot vault search index: {reason}") := by
  cases fault : faults.loadRecord with
  | none =>
    left
    have loaded := (vault.loadSearchIndex_of_no_fault fault).trans load
    simp [vaultHits, loaded, admitSealed_eq_error other, Except.mapError, bind, Except.bind]
  | some reason =>
    right
    have failed := SearchVault.loadSearchIndex_of_fault fault
      (SearchVault.isLocked_eq_false_of_load load)
    refine ⟨reason, rfl, ?_⟩
    simp [vaultHits, failed, Except.mapError, bind, Except.bind]

theorem query_of_other_model {vault : SearchVault host} {sealed : KnotSealedSearchIndex esp}
    (query : String) (k : Nat) (subject : Bytes32) (authority : Bytes32 → host.Cap → Bool)
    (faults : SearchFaults) (load : vault.loadSearchIndex {} = .ok (some sealed))
    (other : sealed.recorded.isSameModel search.identity = false) :
    search.query (some vault) query k subject authority faults =
        search.query (none : Option (SearchVault host)) query k subject authority faults ∨
      search.query (some vault) query k subject authority faults =
        .error (.identityMismatch sealed.recorded search.identity) ∨
      ∃ reason, faults.loadRecord = some reason ∧
        search.query (some vault) query k subject authority faults =
          .error (.vault s!"could not load Knot vault search index: {reason}") := by
  rcases search.vaultHits_of_other_model query k faults load other with
    mismatch | ⟨reason, fault, failed⟩
  · exact (search.query_of_vaultHits_error mismatch).imp_right Or.inl
  · refine (search.query_of_vaultHits_error failed).imp_right ?_
    intro refused
    exact Or.inr ⟨reason, fault, refused⟩

section Build

variable {directory : List (DiskDocument host)} {read : host.Path → Option String}
  {config : SearchConfig host} {faults : SearchFaults}

theorem build_eq_ok {vault : Option (SearchVault host)} {search : KnotSearch esp}
    {left : Option (SearchVault host)}
    (built : KnotSearch.build directory read vault config faults = .ok (search, left)) :
    resolveEmbeddings config.embedding config.dimensions = .ok (search.provider, search.identity) ∧
      vault.forM (fun vault => checkSealed vault search.identity faults) = .ok () ∧
      directory.foldlM (ingestDisk read config.maxFileBytes) (esp.session search.provider) =
        .ok search.disk ∧
      vault.mapM (fun vault => search.sealVaultIndex vault faults) = .ok left := by
  unfold KnotSearch.build at built
  split at built
  · contradiction
  · obtain ⟨resolved, preference, rest⟩ := Fallible.bind_eq_ok_iff.1 built
    obtain ⟨checked, rest⟩ := Fallible.then_eq_ok_iff.1 rest
    obtain ⟨disk, ingested, rest⟩ := Fallible.bind_eq_ok_iff.1 rest
    obtain ⟨sealed, stored, rest⟩ := Fallible.bind_eq_ok_iff.1 rest
    cases rest
    exact ⟨preference, checked, ingested, stored⟩

theorem build_alike {first second : Option (SearchVault host)}
    {built rebuilt : KnotSearch esp × Option (SearchVault host)}
    (one : KnotSearch.build directory read first config faults = .ok built)
    (another : KnotSearch.build directory read second config faults = .ok rebuilt) :
    built.1 = rebuilt.1 := by
  obtain ⟨preference, _, ingested, _⟩ := build_eq_ok one
  obtain ⟨preference', _, ingested', _⟩ := build_eq_ok another
  have resolved := Except.ok.inj (preference.symm.trans preference')
  rw [Prod.mk.injEq] at resolved
  have disk := Except.ok.inj (ingested.symm.trans (resolved.1 ▸ ingested'))
  rcases built with ⟨⟨identity, provider, session⟩, left⟩
  rcases rebuilt with ⟨⟨identity', provider', session'⟩, left'⟩
  obtain ⟨rfl, rfl⟩ := resolved
  cases disk
  rfl

theorem checkSealed_eq_ok {vault : SearchVault host} {identity : KnotIndexIdentity esp}
    (checked : checkSealed vault identity faults = .ok ()) :
    vault.loadSearchIndex {} = .ok none ∨
      ∃ sealed, vault.loadSearchIndex {} = .ok (some sealed) ∧
        sealed.recorded.isSameModel identity = true := by
  unfold checkSealed at checked
  obtain ⟨loaded, load, admitted⟩ := Fallible.bind_eq_ok_iff.1 checked
  have load := Fallible.mapError_eq_ok_iff.1 load
  have sound : faults.loadRecord = none := by
    cases fault : faults.loadRecord with
    | none => rfl
    | some reason =>
      rw [SearchVault.loadSearchIndex_of_fault fault
        (SearchVault.isLocked_eq_false_of_load load)] at load
      contradiction
  rw [vault.loadSearchIndex_of_no_fault sound] at load
  cases loaded with
  | none => exact Or.inl load
  | some sealed =>
    right
    refine ⟨sealed, load, ?_⟩
    by_contra other
    rw [Bool.not_eq_true] at other
    simp only [admitSealed_eq_error other] at admitted
    contradiction

end Build

end KnotSearch

namespace SearchWorld

variable (world : SearchWorld host)

theorem search_replaced {call : SearchCall host}
    (replaced : (world.step call).vault.searchIndex ≠ world.vault.searchIndex) :
    (∃ search faults, call = .rebuildVaultIndex search faults) ∨
      ∃ directory read config faults search left,
        call = .build true directory read config faults ∧
        KnotSearch.build directory read (some world.vault) config faults =
          .ok (search, some left) ∧
        ((world.vault.loadSearchIndex {} : Except String _) = .ok none ∨
          ∃ sealed, world.vault.loadSearchIndex {} = .ok (some sealed) ∧
            sealed.recorded.isSameModel search.identity = true) := by
  cases call with
  | query => exact absurd rfl replaced
  | change vault => exact absurd rfl replaced
  | rebuildVaultIndex search faults => exact Or.inl ⟨search, faults, rfl⟩
  | build attached directory read config faults =>
    right
    cases built : KnotSearch.build directory read (world.attach attached) config faults with
    | error error =>
      simp only [step, built] at replaced
      exact absurd rfl replaced
    | ok made =>
      obtain ⟨search, left⟩ := made
      simp only [step, built] at replaced
      obtain ⟨_, checked, _, stored⟩ := KnotSearch.build_eq_ok built
      cases attached with
      | false =>
        cases stored
        exact absurd rfl replaced
      | true =>
        have checked := KnotSearch.checkSealed_eq_ok checked
        obtain ⟨after, _, rest⟩ := Fallible.bind_eq_ok_iff.1 stored
        cases rest
        exact ⟨directory, read, config, faults, search, after, rfl, built, checked⟩

theorem vectorSpacesKept (call : SearchCall host) : VectorSpacesKept world call where
  neverScored := by
    rintro search attached query k subject authority faults sealed found rfl _ load other
    cases attached with
    | false => exact Or.inl rfl
    | true => exact found.query_of_other_model query k subject authority faults load other
  neverReplaced := world.search_replaced
  refusedUnchanged := by
    rintro attached directory read config faults error rfl refused
    simp only [step, refused]
  builtAlike := by
    rintro attached directory read config faults first second built rebuilt rfl one another
    exact KnotSearch.build_alike one another
  withheldBlind := by
    intro search _ query k subject authority faults withheld first second
    exact (search.query_eq_none_of_withheld withheld _).trans
      (search.query_eq_none_of_withheld withheld _).symm
  lockedBlind := by
    intro search _ query k subject authority faults first second locked locked'
    exact (search.query_eq_none_of_locked locked).trans (search.query_eq_none_of_locked locked').symm

/-- Along every run no search mixes vector spaces, and none speaks of a vault it may not read. -/
theorem search_keeps_vector_spaces_apart (calls : List (SearchCall host)) :
    Run.Along (fun world call => world.step call) VectorSpacesKept world calls :=
  Run.along_always vectorSpacesKept calls world

end SearchWorld

end KnotEditor.Search
