import KnotEditor.Reference.LookupScan

/-! A registry handle and its directory: what is in memory is what a fresh open of the directory
would load, over any run of calls and whichever file operations of them fail. -/

namespace KnotEditor.Reference

open Fallible KeyedCollections

def noFaults : Faults := fun _ => none

def sourceSize (directory : RegistryDirectory) (source : StoredSource) : Nat :=
  match source.pack.bind directory.packs with
  | some (.file bytes) => bytes.length
  | _ => 0

inductive Loads (host : RegistryHost) (limits : Limits) (directory : RegistryDirectory)
    (source : StoredSource) : Option ValidatedPack → Prop
  | advertised (valid : validateManifest source.manifest limits = .ok ())
      (inert : source.pack = none) (disabled : source.enabled = false) :
      Loads host limits directory source none
  | installed {name : String} {bytes : List UInt8} {pack : ValidatedPack}
      (valid : validateManifest source.manifest limits = .ok ())
      (named : source.pack = some name) (hashed : validatePackName name = .ok ())
      (held : directory.packs name = some (.file bytes))
      (bounded : bytes.length ≤ limits.maxPackBytes) (same : packName host bytes = name)
      (checked : ValidatedPack.fromJson host.toPackHost bytes source.manifest.digest limits =
        .ok pack)
      (described : pack.manifest = source.manifest) :
      Loads host limits directory source (some pack)

def WithinInstalled (limits : Limits) (total : Nat) : Prop :=
  total ≤ usizeMax ∧ total ≤ limits.maxInstalledBytes

def addSource (directory : RegistryDirectory) (registry : SourceRegistry) (source : StoredSource)
    (pack : Option ValidatedPack) : SourceRegistry :=
  { registry with
    installedBytes := registry.installedBytes + sourceSize directory source
    packs := match pack with
      | some pack => registry.packs.insert source.manifest.sourceKey pack
      | none => registry.packs
    sources := registry.sources.insert source.manifest.sourceKey source }

variable {host : RegistryHost} {limits : Limits} {faults : Faults}
  {directory other : RegistryDirectory} {registry next : SourceRegistry} {source : StoredSource}

/-- `serde_json` reads back the registry it wrote. -/
def RegistryJsonRoundTrips (host : RegistryHost) : Prop :=
  ∀ file bytes, host.registryJson file = .ok bytes → host.parseRegistry bytes = .ok file

def totalSize (directory : RegistryDirectory) (sources : Std.ExtTreeMap SourceKey StoredSource) :
    Nat :=
  (sources.values.map (sourceSize directory)).sum

section sizes

variable {sources : Std.ExtTreeMap SourceKey StoredSource} {key : SourceKey}

theorem totalSize_insert (fresh : sources[key]? = none) (source : StoredSource) :
    totalSize directory (sources.insert key source) =
      sourceSize directory source + totalSize directory sources := by
  rw [totalSize, ((values_insert_perm sources key source fresh).map _).sum_eq, List.map_cons,
    List.sum_cons, totalSize]

theorem totalSize_replace {old : StoredSource} (held : sources[key]? = some old)
    (source : StoredSource) :
    totalSize directory (sources.insert key source) + sourceSize directory old =
      totalSize directory sources + sourceSize directory source := by
  have fresh : (sources.erase key)[key]? = none := by simp
  have before : totalSize directory sources =
      sourceSize directory old + totalSize directory (sources.erase key) := by
    rw [← totalSize_insert fresh, KeyedCollections.erase_insert,
      KeyedCollections.insert_held sources key old held]
  rw [← KeyedCollections.erase_insert sources key source, totalSize_insert fresh, before]
  omega

theorem totalSize_install (inert : ∀ old, sources[key]? = some old → old.pack = none) {size : Nat}
    (sized : sourceSize directory source = size) :
    totalSize directory (sources.insert key source) = totalSize directory sources + size := by
  cases listed : sources[key]? with
  | none => rw [totalSize_insert listed, sized, Nat.add_comm]
  | some old =>
    have nothing : sourceSize directory old = 0 := by simp [sourceSize, inert old listed]
    have replaced : totalSize directory (sources.insert key source) + sourceSize directory old =
        totalSize directory sources + sourceSize directory source := totalSize_replace listed source
    omega

end sizes

/-- A registry holds checked packs alone, one to every installed source. -/
structure Coherent (host : RegistryHost) (limits : Limits) (directory : RegistryDirectory)
    (registry : SourceRegistry) : Prop where
  limited : registry.limits = limits
  keyed : ∀ (key : SourceKey) source, registry.sources[key]? = some source →
    source.manifest.sourceKey = key
  loads : ∀ (key : SourceKey) source, registry.sources[key]? = some source →
    Loads host limits directory source registry.packs[key]?
  packs : ∀ key : SourceKey, registry.sources[key]? = none → registry.packs[key]? = none
  bytes : registry.installedBytes = totalSize directory registry.sources
  within : WithinInstalled limits registry.installedBytes

theorem Loads.unique {one two : Option ValidatedPack}
    (first : Loads host limits directory source one)
    (second : Loads host limits directory source two) : one = two := by
  cases first with
  | advertised _ inert _ =>
    cases second with
    | advertised => rfl
    | installed _ named => cases inert.symm.trans named
  | installed _ named _ held _ _ checked =>
    cases second with
    | advertised _ inert _ => cases inert.symm.trans named
    | installed _ named_ _ held_ _ _ checked_ =>
      cases named.symm.trans named_
      cases held.symm.trans held_
      exact congrArg some (Except.ok.inj (checked.symm.trans checked_))

theorem Coherent.ext (one : Coherent host limits directory registry)
    (two : Coherent host limits directory next) (sources : registry.sources = next.sources)
    (certain : registry.commitUncertain = next.commitUncertain) : registry = next := by
  have packs : registry.packs = next.packs := by
    refine Std.ExtTreeMap.ext_getElem? fun key => ?_
    cases listed : registry.sources[key]? with
    | none => rw [one.packs key listed, two.packs key (sources ▸ listed)]
    | some source => exact (one.loads key source listed).unique (two.loads key source (sources ▸ listed))
  have bytes : registry.installedBytes = next.installedBytes := by
    rw [one.bytes, two.bytes, sources]
  have limits_ : registry.limits = next.limits := one.limited.trans two.limited.symm
  cases registry
  cases next
  simp only at sources certain packs bytes limits_
  subst sources certain packs bytes limits_
  rfl

section loading

theorem attempt_eq_ok_iff {call : FileCall} :
    attempt faults call = .ok () ↔ faults call = none := by
  rw [attempt]
  cases faults call <;> simp

theorem readBounded_ok {metadata read : FileCall} {node : FileNode} {max : Nat}
    {bytes : List UInt8} (done : readBounded faults metadata read node max = .ok bytes) :
    node = .file bytes ∧ bytes.length ≤ max := by
  cases node with
  | other =>
    obtain ⟨_, done⟩ := then_eq_ok_iff.mp done
    cases done
  | file found =>
    obtain ⟨_, done⟩ := then_eq_ok_iff.mp done
    simp only [refuse_eq_ok_iff, then_eq_ok_iff, Nat.not_lt] at done
    obtain ⟨bounded, _, same⟩ := done
    cases same
    exact ⟨rfl, bounded⟩

theorem readBounded_noFaults {metadata read : FileCall} {max : Nat} {bytes : List UInt8}
    (bounded : bytes.length ≤ max) :
    readBounded noFaults metadata read (.file bytes) max = .ok bytes := by
  simp [readBounded, attempt, noFaults, Nat.not_lt.mpr bounded, bind, Except.bind, pure, Except.pure]

theorem readPack_ok {name : String} {max : Nat} {bytes : List UInt8}
    (done : readPack faults directory name max = .ok bytes) :
    directory.packs name = some (.file bytes) ∧ bytes.length ≤ max := by
  rw [readPack] at done
  split at done
  · cases done
  next held =>
    obtain ⟨rfl, bounded⟩ := readBounded_ok done
    exact ⟨held, bounded⟩

theorem packSize_ok {name : String} {size : Nat}
    (done : packSize faults directory name = .ok size) :
    ∃ bytes, directory.packs name = some (.file bytes) ∧ bytes.length = size := by
  rw [packSize, then_eq_ok_iff] at done
  obtain ⟨_, done⟩ := done
  split at done
  · cases done
  · cases done
  next bytes held =>
    exact ⟨bytes, held, Except.ok.inj done⟩

theorem addWithin_eq_ok_iff {what : String} {total more sum : Nat} :
    addWithin what total more = .ok sum ↔ total + more ≤ usizeMax ∧ total + more = sum := by
  rw [addWithin]
  split <;> simp_all

theorem loadSource_ok (within : WithinInstalled registry.limits registry.installedBytes)
    (loaded : loadSource host faults directory registry source = .ok next) :
    registry.sources[source.manifest.sourceKey]? = none ∧
      WithinInstalled registry.limits (registry.installedBytes + sourceSize directory source) ∧
      ∃ pack, Loads host registry.limits directory source pack ∧
        next = addSource directory registry source pack := by
  simp only [loadSource, bind_eq_ok_iff, refuse_eq_ok_iff] at loaded
  obtain ⟨_, valid, fresh, loaded⟩ := loaded
  have fresh : registry.sources[source.manifest.sourceKey]? = none := by simpa using fresh
  refine ⟨fresh, ?_⟩
  cases named : source.pack with
  | none =>
    simp only [named, refuse_eq_ok_iff] at loaded
    obtain ⟨disabled, done⟩ := loaded
    cases done
    have size : sourceSize directory source = 0 := by simp [sourceSize, named]
    refine ⟨by rw [size]; exact within, none, .advertised valid named (by simpa using disabled), ?_⟩
    simp [addSource, size]
  | some name =>
    simp only [named, bind_eq_ok_iff, refuse_eq_ok_iff, Decidable.not_not] at loaded
    obtain ⟨_, hashed, size, measured, installed, added, bounded, bytes, read, same, pack, checked,
      described, done⟩ := loaded
    cases done
    obtain ⟨held, short⟩ := readPack_ok read
    obtain ⟨_, held_, rfl⟩ := packSize_ok measured
    cases held.symm.trans held_
    obtain ⟨small, rfl⟩ := addWithin_eq_ok_iff.mp added
    have size : sourceSize directory source = bytes.length := by simp [sourceSize, named, held]
    refine ⟨by rw [size]; exact ⟨small, Nat.not_lt.mp bounded⟩, some pack,
      .installed valid named hashed held short same checked described, ?_⟩
    simp [addSource, size]

theorem loadSource_of_loads (fresh : registry.sources[source.manifest.sourceKey]? = none)
    (within : WithinInstalled registry.limits
      (registry.installedBytes + sourceSize directory source)) {pack : Option ValidatedPack}
    (loads : Loads host registry.limits directory source pack) :
    loadSource host noFaults directory registry source =
      .ok (addSource directory registry source pack) := by
  have unlisted : source.manifest.sourceKey ∉ registry.sources := by simpa using fresh
  cases loads with
  | advertised valid inert disabled =>
    simp [loadSource, valid, unlisted, inert, disabled, addSource, sourceSize, bind, Except.bind,
      pure, Except.pure]
  | installed valid named hashed held short same checked described =>
    rename_i name bytes pack
    have measured : packSize noFaults directory name = .ok bytes.length := by
      simp [packSize, attempt, noFaults, held, bind, Except.bind]
    have read : readPack noFaults directory name registry.limits.maxPackBytes = .ok bytes := by
      rw [readPack, held]
      exact readBounded_noFaults short
    have size : sourceSize directory source = bytes.length := by simp [sourceSize, named, held]
    rw [size] at within
    have added : addWithin "installed bytes" registry.installedBytes bytes.length =
        .ok (registry.installedBytes + bytes.length) := addWithin_eq_ok_iff.mpr ⟨within.1, rfl⟩
    simp [loadSource, valid, unlisted, named, hashed, measured, added, Nat.not_lt.mpr within.2,
      read, same, checked, described, addSource, size, bind, Except.bind, pure, Except.pure]

theorem addSource_packs (pack : Option ValidatedPack) (key : SourceKey) :
    (addSource directory registry source pack).packs[key]? =
      if source.manifest.sourceKey = key then pack.or registry.packs[key]?
      else registry.packs[key]? := by
  cases pack with
  | none => simp [addSource]
  | some pack =>
    by_cases same : source.manifest.sourceKey = key
    · subst same
      simp [addSource]
    · rw [if_neg same]
      exact getElem?_insert_of_ne registry.packs same pack

theorem Coherent.replace (coherent : Coherent host limits directory registry)
    {key : SourceKey} (source : StoredSource) (keyed : source.manifest.sourceKey = key)
    (sources : next.sources = registry.sources.insert key source)
    (loads : Loads host limits directory source next.packs[key]?)
    (others : ∀ other, other ≠ key → next.packs[other]? = registry.packs[other]?)
    (same : next.limits = registry.limits)
    (bytes : next.installedBytes = totalSize directory next.sources)
    (within : WithinInstalled limits next.installedBytes) :
    Coherent host limits directory next := by
  have listed : ∀ (other : SourceKey) found, next.sources[other]? = some found ↔
      other = key ∧ found = source ∨ other ≠ key ∧ registry.sources[other]? = some found := by
    intro other found
    rw [sources]
    exact getElem?_insert_eq_some_iff registry.sources
  refine ⟨same.trans coherent.limited, fun other found held => ?_, fun other found held => ?_,
    fun other gone => ?_, bytes, within⟩
  · rcases (listed other found).mp held with ⟨rfl, rfl⟩ | ⟨_, before⟩
    · exact keyed
    · exact coherent.keyed other found before
  · rcases (listed other found).mp held with ⟨rfl, rfl⟩ | ⟨apart, before⟩
    · exact loads
    · rw [others other apart]
      exact coherent.loads other found before
  · have apart : other ≠ key := by
      rintro rfl
      rw [(listed other source).mpr (.inl ⟨rfl, rfl⟩)] at gone
      cases gone
    rw [others other apart]
    refine coherent.packs other (Option.eq_none_iff_forall_ne_some.mpr fun found before => ?_)
    rw [(listed other found).mpr (.inr ⟨apart, before⟩)] at gone
    cases gone

theorem Coherent.addSource (coherent : Coherent host limits directory registry)
    (fresh : registry.sources[source.manifest.sourceKey]? = none)
    (within : WithinInstalled limits (registry.installedBytes + sourceSize directory source))
    {pack : Option ValidatedPack} (loads : Loads host limits directory source pack) :
    Coherent host limits directory (addSource directory registry source pack) := by
  refine coherent.replace source rfl rfl ?_ (fun other apart => ?_) rfl ?_ within
  · rw [addSource_packs, if_pos rfl, coherent.packs _ fresh, Option.or_none]
    exact loads
  · rw [addSource_packs, if_neg apart.symm]
  · refine (congrArg (· + _) coherent.bytes).trans ?_
    exact (Nat.add_comm _ _).trans (totalSize_insert fresh source).symm

theorem values_empty : (∅ : Std.ExtTreeMap SourceKey StoredSource).values = [] := by
  simp [values_eq_map_toList]

theorem coherent_empty : Coherent host limits directory { limits } :=
  ⟨rfl, fun _ _ held => by simp at held, fun _ _ held => by simp at held, fun _ _ => by simp,
    by rw [totalSize, values_empty]; rfl, Nat.zero_le _, Nat.zero_le _⟩

theorem Coherent.listed_iff (coherent : Coherent host limits directory registry)
    {key : SourceKey} :
    registry.sources[key]? = some source ↔
      source ∈ registry.sources.values ∧ source.manifest.sourceKey = key := by
  rw [mem_values_iff]
  constructor
  · intro held
    exact ⟨⟨key, held⟩, coherent.keyed key source held⟩
  · rintro ⟨⟨other, held⟩, rfl⟩
    rw [coherent.keyed other source held]
    exact held

theorem Coherent.nodup_keys (coherent : Coherent host limits directory registry) :
    (registry.sources.values.map fun source => source.manifest.sourceKey).Nodup := by
  have keys : registry.sources.toList.map Prod.fst =
      registry.sources.values.map fun source => source.manifest.sourceKey := by
    rw [values_eq_map_toList, List.map_map]
    refine List.map_congr_left fun entry member => ?_
    exact (coherent.keyed _ _ (Std.ExtTreeMap.mem_toList_iff_getElem?_eq_some.mp member)).symm
  rw [← keys, Std.ExtTreeMap.map_fst_toList_eq_keys]
  exact Std.ExtTreeMap.nodup_keys

inductive Stored (host : RegistryHost) (limits : Limits) (directory : RegistryDirectory)
    (sources : Std.ExtTreeMap SourceKey StoredSource) : Prop
  | absent (absent : directory.registry = none) (none_ : sources = ∅)
  | file {bytes : List UInt8} {saved : List StoredSource}
      (there : directory.registry = some (.file bytes))
      (bounded : bytes.length ≤ limits.maxRegistryBytes)
      (parsed : host.parseRegistry bytes = .ok ⟨schemaVersion, saved⟩)
      (few : saved.length ≤ limits.maxSources) (listed : saved.Perm sources.values)

theorem load_stored (loaded : load host limits faults directory = .ok registry) :
    Coherent host limits directory registry ∧ registry.commitUncertain = false ∧
      Stored host limits directory registry.sources := by
  unfold load at loaded
  split at loaded
  next absent =>
    obtain ⟨_, done⟩ := then_eq_ok_iff.mp loaded
    cases done
    exact ⟨coherent_empty, rfl, .absent absent rfl⟩
  next node there =>
    simp only [bind_eq_ok_iff, refuse_eq_ok_iff, Decidable.not_not, Nat.not_lt,
      mapError_eq_ok_iff] at loaded
    obtain ⟨bytes, read, ⟨version, saved⟩, parsed, rfl, few, folded⟩ := loaded
    obtain ⟨rfl, bounded⟩ := readBounded_ok read
    have each : ∀ gone state source next, (Coherent host limits directory state ∧
        state.commitUncertain = false ∧ gone.Perm state.sources.values) →
          loadSource host faults directory state source = .ok next →
            Coherent host limits directory next ∧ next.commitUncertain = false ∧
              (gone ++ [source]).Perm next.sources.values := by
      rintro gone state source next ⟨coherent, certain, listed⟩ turn
      have same := coherent.limited
      obtain ⟨fresh, within, pack, loads, rfl⟩ :=
        loadSource_ok (same.symm ▸ coherent.within) turn
      rw [same] at within loads
      refine ⟨coherent.addSource fresh within loads, certain, ?_⟩
      exact (List.perm_append_singleton source gone).trans ((listed.cons source).trans
        (values_insert_perm state.sources _ source fresh).symm)
    obtain ⟨coherent, certain, listed⟩ := foldlM_builds each saved _ registry
      ⟨coherent_empty, rfl, values_empty ▸ List.Perm.refl _⟩ folded
    exact ⟨coherent, certain, .file there bounded parsed few listed⟩

theorem load_front (coherent : Coherent host limits directory registry)
    {front back : List StoredSource} (listed : (front ++ back).Perm registry.sources.values) :
    ∃ state, front.foldlM (loadSource host noFaults directory) { limits } = .ok state ∧
      Coherent host limits directory state ∧ state.commitUncertain = false ∧
        front.Perm state.sources.values := by
  induction front using List.reverseRecOn generalizing back with
  | nil => exact ⟨_, rfl, coherent_empty, rfl, values_empty ▸ List.Perm.refl _⟩
  | append_singleton front source ih =>
    rw [List.append_assoc, List.singleton_append] at listed
    obtain ⟨state, folded, built, certain, gone⟩ := ih listed
    have member := listed.mem_iff.mp (List.mem_append_right front List.mem_cons_self)
    have loads := coherent.loads _ source (coherent.listed_iff.mpr ⟨member, rfl⟩)
    have fresh : state.sources[source.manifest.sourceKey]? = none := by
      refine Option.eq_none_iff_forall_ne_some.mpr fun found held => ?_
      obtain ⟨inside, same⟩ := built.listed_iff.mp held
      have distinct := (listed.map fun source => source.manifest.sourceKey).nodup_iff.mpr
        coherent.nodup_keys
      rw [List.map_append, List.nodup_append] at distinct
      exact distinct.2.2 _ (List.mem_map_of_mem (gone.mem_iff.mpr inside)) _
        (List.mem_map_of_mem List.mem_cons_self) same
    have total : state.installedBytes + sourceSize directory source ≤ registry.installedBytes := by
      rw [built.bytes, coherent.bytes, totalSize, totalSize, ← (gone.map _).sum_eq,
        ← (listed.map _).sum_eq, List.map_append, List.sum_append, List.map_cons, List.sum_cons]
      omega
    have within : WithinInstalled limits (state.installedBytes + sourceSize directory source) :=
      ⟨total.trans coherent.within.1, total.trans coherent.within.2⟩
    refine ⟨_, foldlM_append_singleton_eq_ok_iff.mpr ⟨state, folded, loadSource_of_loads fresh
      (built.limited.symm ▸ within) (built.limited.symm ▸ loads)⟩,
      built.addSource fresh within loads, certain, ?_⟩
    exact (List.perm_append_singleton source front).trans ((gone.cons source).trans
      (values_insert_perm state.sources _ source fresh).symm)

theorem load_of_stored (coherent : Coherent host limits directory registry)
    (certain : registry.commitUncertain = false)
    (stored : Stored host limits directory registry.sources) :
    load host limits noFaults directory = .ok registry := by
  cases stored with
  | absent absent none_ =>
    have empty : { limits } = registry := coherent_empty.ext coherent none_.symm certain.symm
    rw [load, absent, ← empty]
    rfl
  | file there bounded parsed few listed =>
    rename_i bytes saved
    have whole : (saved ++ []).Perm registry.sources.values := by
      rw [List.append_nil]
      exact listed
    obtain ⟨state, folded, built, same, gone⟩ := load_front coherent whole
    have sources : state.sources = registry.sources := by
      refine Std.ExtTreeMap.ext_getElem? fun key => Option.ext fun source => ?_
      rw [built.listed_iff, coherent.listed_iff, ← gone.mem_iff, listed.mem_iff]
    rw [built.ext coherent sources (same.trans certain.symm)] at folded
    simp [load, there, readBounded_noFaults bounded, parsed, Nat.not_lt.mpr few, folded,
      Except.mapError, bind, Except.bind]

end loading

section calls

/-- Packs are immutable: a file that is there stays. -/
def Grows (before after : RegistryDirectory) : Prop :=
  ∀ name node, before.packs name = some node → after.packs name = some node

theorem Loads.size_grows (grows : Grows directory other) {pack : Option ValidatedPack}
    (loads : Loads host limits directory source pack) :
    Loads host limits other source pack ∧ sourceSize other source = sourceSize directory source := by
  cases loads with
  | advertised valid inert disabled =>
    exact ⟨.advertised valid inert disabled, by simp [sourceSize, inert]⟩
  | installed valid named hashed held short same checked described =>
    have there := grows _ _ held
    exact ⟨.installed valid named hashed there short same checked described,
      by simp [sourceSize, named, held, there]⟩

theorem Coherent.grows (coherent : Coherent host limits directory registry)
    (grows : Grows directory other) : Coherent host limits other registry := by
  refine ⟨coherent.limited, coherent.keyed, fun key source held =>
    ((coherent.loads key source held).size_grows grows).1, coherent.packs, ?_, coherent.within⟩
  rw [coherent.bytes, totalSize, totalSize]
  refine congrArg List.sum (List.map_congr_left fun source member => ?_)
  have held := coherent.listed_iff.mpr ⟨member, rfl⟩
  exact ((coherent.loads _ source held).size_grows grows).2.symm

inductive RegistryCall
  | advertise (manifest : SourceManifest)
  | importJson (bytes : List UInt8) (expectedDigest : Option String)
  | setEnabled (id version : String) (enabled : Bool)

namespace SourceRegistry

def Outcome.done {α : Type} (outcome : Outcome α) : Outcome Unit :=
  ⟨outcome.directory, outcome.registry, outcome.result.map fun _ => ()⟩

def perform (host : RegistryHost) (faults : Faults) (directory : RegistryDirectory)
    (registry : SourceRegistry) : RegistryCall → Outcome Unit
  | .advertise manifest => (registry.advertise host faults directory manifest).done
  | .importJson bytes expectedDigest =>
    (registry.importJson host faults directory bytes expectedDigest).done
  | .setEnabled id version enabled =>
    (registry.setEnabled host faults directory id version enabled).done

end SourceRegistry

open SourceRegistry

def KeepsInstalled (before after : SourceRegistry) : Prop :=
  ∀ (key : SourceKey) source, before.sources[key]? = some source → source.pack.isSome = true →
    ∃ later, after.sources[key]? = some later ∧ later.manifest = source.manifest ∧
      later.pack = source.pack ∧ after.packs[key]? = before.packs[key]?

/-- What a call comes to: an answer or a refusal, or a new registry in the file, which the handle
takes over unless the commit is uncertain. -/
inductive Performed (host : RegistryHost) (limits : Limits) (directory : RegistryDirectory)
    (registry : SourceRegistry) : Outcome Unit → Prop
  | answered : Performed host limits directory registry ⟨directory, registry, .ok ()⟩
  | refused {stored : RegistryDirectory} {error : ReferenceError} (grows : Grows directory stored)
      (same : stored.registry = directory.registry) :
      Performed host limits directory registry ⟨stored, registry, .error error⟩
  | published {stored : RegistryDirectory} {committed after : SourceRegistry}
      {result : Except ReferenceError Unit} (grows : Grows directory stored)
      (coherent : Coherent host limits stored committed)
      (certain : committed.commitUncertain = false)
      (saved : Stored host limits stored committed.sources)
      (keeps : KeepsInstalled registry committed)
      (ends : result = .ok () ∧ after = committed ∨ ∃ reason,
        result = .error (.commitUncertain reason) ∧
          after = { registry with commitUncertain := true }) :
      Performed host limits directory registry ⟨stored, after, result⟩

theorem atomicReplace_cases (faults : Faults) (directory : RegistryDirectory)
    (bytes : List UInt8) :
    (∃ error, atomicReplace faults directory bytes = (directory, .error error) ∧
      isCommitUncertain (.error error) = false) ∨
    ∃ result, atomicReplace faults directory bytes =
      ({ directory with registry := some (.file bytes) }, result) ∧
        (result = .ok () ∨ ∃ reason, result = .error (.commitUncertain reason)) := by
  simp only [atomicReplace]
  split
  next error failed =>
    refine .inl ⟨error, rfl, ?_⟩
    simp only [bind, Except.bind, attempt, writeTemporary] at failed
    grind [isCommitUncertain, notRegular, notDirectory]
  · refine .inr ⟨_, rfl, ?_⟩
    cases faults .syncRoot with
    | none => exact .inl rfl
    | some reason => exact .inr ⟨reason, rfl⟩

theorem performed_publish (roundTrips : RegistryJsonRoundTrips host) {α : Type} (value : α)
    {stored : RegistryDirectory} {committed : SourceRegistry} {bytes : List UInt8}
    (limited : registry.limits = limits) (grows : Grows directory stored)
    (same : stored.registry = directory.registry)
    (coherent : Coherent host limits stored committed)
    (certain : committed.commitUncertain = false) (keeps : KeepsInstalled registry committed)
    (encoded : registry.registryBytes host committed.sources = .ok bytes) :
    Performed host limits directory registry
      (publish faults stored registry bytes committed value).done := by
  simp only [registryBytes, refuse_eq_ok_iff, bind_eq_ok_iff, mapError_eq_ok_iff, Nat.not_lt]
    at encoded
  obtain ⟨few, json, written, bounded, done⟩ := encoded
  cases done
  rw [limited] at few bounded
  rcases atomicReplace_cases faults stored bytes with ⟨error, failed, other⟩ | ⟨result, put, ends⟩
  · rw [publish, failed]
    simp only [other, Bool.or_false]
    exact .refused grows same
  · have saved : Stored host limits { stored with registry := some (.file bytes) }
        committed.sources := by
      refine .file rfl bounded (roundTrips _ _ written) ?_ (List.Perm.refl _)
      rw [values_eq_map_toList, List.length_map, Std.ExtTreeMap.length_toList]
      exact few
    have coherent : Coherent host limits { stored with registry := some (.file bytes) } committed :=
      coherent.grows fun _ _ held => held
    rw [publish, put]
    rcases ends with rfl | ⟨reason, rfl⟩
    · exact .published grows coherent certain saved keeps (.inl ⟨rfl, rfl⟩)
    · refine .published grows coherent certain saved keeps (.inr ⟨reason, rfl, ?_⟩)
      simp [isCommitUncertain]

theorem advertise_performed (roundTrips : RegistryJsonRoundTrips host)
    (coherent : Coherent host limits directory registry) (faults : Faults)
    (manifest : SourceManifest) :
    Performed host limits directory registry
      (registry.advertise host faults directory manifest).done := by
  have still : Grows directory directory := fun _ _ held => held
  simp only [advertise]
  split
  · exact .refused still rfl
  next checked =>
    obtain ⟨writable, valid⟩ := then_eq_ok_iff.mp checked
    have certain : registry.commitUncertain = false := by simpa [requireWritable] using writable
    split
    next existing held =>
      split
      · exact .answered
      · exact .refused still rfl
    next fresh =>
      split
      · exact .refused still rfl
      next bytes encoded =>
        rw [coherent.limited] at valid
        refine performed_publish roundTrips _ coherent.limited still rfl ?_ certain ?_ encoded
        · refine coherent.replace ⟨manifest, false, none⟩ rfl rfl ?_ (fun _ _ => rfl) rfl ?_
            coherent.within
          · rw [coherent.packs _ fresh]
            exact .advertised valid rfl rfl
          · rw [totalSize_insert fresh, ← coherent.bytes]
            exact (Nat.zero_add _).symm
        · intro key source held _
          refine ⟨source, ?_, rfl, rfl, rfl⟩
          exact (getElem?_insert_fresh registry.sources fresh).mpr (.inr held)

theorem fromJson_again {packHost : PackHost} {bytes : List UInt8} {expected : Option String}
    {pack : ValidatedPack}
    (checked : ValidatedPack.fromJson packHost bytes expected limits = .ok pack) :
    bytes.length ≤ limits.maxPackBytes ∧ validateManifest pack.manifest limits = .ok () ∧
      ValidatedPack.fromJson packHost bytes pack.manifest.digest limits = .ok pack := by
  rw [ValidatedPack.fromJson] at checked
  split at checked
  · cases checked
  next short =>
    split at checked
    · cases checked
    next text =>
      obtain ⟨raw, parsed, checked⟩ := bind_eq_ok_iff.mp checked
      simp only [validatePack, refuse_eq_ok_iff, then_eq_ok_iff] at checked
      obtain ⟨version, valid, checked⟩ := checked
      split at checked
      · cases checked
      next digest named =>
        simp only [refuse_eq_ok_iff, bind_eq_ok_iff] at checked
        obtain ⟨_, _, few, totals, entries, _, relations, computed, digested, same, done⟩ := checked
        cases done
        refine ⟨Nat.not_lt.mp short, valid, ?_⟩
        have hashed : validateDigest digest = .ok () := by
          have manifest := valid
          simp only [validateManifest, bind_eq_ok_iff] at manifest
          obtain ⟨_, _, _, _, _, _, _, _, _, _, _, _, _, _, _, _, _, _, _, hashed, _⟩ := manifest
          rw [named] at hashed
          exact hashed
        change ValidatedPack.fromJson packHost bytes raw.manifest.digest limits = _
        simp [ValidatedPack.fromJson, short, text, parsed, validatePack, version, valid, named,
          hashed, few, entries, relations, digested, same, bind, Except.bind, pure, Except.pure]

theorem storeImmutable_cases (faults : Faults) (directory : RegistryDirectory) (name : String)
    (bytes : List UInt8) (max : Nat) :
    let stored := storeImmutable faults directory name bytes max
    Grows directory stored.1 ∧ stored.1.registry = directory.registry ∧
      (stored.2 = .ok () →
        validatePackName name = .ok () ∧ stored.1.packs name = some (.file bytes)) := by
  have still : Grows directory directory := fun _ _ held => held
  simp only [storeImmutable]
  split
  · exact ⟨still, rfl, fun failed => by cases failed⟩
  next ready =>
    obtain ⟨hashed, _⟩ := then_eq_ok_iff.mp ready
    split
    · exact ⟨still, rfl, fun failed => by cases failed⟩
    next absent =>
      refine ⟨fun other node held => ?_, rfl, fun _ => ⟨hashed, Function.update_self ..⟩⟩
      have apart : other ≠ name := by
        rintro rfl
        cases absent.symm.trans held
      exact (Function.update_of_ne apart ..).trans held
    next node held =>
      refine ⟨still, rfl, fun compared => ?_⟩
      obtain ⟨found, read, same⟩ := bind_eq_ok_iff.mp compared
      split at same
      · cases same
      next equal =>
        rw [Decidable.not_not] at equal
        exact ⟨hashed, equal ▸ (readPack_ok read).1⟩

theorem importJson_performed (roundTrips : RegistryJsonRoundTrips host)
    (coherent : Coherent host limits directory registry) (faults : Faults)
    (bytes : List UInt8) (expectedDigest : Option String) :
    Performed host limits directory registry
      (registry.importJson host faults directory bytes expectedDigest).done := by
  have still : Grows directory directory := fun _ _ held => held
  simp only [importJson]
  split
  · exact .refused still rfl
  next pack opened =>
    obtain ⟨writable, checked⟩ := then_eq_ok_iff.mp opened
    have certain : registry.commitUncertain = false := by simpa [requireWritable] using writable
    rw [coherent.limited] at checked
    obtain ⟨short, valid, again⟩ := fromJson_again checked
    split
    · exact .refused still rfl
    · exact .answered
    next admitted =>
      have inert : ∀ old, registry.sources[pack.manifest.sourceKey]? = some old →
          old.pack = none := by
        intro old held
        simp only [admitPack, held] at admitted
        split at admitted
        · split at admitted <;> cases admitted
        next uninstalled => simpa using uninstalled
      split
      · exact .refused still rfl
      next total encoded planned =>
        simp only [bind_eq_ok_iff, refuse_eq_ok_iff, Nat.not_lt] at planned
        obtain ⟨_, added, bounded, _, encoded, done⟩ := planned
        cases done
        obtain ⟨small, rfl⟩ := addWithin_eq_ok_iff.mp added
        have cases := storeImmutable_cases faults directory (packName host bytes) bytes
          registry.limits.maxPackBytes
        split
        next stored error failed =>
          rw [failed] at cases
          exact .refused cases.1 cases.2.1
        next stored _ done =>
          rw [done] at cases
          obtain ⟨grows, same, put⟩ := cases
          obtain ⟨hashed, held⟩ : validatePackName (packName host bytes) = .ok () ∧
            stored.packs (packName host bytes) = some (.file bytes) := put rfl
          have size : sourceSize stored ⟨pack.manifest, false, some (packName host bytes)⟩ =
              bytes.length := by simp [sourceSize, held]
          refine performed_publish roundTrips _ coherent.limited grows same ?_ certain ?_ encoded
          · refine (coherent.grows grows).replace
              ⟨pack.manifest, false, some (packName host bytes)⟩ rfl rfl ?_ ?_ rfl ?_
              ⟨small, coherent.limited ▸ bounded⟩
            · rw [Std.ExtTreeMap.getElem?_insert_self]
              exact .installed valid rfl hashed held short rfl again rfl
            · exact fun other apart => getElem?_insert_of_ne registry.packs apart.symm pack
            · rw [(coherent.grows grows).bytes]
              exact (totalSize_install inert size).symm
          · intro key source found installed
            have apart : pack.manifest.sourceKey ≠ key := by
              rintro rfl
              rw [inert source found] at installed
              cases installed
            exact ⟨source, (getElem?_insert_of_ne registry.sources apart _).trans found, rfl, rfl,
              getElem?_insert_of_ne registry.packs apart pack⟩

theorem setEnabled_performed (roundTrips : RegistryJsonRoundTrips host)
    (coherent : Coherent host limits directory registry) (faults : Faults)
    (id version : String) (enabled : Bool) :
    Performed host limits directory registry
      (registry.setEnabled host faults directory id version enabled).done := by
  have still : Grows directory directory := fun _ _ held => held
  simp only [setEnabled]
  split
  · exact .refused still rfl
  next later checked =>
    simp only [then_eq_ok_iff] at checked
    obtain ⟨writable, _, _, checked⟩ := checked
    have certain : registry.commitUncertain = false := by simpa [requireWritable] using writable
    split at checked
    · cases checked
    next source held =>
      obtain ⟨installed, done⟩ := refuse_eq_ok_iff.mp checked
      cases done
      split
      · exact .refused still rfl
      next bytes encoded =>
        refine performed_publish roundTrips _ coherent.limited still rfl ?_ certain ?_ encoded
        · refine coherent.replace { source with enabled } (coherent.keyed _ source held) rfl ?_
            (fun _ _ => rfl) rfl ?_ coherent.within
          · have loads := coherent.loads _ source held
            revert loads
            generalize registry.packs[(⟨id, version⟩ : SourceKey)]? = pack
            intro loads
            cases loads with
            | advertised _ inert => simp [inert] at installed
            | installed valid named hashed there short same checked described =>
              exact .installed valid named hashed there short same checked described
          · have total : totalSize directory (registry.sources.insert ⟨id, version⟩
                { source with enabled }) + sourceSize directory source =
                totalSize directory registry.sources + sourceSize directory source :=
              totalSize_replace held _
            rw [coherent.bytes]
            exact (Nat.add_right_cancel total).symm
        · intro key other found installed_
          by_cases same : (⟨id, version⟩ : SourceKey) = key
          · subst same
            cases held.symm.trans found
            exact ⟨_, Std.ExtTreeMap.getElem?_insert_self, rfl, rfl, rfl⟩
          · exact ⟨other, (getElem?_insert_of_ne registry.sources same _).trans found, rfl, rfl, rfl⟩

inductive Reached (host : RegistryHost) (limits : Limits) :
    RegistryDirectory → SourceRegistry → Prop
  | opened {directory prepared : RegistryDirectory} {faults : Faults} {locked : Bool}
      {registry : SourceRegistry} (opens : openWithLimits host limits faults directory locked =
        (prepared, .ok registry)) : Reached host limits prepared registry
  | called {directory : RegistryDirectory} {registry : SourceRegistry}
      (reached : Reached host limits directory registry) (faults : Faults) (call : RegistryCall) :
      Reached host limits (registry.perform host faults directory call).directory
        (registry.perform host faults directory call).registry

/-- A handle and its directory: what a fresh open would load, and that the handle has it as long
as no commit of its is uncertain. -/
structure Kept (host : RegistryHost) (limits : Limits) (directory : RegistryDirectory)
    (registry : SourceRegistry) : Prop where
  coherent : Coherent host limits directory registry
  saved : ∃ onDisk, Coherent host limits directory onDisk ∧ onDisk.commitUncertain = false ∧
    Stored host limits directory onDisk.sources ∧
      (registry.commitUncertain = false → onDisk = registry)

theorem Stored.of_same {sources : Std.ExtTreeMap SourceKey StoredSource}
    (stored : Stored host limits directory sources) (same : other.registry = directory.registry) :
    Stored host limits other sources := by
  cases stored with
  | absent absent none_ => exact .absent (same.trans absent) none_
  | file there bounded parsed few listed => exact .file (same.trans there) bounded parsed few listed

theorem Performed.kept {outcome : Outcome Unit} (kept : Kept host limits directory registry)
    (performed : Performed host limits directory registry outcome) :
    Kept host limits outcome.directory outcome.registry := by
  obtain ⟨coherent, onDisk, found, certain, stored, agrees⟩ := kept
  cases performed with
  | answered => exact ⟨coherent, onDisk, found, certain, stored, agrees⟩
  | refused grows same =>
    exact ⟨coherent.grows grows, onDisk, found.grows grows, certain, stored.of_same same, agrees⟩
  | published grows committed sure saved keeps ends =>
    rcases ends with ⟨_, rfl⟩ | ⟨reason, _, rfl⟩
    · exact ⟨committed, _, committed, sure, saved, fun _ => rfl⟩
    · have flagged := coherent.grows grows
      exact ⟨⟨flagged.limited, flagged.keyed, flagged.loads, flagged.packs, flagged.bytes,
        flagged.within⟩, _, committed, sure, saved, fun unflagged => (by cases unflagged)⟩

theorem performed (roundTrips : RegistryJsonRoundTrips host)
    (coherent : Coherent host limits directory registry) (faults : Faults) (call : RegistryCall) :
    Performed host limits directory registry (registry.perform host faults directory call) := by
  cases call with
  | advertise manifest => exact advertise_performed roundTrips coherent faults manifest
  | importJson bytes expectedDigest =>
    exact importJson_performed roundTrips coherent faults bytes expectedDigest
  | setEnabled id version enabled =>
    exact setEnabled_performed roundTrips coherent faults id version enabled

theorem Reached.kept (roundTrips : RegistryJsonRoundTrips host)
    (reached : Reached host limits directory registry) :
    Kept host limits directory registry := by
  induction reached with
  | opened opens =>
    rw [openWithLimits] at opens
    split at opens
    · cases opens
    next prepared _ _ =>
      obtain ⟨rfl, loaded⟩ := Prod.mk.inj opens
      obtain ⟨coherent, certain, stored⟩ := load_stored loaded
      exact ⟨coherent, _, coherent, certain, stored, fun _ => rfl⟩
  | called _ faults call ih => exact (performed roundTrips ih.coherent faults call).kept ih

theorem perform_of_uncertain (uncertain : registry.commitUncertain = true) (faults : Faults)
    (call : RegistryCall) :
    registry.perform host faults directory call =
      ⟨directory, registry, .error (.invalid "close and reopen after an uncertain commit")⟩ := by
  have unwritable : registry.requireWritable =
      .error (.invalid "close and reopen after an uncertain commit") := if_pos uncertain
  cases call with
  | advertise manifest =>
    simp only [perform, advertise, unwritable, bind, Except.bind]
    rfl
  | importJson bytes expectedDigest =>
    simp only [perform, importJson, unwritable, bind, Except.bind]
    rfl
  | setEnabled id version enabled =>
    simp only [perform, setEnabled, unwritable, bind, Except.bind]
    rfl

theorem Coherent.validated (coherent : Coherent host limits directory registry) :
    registry.Validated host.toPackHost := by
  intro key pack held
  cases listed : registry.sources[key]? with
  | none => cases (coherent.packs key listed).symm.trans held
  | some source =>
    have loads := coherent.loads key source listed
    rw [held] at loads
    cases loads with
    | installed valid named hashed there short same checked described =>
      rename_i name bytes
      rw [← coherent.limited] at checked
      refine ⟨(congrArg SourceManifest.sourceKey described).trans (coherent.keyed key source listed),
        bytes, source.manifest.digest, ?_⟩
      rw [IndexedPack.fromJson_eq, checked]
      rfl

/-- Over any run of calls, whichever file operations fail. -/
theorem registry_agrees_with_its_directory (roundTrips : RegistryJsonRoundTrips host)
    (reached : Reached host limits directory registry) :
    Coherent host limits directory registry ∧ registry.Validated host.toPackHost ∧
      (∃ onDisk, load host limits noFaults directory = .ok onDisk ∧
        (registry.commitUncertain = false → onDisk = registry)) ∧
      ∀ faults call, Performed host limits directory registry
          (registry.perform host faults directory call) ∧
        (registry.commitUncertain = true → ∃ error,
          registry.perform host faults directory call = ⟨directory, registry, .error error⟩) := by
  obtain ⟨coherent, onDisk, found, certain, stored, agrees⟩ := reached.kept roundTrips
  refine ⟨coherent, coherent.validated, ⟨onDisk, load_of_stored found certain stored, agrees⟩,
    fun faults call => ⟨performed roundTrips coherent faults call, fun uncertain => ?_⟩⟩
  exact ⟨_, perform_of_uncertain uncertain faults call⟩

def tideRegistryHost : RegistryHost where
  toPackHost := tideHost
  registryJson file := if file = ⟨1, [⟨tidePack.manifest, false, none⟩]⟩ then .ok [1] else .error ""
  parseRegistry bytes :=
    if bytes = [1] then .ok ⟨1, [⟨tidePack.manifest, false, none⟩]⟩ else .error ""

theorem tideRegistryHost_roundTrips : RegistryJsonRoundTrips tideRegistryHost := by
  intro file bytes written
  simp only [tideRegistryHost] at written ⊢
  split at written
  next same =>
    cases written
    rw [if_pos rfl, same]
  next => cases written

def emptyDirectory : RegistryDirectory where
  root := .directory
  packsDirectory := .directory

theorem registry_agrees_with_its_directory_advertised :
    let opened : SourceRegistry := { limits := {} }
    let after := opened.perform tideRegistryHost noFaults emptyDirectory
      (.advertise tidePack.manifest)
    load tideRegistryHost {} noFaults after.directory = .ok after.registry := by
  intro opened after
  have opens : openWithLimits tideRegistryHost {} noFaults emptyDirectory false =
      (emptyDirectory, .ok opened) := rfl
  have reached : Reached tideRegistryHost {} after.directory after.registry :=
    .called (.opened opens) noFaults _
  obtain ⟨_, _, ⟨onDisk, loaded, agrees⟩, _⟩ :=
    registry_agrees_with_its_directory tideRegistryHost_roundTrips reached
  rw [loaded, agrees rfl]

end calls

end KnotEditor.Reference
