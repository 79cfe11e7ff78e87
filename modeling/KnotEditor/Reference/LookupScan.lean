import KnotEditor.Reference.Lookup

/-! Indexed lookups are scans of the packs they go through. -/

namespace KnotEditor.Reference

open Fallible PositionIndex

section Answers

variable {α β : Type}

def Answers (outcome : Except LookupError α) (value : α) : Prop :=
  (∃ error, outcome = .error (.refused error)) ∨ outcome = .ok value

theorem Answers.bind {first : Except LookupError α} {next : α → Except LookupError β} {value : α}
    {result : β} (answers : Answers first value) (rest : Answers (next value) result) :
    Answers (first >>= next) result := by
  rcases answers with ⟨error, refused⟩ | done
  · exact .inl ⟨error, by rw [refused]; rfl⟩
  · rw [done]
    exact rest

theorem Answers.refuse {checked : Except ReferenceError Unit}
    {next : Unit → Except LookupError β} {result : β} (rest : Answers (next ()) result) :
    Answers (refuse checked >>= next) result := by
  cases checked with
  | error error => exact .inl ⟨error, rfl⟩
  | ok value => exact rest

theorem Answers.refuseIf {condition : Prop} [Decidable condition] {error : ReferenceError}
    {next : α → Except LookupError β} {outcome : Except LookupError β} {result : β}
    (rest : ¬ condition → Answers outcome result) :
    Answers (if condition then (Except.error (.refused error) >>= next) else outcome) result := by
  split
  · exact .inl ⟨error, rfl⟩
  next passes => exact rest passes

end Answers

section Packs

theorem collect_eq {entries : List LexicalEntry} (limit : Nat) (indexes : List Nat)
    (items result : List LexicalEntry)
    (held : indexes.map (fun index => entries[index]?) = items.map some)
    (room : result.length ≤ limit) (lang : Option String) :
    collect entries lang limit indexes result =
      .ok (result ++ (items.filter fun entry => !otherLanguage lang entry).take
        (limit - result.length)) := by
  induction indexes generalizing items result with
  | nil =>
    cases items with
    | nil => simp [collect]
    | cons item rest => cases held
  | cons index rest ih =>
    cases items with
    | nil => cases held
    | cons item others =>
      rw [List.map_cons, List.map_cons, List.cons.injEq] at held
      simp only [collect, held.1]
      split
      next other =>
        rw [ih others result held.2 room, List.filter_cons_of_neg (by simp [other])]
      next same =>
        rw [List.filter_cons_of_pos (by simpa using same)]
        split
        next full => simp [full]
        next short =>
          have more : (result ++ [item]).length ≤ limit := by
            rw [List.length_append, List.length_singleton]
            omega
          rw [ih others _ held.2 more, List.append_assoc, List.length_append,
            List.length_singleton]
          obtain ⟨left, size⟩ : ∃ left, limit - result.length = left + 1 :=
            ⟨limit - result.length - 1, by omega⟩
          rw [size, show limit - (result.length + 1) = left by omega, List.take_succ_cons]
          rfl

def LookupQuery.matches (query : LookupQuery) (entry : LexicalEntry) : Bool :=
  entry.lemma_ = query.lemma_ && !otherLanguage query.language entry

theorem lookup_indexed (pack : ValidatedPack) (query : LookupQuery) (limit : Nat) :
    pack.indexed.lookup query.lemma_ query.language limit =
      .ok ((pack.pack.entries.filter query.matches).take limit) := by
  have positions := items_at_positions LexicalEntry.lemma_ pack.pack.entries query.lemma_
  have collected := collect_eq limit _ _ [] positions (Nat.zero_le limit) query.language
  rw [List.filter_filter] at collected
  refine collected.trans ?_
  rw [List.nil_append, List.length_nil, Nat.sub_zero]
  congr 3
  funext entry
  exact Bool.and_comm _ _

theorem eq_of_id {pack : NormalizedPack} (checked : pack.Checked) {first second : Nat}
    {entry other : LexicalEntry} (one : pack.entries[first]? = some entry)
    (two : pack.entries[second]? = some other) (same : entry.id = other.id) : first = second := by
  have placed := position_iff (fun entry => entry.id.entry) pack.entries entry.id.entry
    checked.distinct
  have here := (placed first).mpr ⟨entry, one, rfl⟩
  have there := (placed second).mpr ⟨other, two, by rw [same]⟩
  exact Option.some.inj (here.symm.trans there)

theorem entry_indexed {pack : ValidatedPack} (checked : pack.pack.Checked) (id : ReferenceId) :
    ∃ found, pack.indexed.entry id = .ok found ∧
      ∀ entry, found = some entry ↔ entry ∈ pack.pack.entries ∧ entry.id = id := by
  have placed := position_iff (fun entry => entry.id.entry) pack.pack.entries id.entry
    checked.distinct
  unfold IndexedPack.entry
  split
  next foreign =>
    refine ⟨none, rfl, ?_⟩
    intro entry
    simp only [reduceCtorEq, false_iff, not_and]
    intro member same
    exact foreign (same ▸ checked.sources entry member)
  next home =>
    have home := Decidable.not_not.mp home
    cases found : pack.indexed.byId[id.entry]? with
    | none =>
      refine ⟨none, rfl, ?_⟩
      intro entry
      simp only [reduceCtorEq, false_iff, not_and]
      intro member same
      obtain ⟨index, held⟩ := List.mem_iff_getElem?.mp member
      have here := (placed index).mpr ⟨entry, held, by rw [same]⟩
      exact absurd (found.symm.trans here) (by simp)
    | some index =>
      obtain ⟨target, held, named⟩ := (placed index).mp found
      have source := checked.sources target (List.mem_of_getElem? held)
      have same : target.id = id := ReferenceId.eq_of_parts (source.trans home.symm) named
      refine ⟨some target, by simp only [ValidatedPack.indexed, held], ?_⟩
      intro entry
      rw [Option.some.injEq]
      constructor
      · rintro rfl
        exact ⟨List.mem_of_getElem? held, same⟩
      · rintro ⟨member, wanted⟩
        obtain ⟨other, held'⟩ := List.mem_iff_getElem?.mp member
        have again := eq_of_id checked held held' (same.trans wanted.symm)
        rw [again, held', Option.some.injEq] at held
        exact held.symm

end Packs

namespace SourceRegistry

variable (registry : SourceRegistry)

def scanSource (query : LookupQuery) (key : SourceKey) : List LexicalEntry :=
  if registry.isEnabled key then
    match registry.packs[key]? with
    | none => []
    | some pack => pack.pack.entries.filter query.matches
  else []

def scan (query : LookupQuery) : List LexicalEntry :=
  query.sources.flatMap (registry.scanSource query)

variable {registry}

theorem lookupSource_answers (registry : SourceRegistry) (query : LookupQuery) (limit : Nat)
    (state : List SourceKey × List LexicalEntry) (room : state.2.length ≤ limit)
    (key : SourceKey) :
    Answers (registry.lookupSource query limit state key) (key :: state.1,
      state.2 ++ (registry.scanSource query key).take (limit - state.2.length)) := by
  unfold lookupSource scanSource
  apply Answers.refuse
  apply Answers.refuse
  apply Answers.refuseIf
  intro fresh
  cases enabled : registry.isEnabled key with
  | false => simp [Answers, pure, Except.pure]
  | true =>
    cases held : registry.packs[key]? with
    | none => simp [Answers, pure, Except.pure]
    | some pack =>
      simp [Answers, remaining, room, lookup_indexed, bind, Except.bind, pure, Except.pure]

theorem foldlM_lookupSource_answers (registry : SourceRegistry) (query : LookupQuery)
    (limit : Nat) (keys : List SourceKey) (state : List SourceKey × List LexicalEntry) (room : state.2.length ≤ limit) :
    ∃ seen, Answers (keys.foldlM (registry.lookupSource query limit) state)
      (seen, state.2 ++ (keys.flatMap (registry.scanSource query)).take
        (limit - state.2.length)) := by
  induction keys generalizing state with
  | nil => exact ⟨state.1, .inr (by simp [pure, Except.pure])⟩
  | cons key rest ih =>
    have turn := registry.lookupSource_answers query limit state room key
    set found := (registry.scanSource query key).take (limit - state.2.length) with taken
    have size : found.length =
        min (limit - state.2.length) (registry.scanSource query key).length := List.length_take
    have within : (state.2 ++ found).length ≤ limit := by
      rw [List.length_append]
      omega
    obtain ⟨seen, later⟩ := ih (key :: state.1, state.2 ++ found) within
    refine ⟨seen, ?_⟩
    rw [List.foldlM_cons]
    refine turn.bind ?_
    rw [List.flatMap_cons, List.take_append, ← taken, ← List.append_assoc]
    rw [List.length_append] at later
    rwa [show limit - state.2.length - (registry.scanSource query key).length =
      limit - (state.2.length + found.length) by omega]

theorem lookup_answers (query : LookupQuery) (limit : Nat) :
    Answers (registry.lookup query limit) ((registry.scan query).take limit) := by
  unfold lookup
  apply Answers.refuse
  have asked : Answers (query.language.forM fun value => refuse (language value)) () := by
    cases query.language with
    | none => exact .inr rfl
    | some value =>
      cases checked : language value with
      | error error => exact .inl ⟨error, by simp [Option.forM, refuse, checked, Except.mapError]⟩
      | ok done => exact .inr (by simp [Option.forM, refuse, checked, Except.mapError])
  refine asked.bind ?_
  apply Answers.refuseIf
  intro few
  apply Answers.refuseIf
  intro short
  obtain ⟨seen, all⟩ :=
    registry.foldlM_lookupSource_answers query limit query.sources ([], []) (Nat.zero_le limit)
  exact all.bind (.inr rfl)

def Validated (host : PackHost) (registry : SourceRegistry) : Prop :=
  ∀ (key : SourceKey) (pack : ValidatedPack), registry.packs[key]? = some pack →
    pack.manifest.sourceKey = key ∧ ∃ bytes expectedDigest,
      IndexedPack.fromJson host bytes expectedDigest registry.limits = .ok pack.indexed

def At (registry : SourceRegistry) (key : SourceKey) (index : Nat) (entry : LexicalEntry) : Prop :=
  ∃ pack, registry.packs[key]? = some pack ∧ pack.pack.entries[index]? = some entry

theorem checked_of_indexed {host : PackHost} {limits : Limits} {bytes : List UInt8}
    {expectedDigest : Option String} {pack : ValidatedPack}
    (checked : IndexedPack.fromJson host bytes expectedDigest limits = .ok pack.indexed) :
    pack.pack.Checked := by
  rw [IndexedPack.fromJson_eq] at checked
  cases validated : ValidatedPack.fromJson host bytes expectedDigest limits with
  | error error =>
    rw [validated] at checked
    cases checked
  | ok other =>
    rw [validated] at checked
    have same : other.pack = pack.pack := congrArg IndexedPack.pack (Except.ok.inj checked)
    exact same ▸ ValidatedPack.fromJson_checked validated

theorem At.source {host : PackHost} (valid : registry.Validated host) {key : SourceKey}
    {index : Nat} {entry : LexicalEntry} (there : registry.At key index entry) :
    entry.id.sourceKey = key := by
  obtain ⟨pack, held, found⟩ := there
  obtain ⟨source, bytes, expected, checked⟩ := valid key pack held
  rw [← source]
  exact (checked_of_indexed checked).sources entry (List.mem_of_getElem? found)

theorem At.unique {host : PackHost} (valid : registry.Validated host) {key key' : SourceKey}
    {index index' : Nat} {entry other : LexicalEntry} (one : registry.At key index entry)
    (two : registry.At key' index' other) (same : entry.id = other.id) :
    key = key' ∧ index = index' ∧ entry = other := by
  have keys : key = key' := by rw [← one.source valid, same, two.source valid]
  subst keys
  obtain ⟨pack, held, found⟩ := one
  obtain ⟨pack', held', found'⟩ := two
  obtain ⟨_, bytes, expected, checked⟩ := valid key pack held
  rw [held, Option.some.injEq] at held'
  subst held'
  have indexes := eq_of_id (checked_of_indexed checked) found found' same
  subst indexes
  rw [found, Option.some.injEq] at found'
  exact ⟨rfl, rfl, found'⟩

theorem entry_answers {host : PackHost} (valid : registry.Validated host) (id : ReferenceId) :
    ∃ found, Answers (registry.entry id) found ∧
      ∀ entry, found = some entry ↔ registry.isEnabled id.sourceKey ∧
        ∃ key index, registry.At key index entry ∧ entry.id = id := by
  have home : ∀ {key index entry}, registry.At key index entry → entry.id = id →
      ∃ pack, registry.packs[id.sourceKey]? = some pack ∧ entry ∈ pack.pack.entries := by
    intro key index entry there same
    have source := there.source valid
    rw [same] at source
    obtain ⟨pack, held, found⟩ := there
    exact ⟨pack, source ▸ held, List.mem_of_getElem? found⟩
  cases enabled : registry.isEnabled id.sourceKey with
  | false =>
    refine ⟨none, ?_, by simp⟩
    unfold entry
    apply Answers.refuse
    exact .inr (by simp [enabled, pure, Except.pure])
  | true =>
    cases held : registry.packs[id.sourceKey]? with
    | none =>
      refine ⟨none, ?_, ?_⟩
      · unfold entry
        apply Answers.refuse
        exact .inr (by simp [enabled, held, pure, Except.pure])
      · intro entry
        simp only [reduceCtorEq, true_and, false_iff]
        rintro ⟨key, index, there, same⟩
        obtain ⟨pack, installed, _⟩ := home there same
        exact absurd (held.symm.trans installed) (by simp)
    | some pack =>
      obtain ⟨_, bytes, expected, checked⟩ := valid _ _ held
      obtain ⟨found, answer, exact_⟩ := entry_indexed (checked_of_indexed checked) id
      refine ⟨found, ?_, ?_⟩
      · unfold entry
        apply Answers.refuse
        exact .inr (by simp [enabled, held, answer])
      · intro entry
        rw [exact_ entry]
        constructor
        · rintro ⟨member, same⟩
          obtain ⟨index, found⟩ := List.mem_iff_getElem?.mp member
          exact ⟨rfl, id.sourceKey, index, ⟨pack, held, found⟩, same⟩
        · rintro ⟨_, key, index, there, same⟩
          obtain ⟨other, installed, member⟩ := home there same
          rw [held, Option.some.injEq] at installed
          exact ⟨installed ▸ member, same⟩

end SourceRegistry

def LexicalEntry.allRelations (entry : LexicalEntry) : List LexicalRelation :=
  entry.relations ++ entry.senses.flatMap LexicalSense.relations

def LexicalEntry.hasSense (entry : LexicalEntry) (sense : String) : Prop :=
  ∃ candidate ∈ entry.senses, candidate.id = sense

theorem follow_indexed {host : PackHost} {bytes : List UInt8} {expectedDigest : Option String}
    {limits : Limits} {indexed : IndexedPack}
    (checked : IndexedPack.fromJson host bytes expectedDigest limits = .ok indexed) :
    ∀ entry ∈ indexed.pack.entries, ∀ relation ∈ entry.allRelations,
      ∃ target, indexed.entry relation.target = .ok (some target) ∧
        ∀ sense ∈ relation.targetSense, target.hasSense sense := by
  rw [IndexedPack.fromJson_eq] at checked
  cases validated : ValidatedPack.fromJson host bytes expectedDigest limits with
  | error error =>
    rw [validated] at checked
    cases checked
  | ok pack =>
    rw [validated] at checked
    cases checked
    intro entry member relation among
    have checked := ValidatedPack.fromJson_checked validated
    obtain ⟨_, target, inside, same, senses⟩ := checked.targets entry member relation among
    obtain ⟨found, answer, exact_⟩ := entry_indexed checked relation.target
    refine ⟨target, ?_, senses⟩
    rw [answer, (exact_ target).mpr ⟨inside, same⟩]

theorem follow_registry {host : PackHost} {registry : SourceRegistry}
    (valid : registry.Validated host) {key : SourceKey} {index : Nat} {entry : LexicalEntry}
    (there : registry.At key index entry) (enabled : registry.isEnabled key) :
    ∀ relation ∈ entry.allRelations, ∃ target,
      registry.entry relation.target = .ok (some target) ∧
        ∀ sense ∈ relation.targetSense, target.hasSense sense := by
  intro relation among
  obtain ⟨pack, held, found⟩ := there
  obtain ⟨source, bytes, expected, indexed⟩ := valid key pack held
  have checked := SourceRegistry.checked_of_indexed indexed
  have member : entry ∈ pack.pack.entries := List.mem_of_getElem? found
  obtain ⟨reference, target, inside, same, senses⟩ := checked.targets entry member relation among
  have home : relation.target.sourceKey = key := by
    rw [← same, checked.sources target inside]
    exact source
  obtain ⟨answered, answer, exact_⟩ := entry_indexed checked relation.target
  refine ⟨target, ?_, senses⟩
  have led : answered = some target := (exact_ target).mpr ⟨inside, same⟩
  simp [SourceRegistry.entry, reference, refuse, Except.mapError, home, enabled, held, answer, led,
    bind, Except.bind]

namespace SourceRegistry

variable {packHost : PackHost} {registry next : SourceRegistry}

theorem Validated.insert (valid : registry.Validated packHost) {key : SourceKey}
    {pack : ValidatedPack} {bytes : List UInt8} {expectedDigest : Option String}
    (checked : ValidatedPack.fromJson packHost bytes expectedDigest registry.limits =
      .ok pack) (source : pack.manifest.sourceKey = key)
    (packs : next.packs = registry.packs.insert key pack)
    (limits : next.limits = registry.limits) : next.Validated packHost := by
  intro other found there
  rw [packs, Std.ExtTreeMap.getElem?_insert] at there
  rw [limits]
  split at there
  next same =>
    cases there
    refine ⟨source.trans (Std.LawfulEqOrd.eq_of_compare same), bytes, expectedDigest, ?_⟩
    rw [IndexedPack.fromJson_eq, checked]
    rfl
  · exact valid other found there

theorem validated_empty (limits : Limits) : Validated packHost { limits } := by
  intro key pack held
  simp at held

end SourceRegistry

/-- For registries of validated packs: a lookup is the scan up to its limit unless it is refused,
an entry is found exactly where its source is enabled, and no relation leads nowhere. -/
theorem indexed_lookup_is_scan (host : PackHost) (registry : SourceRegistry)
    (valid : registry.Validated host) :
    (∀ query limit, Answers (registry.lookup query limit) ((registry.scan query).take limit)) ∧
      (∀ id, ∃ found, Answers (registry.entry id) found ∧
        ∀ entry, found = some entry ↔ registry.isEnabled id.sourceKey ∧
          ∃ key index, registry.At key index entry ∧ entry.id = id) ∧
      (∀ key key' index index' entry other, registry.At key index entry →
        registry.At key' index' other → entry.id = other.id →
          key = key' ∧ index = index' ∧ entry = other) ∧
      (∀ key index entry, registry.At key index entry → registry.isEnabled key →
        ∀ relation ∈ entry.allRelations, ∃ target,
          registry.entry relation.target = .ok (some target) ∧
            ∀ sense ∈ relation.targetSense, target.hasSense sense) ∧
      ∀ bytes expectedDigest limits indexed,
        IndexedPack.fromJson host bytes expectedDigest limits = .ok indexed →
          ∀ entry ∈ indexed.pack.entries, ∀ relation ∈ entry.allRelations, ∃ target,
            indexed.entry relation.target = .ok (some target) ∧
              ∀ sense ∈ relation.targetSense, target.hasSense sense := by
  refine ⟨?_, ?_, ?_, ?_, ?_⟩
  · intro query limit
    exact SourceRegistry.lookup_answers query limit
  · intro id
    exact SourceRegistry.entry_answers valid id
  · intro key key' index index' entry other one two same
    exact one.unique valid two same
  · intro key index entry there enabled
    exact follow_registry valid there enabled
  · intro bytes expectedDigest limits indexed checked
    exact follow_indexed checked

section Tide

def tideReference (entry : String) : ReferenceId := ⟨"tide", "1", entry⟩

def ebbRelation : LexicalRelation := ⟨.antonym, tideReference "flow-n", some "flow-1"⟩

def ebb : LexicalEntry where
  id := tideReference "ebb-n"
  lemma_ := "ebb"
  language := "en"
  partOfSpeech := some .noun
  senses := [⟨"ebb-1", none, "the fall of the tide", [], [ebbRelation]⟩]
  pronunciations := []
  relations := []

def flow : LexicalEntry where
  id := tideReference "flow-n"
  lemma_ := "flow"
  language := "en"
  partOfSpeech := some .noun
  senses := [⟨"flow-1", none, "the rise of the tide", [], []⟩]
  pronunciations := []
  relations := []

def tideDigest : String := "bd93641cc28db7cb83a3bc927f61a7f7920d465bd28d176cbaee478f00b83edc"

def tidePack : NormalizedPack where
  schemaVersion := 1
  manifest :=
    { id := "tide"
      version := "1"
      label := "Tide words"
      language := "en"
      features := [.definitions, .relations]
      license := ⟨"CC0", none, none⟩
      attribution := "none needed"
      upstream := none
      digest := some tideDigest }
  entries := [ebb, flow]

def tideEntriesJson : String :=
  "[\x7b\"id\":\x7b\"source\":\"tide\",\"version\":\"1\",\"entry\":\"ebb-n\"\x7d,\"lemma" ++
  "\":\"ebb\",\"language\":\"en\",\"part_of_speech\":\"noun\",\"senses\":[\x7b\"id\":\"eb" ++
  "b-1\",\"definition\":\"the fall of the tide\",\"examples\":[],\"relations\":[\x7b\"kin" ++
  "d\":\"antonym\",\"target\":\x7b\"source\":\"tide\",\"version\":\"1\",\"entry\":\"flow-" ++
  "n\"\x7d,\"target_sense\":\"flow-1\"\x7d]\x7d],\"pronunciations\":[],\"relations\":[]" ++
  "\x7d,\x7b\"id\":\x7b\"source\":\"tide\",\"version\":\"1\",\"entry\":\"flow-n\"\x7d,\"l" ++
  "emma\":\"flow\",\"language\":\"en\",\"part_of_speech\":\"noun\",\"senses\":[\x7b\"id\"" ++
  ":\"flow-1\",\"definition\":\"the rise of the tide\",\"examples\":[],\"relations\":[]" ++
  "\x7d],\"pronunciations\":[],\"relations\":[]\x7d]"

def tidePackJson : String :=
  "\x7b\"schema_version\":1,\"manifest\":\x7b\"id\":\"tide\",\"version\":\"1\",\"label\":" ++
  "\"Tide words\",\"language\":\"en\",\"features\":[\"definitions\",\"relations\"],\"lice" ++
  "nse\":\x7b\"name\":\"CC0\",\"text\":null,\"url\":null\x7d,\"attribution\":\"none neede" ++
  "d\",\"upstream\":null,\"digest\":\"bd93641cc28db7cb83a3bc927f61a7f7920d465bd28d176cbae" ++
  "e478f00b83edc\"\x7d,\"entries\":" ++
  tideEntriesJson ++ "\x7d"

def ebbRelationJson : String :=
  "\x7b\"kind\":\"antonym\",\"target\":\x7b\"source\":\"tide\",\"version\":\"1\",\"entry" ++
  "\":\"flow-n\"\x7d,\"target_sense\":\"flow-1\"\x7d"

def tideHost : PackHost where
  parsePack bytes :=
    if bytes = utf8Bytes tidePackJson.toList then .ok tidePack else .error "expected value"
  relationJson relation := if relation = ebbRelation then ebbRelationJson else ""
  entriesJson entries :=
    if entries = [ebb, flow] then .ok (utf8Bytes tideEntriesJson.toList) else .error "io error"
  blake3Hex bytes := if bytes = utf8Bytes tideEntriesJson.toList then tideDigest else ""

def tideRegistry : SourceRegistry where
  limits := {}
  sources := (∅ : Std.ExtTreeMap SourceKey StoredSource).insert ⟨"tide", "1"⟩
    ⟨tidePack.manifest, true,
      some "476fe182af38706021108e54ea77c851e2b88981b653e354cc9b64bfc1e0e491.json"⟩
  packs := (∅ : Std.ExtTreeMap SourceKey ValidatedPack).insert ⟨"tide", "1"⟩ ⟨tidePack⟩

theorem tidePack_digest : digestEntries tideHost [ebb, flow] = .ok tideDigest := by
  simp [digestEntries, tideHost, Except.mapError, Except.map]

theorem tidePack_valid :
    ValidatedPack.fromJson tideHost (utf8Bytes tidePackJson.toList) none {} = .ok ⟨tidePack⟩ := by
  have small : tidePackJson.utf8ByteSize ≤ ({} : Limits).maxPackBytes := by decide +kernel
  have parsed : tideHost.parsePack (utf8Bytes tidePackJson.toList) = .ok tidePack := by
    simp only [tideHost, if_true]
  have manifest : validateManifest tidePack.manifest {} = .ok () := by decide +kernel
  have entries : (tidePack.entries.foldlM (validateEntry tidePack.manifest {}) {}).isOk = true := by
    decide
  have related : tidePack.entries.forM (validateRelations tideHost tidePack) = .ok () := by
    decide
  rw [fromJson_of_parsed (length_utf8Bytes _ ▸ small) (fromUtf8_utf8Bytes _ ▸ rfl) parsed]
  exact validatePack_of_checks rfl manifest rfl (by decide) entries related tidePack_digest

theorem tideRegistry_validated : tideRegistry.Validated tideHost :=
  (SourceRegistry.validated_empty {}).insert tidePack_valid rfl rfl rfl

def ebbQuery : LookupQuery := ⟨"ebb", some "en", [⟨"tide", "1"⟩]⟩

theorem indexed_lookup_is_scan_tide :
    Answers (tideRegistry.lookup ebbQuery 8) ((tideRegistry.scan ebbQuery).take 8) ∧
      tideRegistry.lookup ebbQuery 8 = .ok [ebb] :=
  ⟨(indexed_lookup_is_scan tideHost tideRegistry tideRegistry_validated).1 ebbQuery 8,
    by decide⟩

end Tide

end KnotEditor.Reference
