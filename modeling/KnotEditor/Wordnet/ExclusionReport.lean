import KnotEditor.Reference.PackIndex
import KnotEditor.Wordnet.ImportIndex

/-! What the report of an import counts, against what the import leaves out. -/

namespace KnotEditor.Wordnet

open Fallible Tallies Reference

def inPack (pack : NormalizedPack) (entry : RawEntry) : Bool :=
  pack.entries.any fun written => written.id.entry = entry.id

def memberEntries (raw : RawWordnet) (synset : String) : List RawEntry :=
  raw.entries.flatMap fun entry =>
    (entry.senses.filter fun sense => sense.synset = synset).map fun _ => entry

section Leaving

variable (raw : RawWordnet) (inside : RawEntry → Bool)

def outputSenses : List RawSense := (raw.entries.filter inside).flatMap RawEntry.senses

def leaves (relation : RawRelation) : Bool :=
  !raw.entries.any fun entry =>
    inside entry && entry.senses.any fun sense => sense.id = relation.target

/-- The projections of a synset relation that are omitted: one for each member outside, and one
where there are no members. -/
def omittedMembers (synset : String) : Nat :=
  if (memberEntries raw synset).isEmpty then 1
  else (memberEntries raw synset).countP fun entry => !inside entry

def countedMembers (synset : String) : Nat :=
  if (memberEntries raw synset).any inside then 0 else 1

def supportedSynsetRelations (sense : RawSense) : List RawRelation :=
  (synsetRelations raw sense.synset).filter RawRelation.isSupported

def leavingRelations (sense : RawSense) : Nat :=
  (sense.relations.filter RawRelation.isSupported).countP (leaves raw inside)

def omitted (sense : RawSense) : Nat :=
  leavingRelations raw inside sense +
    ((supportedSynsetRelations raw sense).map fun relation =>
      omittedMembers raw inside relation.target).sum

def counted (sense : RawSense) : Nat :=
  leavingRelations raw inside sense +
    ((supportedSynsetRelations raw sense).map fun relation =>
      countedMembers raw inside relation.target).sum

variable {raw inside}

theorem countedMembers_le (synset : String) :
    countedMembers raw inside synset ≤ omittedMembers raw inside synset := by
  unfold countedMembers omittedMembers
  cases held : memberEntries raw synset with
  | nil => simp
  | cons entry rest =>
    rw [List.isEmpty_cons]
    split
    · exact Nat.zero_le _
    next none_ =>
      rw [List.any_cons, Bool.or_eq_true, not_or, Bool.not_eq_true] at none_
      simp [none_.1]

theorem countedMembers_eq_iff (synset : String) :
    countedMembers raw inside synset = omittedMembers raw inside synset ↔
      (memberEntries raw synset).length ≤ 1 ∨
        ∀ entry ∈ memberEntries raw synset, inside entry = true := by
  unfold countedMembers omittedMembers
  cases held : memberEntries raw synset with
  | nil => simp
  | cons entry rest =>
    rw [List.isEmpty_cons]
    by_cases some_ : (entry :: rest).any inside = true
    · obtain ⟨included, member, held⟩ := List.any_eq_true.mp some_
      rw [if_pos some_, if_neg Bool.false_ne_true, eq_comm, List.countP_eq_zero]
      constructor
      · intro all
        exact .inr fun other there => by simpa using all other there
      · rintro (single | all) other there
        · have alone : rest = [] := List.eq_nil_of_length_eq_zero (by
            rw [List.length_cons] at single
            omega)
          rw [alone, List.mem_singleton] at member there
          rw [there, ← member, held]
          exact Bool.false_ne_true
        · rw [all other there]
          exact Bool.false_ne_true
    · have outside : ∀ other ∈ entry :: rest, (!inside other) = true := by
        intro other there
        rw [Bool.not_eq_true']
        exact Bool.not_eq_true _ ▸ fun held => some_ (List.any_eq_true.mpr ⟨other, there, held⟩)
      rw [if_neg some_, if_neg Bool.false_ne_true, List.countP_eq_length.mpr outside]
      constructor
      · intro same
        exact .inl same.ge
      · rintro (single | all)
        · exact Nat.le_antisymm (Nat.succ_le_succ (Nat.zero_le _)) single
        · have first := outside entry List.mem_cons_self
          rw [all entry List.mem_cons_self] at first
          cases first

/-- All that an import omits is counted just where no synset has members on both sides of the
boundary, or several beyond it. -/
theorem counted_eq_omitted_iff :
    ((outputSenses raw inside).map (counted raw inside)).sum =
        ((outputSenses raw inside).map (omitted raw inside)).sum ↔
      ∀ sense ∈ outputSenses raw inside, ∀ relation ∈ supportedSynsetRelations raw sense,
        (memberEntries raw relation.target).length ≤ 1 ∨
          ∀ entry ∈ memberEntries raw relation.target, inside entry = true := by
  have below : ∀ sense : RawSense, counted raw inside sense ≤ omitted raw inside sense :=
    fun sense => Nat.add_le_add_left
      (List.sum_le_sum fun relation _ => countedMembers_le relation.target) _
  rw [sum_eq_sum_iff fun sense _ => below sense]
  refine forall₂_congr fun sense _ => ?_
  rw [counted, omitted, Nat.add_left_cancel_iff, sum_eq_sum_iff fun relation _ =>
    countedMembers_le relation.target]
  exact forall₂_congr fun relation _ => countedMembers_eq_iff relation.target

end Leaving

section Projecting

open Lexicon

variable {raw : RawWordnet} {options : ImportOptions} {index : LexiconIndex} {host : Host}
  {inside : RawEntry → Bool} {selected : Selected} {projection next : Projection}

def Selects (raw : RawWordnet) (inside : RawEntry → Bool) (selected : Selected) : Prop :=
  ∀ position, position ∈ selected ↔ ∃ entry, raw.entries[position]? = some entry ∧ inside entry

theorem selected_iff (selects : Selects raw inside selected) {position : Nat} {entry : RawEntry}
    (here : raw.entries[position]? = some entry) : position ∈ selected ↔ inside entry = true := by
  rw [selects]
  simp [here]

theorem excluded_add {lexicon : Lexicon} {kind : RelationKind} {target : Nat × RawSense}
    (added : lexicon.add host kind projection target = .ok next) :
    next.excluded = projection.excluded := by
  simp only [add, bind_eq_ok_iff] at added
  obtain ⟨entry, -, added⟩ := added
  unfold Projection.pushUnique at added
  split at added
  · cases added
    rfl
  · simp only [Projection.push, invalid, bind_eq_ok_iff, refuse_eq_ok_iff] at added
    obtain ⟨budget, -, -, done⟩ := added
    cases done
    rfl

def Excludes (projection next : Projection) (excluded : Nat) : Prop :=
  Moved projection.excluded next.excluded [] excluded

theorem excludes_of_eq (same : next.excluded = projection.excluded) :
    Excludes projection next 0 := by
  rw [Excludes, same]
  exact .refl _

theorem moved_pass {σ α : Type} (counts : σ → Counts) {step : σ → α → Except ImportError σ}
    {items : List α} {state result : σ} (pass : items.foldlM step state = .ok result)
    {excluded : α → Nat}
    (turn : ∀ (before : σ) (item : α) (after : σ), step before item = .ok after →
      Moved (counts before) (counts after) [] (excluded item)) :
    Moved (counts state) (counts result) [] (items.map excluded).sum := by
  induction items generalizing state with
  | nil =>
    cases pass
    exact .refl _
  | cons item rest ih =>
    rw [List.foldlM_cons, bind_eq_ok_iff] at pass
    obtain ⟨middle, first, later⟩ := pass
    rw [List.map_cons, List.sum_cons]
    exact (turn state item middle first).trans (ih later)

theorem excludes_outside (excluded : projection.exclude outsideKey = .ok next) :
    Excludes projection next 1 := by
  obtain ⟨counts, counted, rfl⟩ := map_eq_ok_iff.mp excluded
  have bumped := count_eq_ok counted
  subst bumped
  exact moved_outside

theorem excludes_memberless (excluded : projection.exclude memberlessKey = .ok next) :
    Excludes projection next 1 := by
  obtain ⟨counts, counted, rfl⟩ := map_eq_ok_iff.mp excluded
  have bumped := count_eq_ok counted
  subst bumped
  exact moved_memberless

theorem excludes_synonym {lexicon : Lexicon} {sense : RawSense} {member : Nat × RawSense}
    (added : lexicon.addSynonym host selected sense projection member = .ok next) :
    Excludes projection next 0 := by
  unfold addSynonym at added
  split at added
  · exact excludes_of_eq (excluded_add added)
  · cases added
    exact excludes_of_eq rfl

theorem leaves_iff (indexed : IndexedLexicon raw options index)
    (selects : Selects raw inside selected) {relation : RawRelation} {owner : Nat × RawSense}
    (owned : index.senseOwner[relation.target]? = some owner) :
    leaves raw inside relation = !decide (owner.1 ∈ selected) := by
  obtain ⟨⟨entry, here, member⟩, same⟩ := (owner_iff indexed).mp owned
  rw [leaves, Bool.not_eq_eq_eq_not, Bool.not_not, Bool.eq_iff_iff, List.any_eq_true,
    decide_eq_true_eq, selected_iff selects here]
  constructor
  · rintro ⟨other, held, within⟩
    rw [Bool.and_eq_true, List.any_eq_true] at within
    obtain ⟨inside', sense, there, again⟩ := within
    obtain ⟨place, found⟩ := List.mem_iff_getElem?.mp held
    have owns := (owner_iff indexed).mpr ⟨⟨other, found, there⟩, of_decide_eq_true again⟩
    have equal : owner = (place, sense) := Option.some.inj (owned.symm.trans owns)
    rw [equal] at here
    cases here.symm.trans found
    exact inside'
  · intro included
    refine ⟨entry, List.mem_of_getElem? here, ?_⟩
    rw [included, Bool.true_and, List.any_eq_true]
    exact ⟨owner.2, member, decide_eq_true same⟩

theorem excludes_relation (indexed : IndexedLexicon raw options index)
    (selects : Selects raw inside selected) {relation : RawRelation}
    (added : (index.lexicon options raw).addRelation host selected projection relation =
      .ok next) :
    Excludes projection next
      (if leaves raw inside relation && relation.isSupported then 1 else 0) := by
  unfold addRelation at added
  split at added
  next unsupported =>
    cases added
    rw [RawRelation.isSupported, unsupported, Option.isSome_none, Bool.and_false]
    exact excludes_of_eq rfl
  next kind supported =>
    obtain ⟨owner, owned, added⟩ := bind_eq_ok_iff.mp added
    have found : index.senseOwner[relation.target]? = some owner := by
      unfold ownerOf at owned
      split at owned
      · cases owned
      next held =>
        cases owned
        exact held
    rw [RawRelation.isSupported, supported, Option.isSome_some, Bool.and_true,
      leaves_iff indexed selects found]
    unfold addOrExclude at added
    split at added
    next included =>
      rw [decide_eq_true included]
      exact excludes_of_eq (excluded_add added)
    next outside =>
      rw [decide_eq_false outside]
      exact excludes_outside added

theorem included_pass {lexicon : Lexicon} {kind : RelationKind} {targets : List (Nat × RawSense)}
    {state result : Projection × Bool}
    (pass : targets.foldlM (lexicon.addIncluded host selected kind) state = .ok result) :
    result.1.excluded = state.1.excluded ∧
      result.2 = (state.2 || targets.any fun target => target.1 ∈ selected) := by
  induction targets generalizing state with
  | nil =>
    cases pass
    exact ⟨rfl, (Bool.or_false _).symm⟩
  | cons target rest ih =>
    rw [List.foldlM_cons, bind_eq_ok_iff] at pass
    obtain ⟨middle, first, later⟩ := pass
    obtain ⟨excluded, flag⟩ := ih later
    unfold addIncluded at first
    split at first
    next included =>
      obtain ⟨grown, added, rfl⟩ := map_eq_ok_iff.mp first
      refine ⟨excluded.trans (excluded_add added), ?_⟩
      rw [flag, List.any_cons, decide_eq_true included]
      simp
    next outside =>
      cases first
      refine ⟨excluded, ?_⟩
      rw [flag, List.any_cons, decide_eq_false outside, Bool.false_or]

theorem mem_memberEntries {synset : String} {entry : RawEntry} :
    entry ∈ memberEntries raw synset ↔
      entry ∈ raw.entries ∧ ∃ sense ∈ entry.senses, sense.synset = synset := by
  simp only [memberEntries, List.mem_flatMap, List.mem_map, List.mem_filter, decide_eq_true_eq]
  constructor
  · rintro ⟨other, member, sense, within, rfl⟩
    exact ⟨member, sense, within⟩
  · rintro ⟨member, sense, within⟩
    exact ⟨entry, member, sense, within, rfl⟩

theorem any_members (selects : Selects raw inside selected) (synset : String) :
    (((placements raw.entries.zipIdx).filter fun placed => placed.2.synset = synset).any
        fun target => target.1 ∈ selected) = (memberEntries raw synset).any inside := by
  rw [Bool.eq_iff_iff, List.any_eq_true, List.any_eq_true]
  constructor
  · rintro ⟨⟨position, sense⟩, placed, member⟩
    rw [List.mem_filter, decide_eq_true_eq] at placed
    obtain ⟨entry, here, within⟩ := mem_placements.mp placed.1
    exact ⟨entry, mem_memberEntries.mpr ⟨List.mem_of_getElem? here, sense, within, placed.2⟩,
      (selected_iff selects here).mp (of_decide_eq_true member)⟩
  · rintro ⟨entry, member, included⟩
    obtain ⟨held, sense, within, same⟩ := mem_memberEntries.mp member
    obtain ⟨position, here⟩ := List.mem_iff_getElem?.mp held
    refine ⟨(position, sense), ?_, decide_eq_true ((selected_iff selects here).mpr included)⟩
    rw [List.mem_filter, decide_eq_true_eq]
    exact ⟨mem_placements.mpr ⟨entry, here, within⟩, same⟩

theorem excludes_synsetRelation (indexed : IndexedLexicon raw options index)
    (selects : Selects raw inside selected) {relation : RawRelation}
    (added : (index.lexicon options raw).addSynsetRelation host selected projection relation =
      .ok next) :
    Excludes projection next
      (if relation.isSupported then countedMembers raw inside relation.target else 0) := by
  simp only [addSynsetRelation, invalid] at added
  split at added
  next unsupported =>
    cases added
    rw [RawRelation.isSupported, unsupported]
    exact excludes_of_eq rfl
  next kind supported =>
    rw [RawRelation.isSupported, supported, Option.isSome_some, if_pos rfl, countedMembers,
      ← any_members selects]
    split at added
    · rw [LexiconIndex.lexicon, indexed.members] at added
      simp only at added
      split at added
      next empty =>
        rw [empty]
        exact excludes_memberless added
      next present =>
        obtain ⟨state, pass, excluded⟩ := bind_eq_ok_iff.mp added
        obtain ⟨same, flag⟩ := included_pass pass
        rw [Bool.false_or] at flag
        rw [← flag]
        unfold excludeUnless at excluded
        split at excluded
        next included =>
          cases excluded
          rw [included]
          exact excludes_of_eq same
        next outside =>
          rw [if_neg outside, Excludes, ← same]
          exact excludes_outside excluded
    · cases added

theorem excludes_project (indexed : IndexedLexicon raw options index)
    (selects : Selects raw inside selected) {sense : RawSense} {synset : RawSynset}
    (found : raw.synsets[sense.synset]? = some synset)
    (projected : (index.lexicon options raw).project host selected projection sense synset =
      .ok next) :
    Excludes projection next (counted raw inside sense) := by
  simp only [project, bind_eq_ok_iff] at projected
  obtain ⟨members, -, synonyms, first, related, second, third⟩ := projected
  have one := moved_pass Projection.excluded first fun _ _ _ added => excludes_synonym added
  have two := moved_pass Projection.excluded second fun _ _ _ added =>
    excludes_relation indexed selects added
  have three := moved_pass Projection.excluded third fun _ _ _ added =>
    excludes_synsetRelation indexed selects added
  have relations : synset.relations = synsetRelations raw sense.synset := by
    rw [synsetRelations, found]
    rfl
  rw [List.map_const', List.sum_replicate_nat, Nat.mul_zero] at one
  rw [sum_indicator] at two
  rw [relations, sum_guarded] at three
  have whole := (one.trans two).trans three
  rw [Nat.zero_add] at whole
  rw [counted, leavingRelations, List.countP_filter]
  exact whole

theorem moved_outputSense (indexed : IndexedLexicon raw options index)
    (selects : Selects raw inside selected) {sense : RawSense}
    {state after : Output × List LexicalSense}
    (put : (index.lexicon options raw).outputSense host selected state sense = .ok after) :
    Moved state.1.excluded after.1.excluded [] (counted raw inside sense) := by
  simp only [outputSense, invalid, bind_eq_ok_iff, refuse_eq_ok_iff] at put
  obtain ⟨budget, -, -, synset, found, definition, -, projection, projected, more, -, done⟩ := put
  cases done
  exact excludes_project indexed selects (eq_some_of_expect found) projected

def countedAt (raw : RawWordnet) (inside : RawEntry → Bool) (position : Nat) : Nat :=
  ((raw.entries[position]?.map fun entry =>
    (entry.senses.map (counted raw inside)).sum)).getD 0

theorem moved_outputEntry (indexed : IndexedLexicon raw options index)
    (selects : Selects raw inside selected) {language : String} {position : Nat}
    {state after : Output × List LexicalEntry}
    (put : (index.lexicon options raw).outputEntry host selected language state position =
      .ok after) :
    Moved state.1.excluded after.1.excluded [] (countedAt raw inside position) := by
  simp only [outputEntry, bind_eq_ok_iff] at put
  obtain ⟨entry, found, budget, -, ⟨output, senses⟩, pass, partOfSpeech, -, done⟩ := put
  cases done
  have here : raw.entries[position]? = some entry := eq_some_of_expect found
  rw [countedAt, here]
  exact moved_pass (fun state : Output × List LexicalSense => state.1.excluded) pass
    fun _ _ _ put => moved_outputSense indexed selects put

theorem written_entry {lexicon : Lexicon} {language : String} {position : Nat}
    {state after : Output × List LexicalEntry}
    (put : lexicon.outputEntry host selected language state position = .ok after) :
    ∃ entry written, lexicon.raw.entries[position]? = some entry ∧
      written.id.entry = entry.id ∧ after.2 = state.2 ++ [written] := by
  simp only [outputEntry, bind_eq_ok_iff] at put
  obtain ⟨entry, found, budget, -, ⟨output, senses⟩, pass, partOfSpeech, -, done⟩ := put
  cases done
  exact ⟨entry, _, eq_some_of_expect found, rfl, rfl⟩

theorem written_entries {lexicon : Lexicon} {language : String} {positions : List Nat}
    {state result : Output × List LexicalEntry}
    (pass : positions.foldlM (lexicon.outputEntry host selected language) state = .ok result) :
    result.2.map (fun entry => some entry.id.entry) =
      state.2.map (fun entry => some entry.id.entry) ++
        positions.map fun position => lexicon.raw.entries[position]?.map RawEntry.id := by
  induction positions generalizing state with
  | nil =>
    cases pass
    exact (List.append_nil _).symm
  | cons position rest ih =>
    rw [List.foldlM_cons, bind_eq_ok_iff] at pass
    obtain ⟨middle, first, later⟩ := pass
    obtain ⟨entry, put, here, same, grown⟩ := written_entry first
    rw [ih later, grown, List.map_append, List.append_assoc, List.map_cons, List.map_cons, here,
      same]
    rfl

theorem perm_positions (selects : Selects raw inside selected) :
    List.Perm selected.toList
      ((raw.entries.zipIdx.filter fun item => inside item.1).map Prod.snd) := by
  have distinct : selected.toList.Nodup := by
    refine Std.ExtTreeSet.distinct_toList.imp ?_
    intro first second differs same
    exact differs (Std.LawfulEqOrd.compare_eq_iff_eq.mpr same)
  have positions : ((raw.entries.zipIdx.filter fun item => inside item.1).map Prod.snd).Nodup := by
    have all : (raw.entries.zipIdx.map Prod.snd).Nodup := by
      rw [List.zipIdx_map_snd]
      exact List.nodup_range'
    exact all.sublist (List.filter_sublist.map Prod.snd)
  rw [List.perm_ext_iff_of_nodup distinct positions]
  intro position
  rw [Std.ExtTreeSet.mem_toList, selects]
  constructor
  · rintro ⟨entry, here, included⟩
    exact List.mem_map.mpr ⟨(entry, position), List.mem_filter.mpr
      ⟨List.mem_zipIdx_iff_getElem?.mpr here, included⟩, rfl⟩
  · intro member
    obtain ⟨⟨entry, place⟩, held, rfl⟩ := List.mem_map.mp member
    obtain ⟨here, included⟩ := List.mem_filter.mp held
    exact ⟨entry, List.mem_zipIdx_iff_getElem?.mp here, included⟩

theorem sum_positions (selects : Selects raw inside selected) :
    (selected.toList.map (countedAt raw inside)).sum =
      ((outputSenses raw inside).map (counted raw inside)).sum := by
  have each : ∀ item ∈ raw.entries.zipIdx.filter (fun item => inside item.1),
      countedAt raw inside item.2 = (item.1.senses.map (counted raw inside)).sum := by
    intro item member
    have here : raw.entries[item.2]? = some item.1 :=
      List.mem_zipIdx_iff_getElem?.mp (List.mem_filter.mp member).1
    rw [countedAt, here]
    rfl
  have entries : (raw.entries.zipIdx.filter fun item => inside item.1).map Prod.fst =
      raw.entries.filter inside := by
    have whole := List.filter_map (p := inside) (f := Prod.fst) (l := raw.entries.zipIdx)
    rw [List.zipIdx_map_fst] at whole
    exact whole.symm
  calc (selected.toList.map (countedAt raw inside)).sum
      = (((raw.entries.zipIdx.filter fun item => inside item.1).map Prod.snd).map
          (countedAt raw inside)).sum := ((perm_positions selects).map _).sum_nat
    _ = ((raw.entries.zipIdx.filter fun item => inside item.1).map fun item =>
          (item.1.senses.map (counted raw inside)).sum).sum := by
        rw [List.map_map]
        exact congrArg List.sum (List.map_congr_left each)
    _ = ((raw.entries.filter inside).map fun entry =>
          (entry.senses.map (counted raw inside)).sum).sum := by
        rw [← entries, List.map_map]
        rfl
    _ = ((outputSenses raw inside).map (counted raw inside)).sum :=
        (sum_flatMap _ _ _).symm

theorem selects_inPack (indexed : IndexedLexicon raw options index)
    (subset : ∀ position, position ∈ selected ↔
      ∃ entry, raw.entries[position]? = some entry ∧ InSubset raw options entry)
    {pack : NormalizedPack}
    (written : pack.entries.map (fun entry => some entry.id.entry) =
      selected.toList.map fun position => raw.entries[position]?.map RawEntry.id) :
    Selects raw (inPack pack) selected := by
  have listed : ∀ id : String, (∃ entry ∈ pack.entries, entry.id.entry = id) ↔
      ∃ position ∈ selected, raw.entries[position]?.map RawEntry.id = some id := by
    intro id
    have member := congrArg (fun ids : List (Option String) => some id ∈ ids) written
    simp only [List.mem_map, Option.some.injEq, Std.ExtTreeSet.mem_toList, eq_iff_iff] at member
    exact member
  intro position
  constructor
  · intro member
    obtain ⟨entry, here, -⟩ := (subset position).mp member
    refine ⟨entry, here, ?_⟩
    obtain ⟨put, held, same⟩ := (listed entry.id).mpr ⟨position, member, by rw [here]; rfl⟩
    exact List.any_eq_true.mpr ⟨put, held, decide_eq_true same⟩
  · rintro ⟨entry, here, included⟩
    obtain ⟨put, held, same⟩ := List.any_eq_true.mp included
    obtain ⟨place, member, there⟩ := (listed entry.id).mp ⟨put, held, of_decide_eq_true same⟩
    obtain ⟨other, found, again⟩ := Option.map_eq_some_iff.mp there
    have equal : (other, place) = (entry, position) := List.inj_on_of_nodup_map
      indexed.chosen.distinct (List.mem_zipIdx_iff_getElem?.mpr found)
      (List.mem_zipIdx_iff_getElem?.mpr here) again
    cases equal
    exact member

end Projecting

/-- The boundary counters say how many projections are omitted, and the others how many edges of
their kind come in. -/
structure ExactReport (raw : RawWordnet) (imported : ImportedWordnet) : Prop where
  boundary : boundary imported.report.excludedRelations =
    ((outputSenses raw (inPack imported.pack)).map (omitted raw (inPack imported.pack))).sum
  unsupported : ∀ kind, tally imported.report.excludedRelations (unsupportedKey kind) =
    unsupportedEdges (inputEdges raw) kind

/-- Where a synset relation of the subset leads to several members, they are all in the subset. -/
def NoSplitTarget (raw : RawWordnet) (options : ImportOptions) : Prop :=
  ∀ entry ∈ raw.entries, InSubset raw options entry → ∀ sense ∈ entry.senses,
    ∀ relation ∈ supportedSynsetRelations raw sense,
      (memberEntries raw relation.target).length ≤ 1 ∨
        ∀ member ∈ memberEntries raw relation.target, InSubset raw options member

theorem boundary_empty : boundary ∅ = 0 := by rw [boundary, tally_empty, tally_empty]

theorem noSplitTarget_iff {raw : RawWordnet} {options : ImportOptions} {inside : RawEntry → Bool}
    (within : ∀ entry ∈ raw.entries, inside entry = true ↔ InSubset raw options entry) :
    (∀ sense ∈ outputSenses raw inside, ∀ relation ∈ supportedSynsetRelations raw sense,
      (memberEntries raw relation.target).length ≤ 1 ∨
        ∀ entry ∈ memberEntries raw relation.target, inside entry = true) ↔
      NoSplitTarget raw options := by
  have members : ∀ synset, (∀ entry ∈ memberEntries raw synset, inside entry = true) ↔
      ∀ entry ∈ memberEntries raw synset, InSubset raw options entry :=
    fun synset => forall₂_congr fun entry member => within entry (mem_memberEntries.mp member).1
  simp only [members, outputSenses, List.mem_flatMap, List.mem_filter]
  constructor
  · intro whole entry member included sense there
    exact whole sense ⟨entry, ⟨member, (within entry member).mpr included⟩, there⟩
  · rintro whole sense ⟨entry, ⟨member, included⟩, there⟩
    exact whole entry member ((within entry member).mp included) sense there

theorem exactReport_iff {host : Host} {options : ImportOptions} {maxBytes : Nat}
    {raw : RawWordnet} {imported : ImportedWordnet}
    (success : importRaw host options maxBytes raw = .ok imported) :
    ExactReport raw imported ↔ NoSplitTarget raw options := by
  simp only [importRaw, convert, bind_eq_ok_iff] at success
  obtain ⟨result, ⟨_, -, language, -, url, -, license, -, index, indexes, selected, neighbors,
    ⟨output, entries⟩, pass, manifest, -, converted⟩, _, -, done⟩ := success
  cases converted
  cases done
  have indexed := indexedLexicon_of_ok indexes
  have subset := mem_subset indexed neighbors
  have selects : Selects raw (inPack ⟨Reference.schemaVersion, manifest, entries⟩) selected :=
    selects_inPack indexed subset (written_entries pass)
  have within : ∀ entry ∈ raw.entries,
      (inPack ⟨Reference.schemaVersion, manifest, entries⟩ entry = true ↔
        InSubset raw options entry) := by
    intro entry member
    obtain ⟨position, here⟩ := List.mem_iff_getElem?.mp member
    rw [← selected_iff selects here, subset position]
    simp [here]
  have moved := indexed.moved.trans (moved_pass
    (fun state : Lexicon.Output × List LexicalEntry => state.1.excluded) pass
    fun _ _ _ put => moved_outputEntry indexed selects put)
  rw [sum_positions selects, Nat.zero_add, List.append_nil] at moved
  have counted := moved.boundary
  rw [boundary_empty, Nat.zero_add] at counted
  have unsupported : ∀ kind, tally output.excluded (unsupportedKey kind) =
      unsupportedEdges (inputEdges raw) kind := by
    intro kind
    rw [moved.unsupported, tally_empty, Nat.zero_add]
  rw [← noSplitTarget_iff within, ← counted_eq_omitted_iff, ← counted]
  exact ⟨fun report => report.boundary, fun same => ⟨same, unsupported⟩⟩

/-- The report of an import is exact if and only if no synset relation of the subset leads to
several members that are not all in it. -/
theorem exclusion_report_exact_iff (host : Host) (xml : List UInt8) (options : ImportOptions)
    (maxBytes : Nat) (imported : ImportedWordnet)
    (success : importWordnetWithBudget host xml options maxBytes = .ok imported) :
    ∃ raw, parse xml.length maxBytes (host.events xml) = .ok raw ∧
      (ExactReport raw imported ↔ NoSplitTarget raw options) := by
  simp only [importWordnetWithBudget, bind_eq_ok_iff] at success
  obtain ⟨_, -, raw, parsed, imports⟩ := success
  exact ⟨raw, parsed, exactReport_iff imports⟩

section Sea

def seaXml : String :=
  "<LexicalResource><Lexicon id=\"sea\" version=\"1\" label=\"Sea\" language=\"en\" licen" ++
  "se=\"https://sea.example/license\"><LexicalEntry id=\"tide-n\"><Lemma writtenForm=\"ti" ++
  "de\" partOfSpeech=\"n\"/><Sense id=\"tide-1\" synset=\"rise\"/></LexicalEntry><Lexical" ++
  "Entry id=\"flow-n\"><Lemma writtenForm=\"flow\" partOfSpeech=\"n\"/><Sense id=\"flow-1" ++
  "\" synset=\"rise\"/><Sense id=\"flow-2\" synset=\"stream\"/></LexicalEntry><LexicalEnt" ++
  "ry id=\"ebb-n\"><Lemma writtenForm=\"ebb\" partOfSpeech=\"n\"/><Sense id=\"ebb-1\" syn" ++
  "set=\"motion\"/></LexicalEntry><LexicalEntry id=\"surge-n\"><Lemma writtenForm=\"surge" ++
  "\" partOfSpeech=\"n\"/><Sense id=\"surge-1\" synset=\"motion\"/></LexicalEntry><Synset" ++
  " id=\"rise\"><Definition>rising water</Definition></Synset><Synset id=\"stream\"><Defi" ++
  "nition>running water</Definition><SynsetRelation relType=\"hypernym\" target=\"motion" ++
  "\"/></Synset><Synset id=\"motion\"><Definition>moving water</Definition></Synset></Lex" ++
  "icon></LexicalResource>"

def seaEntry (id lemma_ : String) (senses : List (String × String)) : List Event :=
  .start "LexicalEntry" [.ok ("id", .ok id)] ::
    .empty "Lemma" [.ok ("writtenForm", .ok lemma_), .ok ("partOfSpeech", .ok "n")] ::
    (senses.map fun sense =>
      .empty "Sense" [.ok ("id", .ok sense.1), .ok ("synset", .ok sense.2)]) ++
    [.end_ "LexicalEntry"]

def seaSynset (id definition : String) (relations : List (String × String)) : List Event :=
  .start "Synset" [.ok ("id", .ok id)] :: .start "Definition" [] :: .text definition ::
    .end_ "Definition" ::
    (relations.map fun relation =>
      .empty "SynsetRelation" [.ok ("relType", .ok relation.1), .ok ("target", .ok relation.2)]) ++
    [.end_ "Synset"]

def seaEvents : List Event :=
  .start "LexicalResource" [] ::
    .start "Lexicon" [.ok ("id", .ok "sea"), .ok ("version", .ok "1"), .ok ("label", .ok "Sea"),
      .ok ("language", .ok "en"), .ok ("license", .ok "https://sea.example/license")] ::
    seaEntry "tide-n" "tide" [("tide-1", "rise")] ++
    seaEntry "flow-n" "flow" [("flow-1", "rise"), ("flow-2", "stream")] ++
    seaEntry "ebb-n" "ebb" [("ebb-1", "motion")] ++
    seaEntry "surge-n" "surge" [("surge-1", "motion")] ++
    seaSynset "rise" "rising water" [] ++
    seaSynset "stream" "running water" [("hypernym", "motion")] ++
    seaSynset "motion" "moving water" [] ++ [.end_ "Lexicon", .end_ "LexicalResource"]

def seaReference (entry : String) : ReferenceId := ⟨"sea", "1", entry⟩

def seaSynonym (entry sense : String) : LexicalRelation :=
  ⟨.synonym, seaReference entry, some sense⟩

def seaWritten (id lemma_ : String) (senses : List LexicalSense) : LexicalEntry where
  id := seaReference id
  lemma_ := lemma_
  language := "en"
  partOfSpeech := some .noun
  senses := senses
  pronunciations := []
  relations := []

def seaEntries : List LexicalEntry :=
  [seaWritten "tide-n" "tide"
      [⟨"tide-1", some "rise", "rising water", [], [seaSynonym "flow-n" "flow-1"]⟩],
    seaWritten "flow-n" "flow"
      [⟨"flow-1", some "rise", "rising water", [], [seaSynonym "tide-n" "tide-1"]⟩,
        ⟨"flow-2", some "stream", "running water", [], []⟩]]

def seaDigest : String := "d9097684f8e51d27931f7473f9187d94609ebc265c4e24c83f6953947a1aa948"

def seaManifest : SourceManifest where
  id := "sea"
  version := "1"
  label := "Sea (explicit lemma subset)"
  language := "en"
  features := [.definitions, .examples, .relations, .pronunciations]
  license :=
    ⟨"License declared by source WN-LMF Lexicon", none, some "https://sea.example/license"⟩
  attribution := "Sea 1"
  upstream := none
  digest := some seaDigest

def seaPack : NormalizedPack := ⟨1, seaManifest, seaEntries⟩

def seaEntriesJson : String :=
  "[\x7b\"id\":\x7b\"source\":\"sea\",\"version\":\"1\",\"entry\":\"tide-n\"\x7d,\"lemma" ++
  "\":\"tide\",\"language\":\"en\",\"part_of_speech\":\"noun\",\"senses\":[\x7b\"id\":\"t" ++
  "ide-1\",\"concept_id\":\"rise\",\"definition\":\"rising water\",\"examples\":[],\"rela" ++
  "tions\":[\x7b\"kind\":\"synonym\",\"target\":\x7b\"source\":\"sea\",\"version\":\"1\"," ++
  "\"entry\":\"flow-n\"\x7d,\"target_sense\":\"flow-1\"\x7d]\x7d],\"pronunciations\":[]," ++
  "\"relations\":[]\x7d,\x7b\"id\":\x7b\"source\":\"sea\",\"version\":\"1\",\"entry\":\"f" ++
  "low-n\"\x7d,\"lemma\":\"flow\",\"language\":\"en\",\"part_of_speech\":\"noun\",\"sense" ++
  "s\":[\x7b\"id\":\"flow-1\",\"concept_id\":\"rise\",\"definition\":\"rising water\",\"e" ++
  "xamples\":[],\"relations\":[\x7b\"kind\":\"synonym\",\"target\":\x7b\"source\":\"sea\"" ++
  ",\"version\":\"1\",\"entry\":\"tide-n\"\x7d,\"target_sense\":\"tide-1\"\x7d]\x7d,\x7b" ++
  "\"id\":\"flow-2\",\"concept_id\":\"stream\",\"definition\":\"running water\",\"example" ++
  "s\":[],\"relations\":[]\x7d],\"pronunciations\":[],\"relations\":[]\x7d]"

def seaPackJson : String :=
  "\x7b\"schema_version\":1,\"manifest\":\x7b\"id\":\"sea\",\"version\":\"1\",\"label\":" ++
  "\"Sea (explicit lemma subset)\",\"language\":\"en\",\"features\":[\"definitions\",\"ex" ++
  "amples\",\"relations\",\"pronunciations\"],\"license\":\x7b\"name\":\"License declared" ++
  " by source WN-LMF Lexicon\",\"text\":null,\"url\":\"https://sea.example/license\"\x7d," ++
  "\"attribution\":\"Sea 1\",\"upstream\":null,\"digest\":\"d9097684f8e51d27931f7473f9187" ++
  "d94609ebc265c4e24c83f6953947a1aa948\"\x7d,\"entries\":" ++
  seaEntriesJson ++ "\x7d"

def seaRelationJson (relation : LexicalRelation) : String :=
  "\x7b\"kind\":\"synonym\",\"target\":\x7b\"source\":\"sea\",\"version\":\"1\",\"entry\":\"" ++
    relation.target.entry ++ "\"\x7d,\"target_sense\":\"" ++ relation.targetSense.getD "" ++ "\"\x7d"

def seaHost : Host where
  events _ := seaEvents
  oewnNotices := ""
  packJson pack :=
    if pack = seaPack then .ok (utf8Bytes seaPackJson.toList) else .error "io error"
  parsePack bytes :=
    if bytes = utf8Bytes seaPackJson.toList then .ok seaPack else .error "expected value"
  relationJson := seaRelationJson
  entriesJson entries :=
    if entries = seaEntries then .ok (utf8Bytes seaEntriesJson.toList) else .error "io error"
  blake3Hex _ := seaDigest

def seaOptions : ImportOptions := ⟨"sea", "1", ["tide"]⟩

theorem seaPackJson_size : seaPackJson.utf8ByteSize = 1208 := by decide +kernel

theorem seaXml_size : seaXml.utf8ByteSize = 904 := by decide +kernel

theorem seaPack_valid :
    ValidatedPack.fromJson seaHost.toPackHost (utf8Bytes seaPackJson.toList) none defaultLimits =
      .ok ⟨seaPack⟩ := by
  have parsed : seaHost.parsePack (utf8Bytes seaPackJson.toList) = .ok seaPack := by
    simp only [seaHost, if_true]
  have manifest : validateManifest seaPack.manifest defaultLimits = .ok () := by decide
  have entries :
      (seaPack.entries.foldlM (validateEntry seaPack.manifest defaultLimits) {}).isOk = true := by
    decide
  have related :
      seaPack.entries.forM (validateRelations seaHost.toPackHost seaPack) = .ok () := by
    decide
  have digest : digestEntries seaHost.toPackHost seaPack.entries = .ok seaDigest := by
    decide
  have bounded : (utf8Bytes seaPackJson.toList).length ≤ defaultLimits.maxPackBytes := by
    rw [length_utf8Bytes, seaPackJson_size]
    decide
  have decoded : (fromUtf8 (utf8Bytes seaPackJson.toList)).isSome = true := by
    rw [fromUtf8_utf8Bytes]
    rfl
  rw [fromJson_of_parsed bounded decoded parsed]
  exact validatePack_of_checks rfl manifest rfl (by decide) entries related digest

theorem checkWritten_of_parts {host : Host} {budget : MemoryBudget} {pack : NormalizedPack}
    {json : List UInt8} (written : host.packJson pack = .ok json)
    (small : ¬ defaultLimits.maxPackBytes < json.length)
    (room : (budget.charge (min (json.length * 2) usizeMax)).isOk = true)
    (valid : ValidatedPack.fromJson host.toPackHost json none defaultLimits = .ok ⟨pack⟩) :
    checkWritten host budget pack = .ok () := by
  obtain ⟨charged, charge⟩ := isOk_iff.mp room
  simp only [checkWritten, written, Except.mapError, bind, Except.bind, if_neg small, charge,
    valid, Except.map]

theorem seaPack_written {budget : MemoryBudget} (room : (budget.charge 2416).isOk = true) :
    checkWritten seaHost budget seaPack = .ok () := by
  have json : seaHost.packJson seaPack = .ok (utf8Bytes seaPackJson.toList) := by
    simp only [seaHost, if_true]
  refine checkWritten_of_parts json ?_ ?_ seaPack_valid
  · rw [length_utf8Bytes, seaPackJson_size]
    decide
  · rw [length_utf8Bytes, seaPackJson_size]
    exact room

theorem sea_options :
    checkOptions seaOptions maxEstimatedBytes (utf8Bytes seaXml.toList) = .ok () := by
  simp only [checkOptions, length_utf8Bytes, seaXml_size, fromUtf8_utf8Bytes]
  decide

theorem sea_converted :
    (parse 904 maxEstimatedBytes seaEvents >>= fun raw =>
      (convert seaHost seaOptions maxEstimatedBytes raw).map fun result =>
        (boundary result.1.excluded,
          ((outputSenses raw (inPack seaPack)).map (omitted raw (inPack seaPack))).sum,
          (result.1.budget.charge 2416).isOk, result.2)) =
      .ok (1, 2, true, seaEntries, seaManifest) := by
  decide +kernel

theorem exists_import {host : Host} {xml : List UInt8} {options : ImportOptions} {maxBytes : Nat}
    {raw : RawWordnet} {output : Lexicon.Output} {entries : List LexicalEntry}
    {manifest : SourceManifest} (checked : checkOptions options maxBytes xml = .ok ())
    (parsed : parse xml.length maxBytes (host.events xml) = .ok raw)
    (converted : convert host options maxBytes raw = .ok (output, entries, manifest))
    (written : checkWritten host output.budget ⟨Reference.schemaVersion, manifest, entries⟩ =
      .ok ()) :
    ∃ imported, importWordnetWithBudget host xml options maxBytes = .ok imported ∧
      imported.pack = ⟨Reference.schemaVersion, manifest, entries⟩ ∧
      imported.report.excludedRelations = output.excluded := by
  unfold importWordnetWithBudget importRaw
  refine ⟨_, bind_eq_ok_iff.mpr ⟨(), checked, bind_eq_ok_iff.mpr ⟨raw, parsed,
    bind_eq_ok_iff.mpr ⟨(output, entries, manifest), converted,
      bind_eq_ok_iff.mpr ⟨(), written, rfl⟩⟩⟩⟩, rfl, rfl⟩

theorem sea_imports :
    ∃ raw imported, importWordnetWithBudget seaHost (utf8Bytes seaXml.toList) seaOptions
          maxEstimatedBytes = .ok imported ∧
      parse (utf8Bytes seaXml.toList).length maxEstimatedBytes
          (seaHost.events (utf8Bytes seaXml.toList)) = .ok raw ∧
      boundary imported.report.excludedRelations = 1 ∧
      ((outputSenses raw (inPack imported.pack)).map (omitted raw (inPack imported.pack))).sum =
          2 := by
  obtain ⟨raw, parsed, rest⟩ := bind_eq_ok_iff.mp sea_converted
  obtain ⟨⟨output, entries, manifest⟩, converted, same⟩ := map_eq_ok_iff.mp rest
  obtain ⟨counted, same⟩ := Prod.mk.inj same
  obtain ⟨omitted, same⟩ := Prod.mk.inj same
  obtain ⟨room, written⟩ := Prod.mk.inj same
  obtain ⟨rfl, rfl⟩ := Prod.mk.inj written
  have parsed' : parse (utf8Bytes seaXml.toList).length maxEstimatedBytes
      (seaHost.events (utf8Bytes seaXml.toList)) = .ok raw := by
    rw [length_utf8Bytes, seaXml_size]
    exact parsed
  obtain ⟨imported, imports, pack, report⟩ := exists_import sea_options parsed' converted
    (seaPack_written room)
  refine ⟨raw, imported, imports, parsed', ?_, ?_⟩
  · rw [report]
    exact counted
  · rw [pack]
    exact omitted

theorem exclusion_report_exact_iff_sea :
    ∃ imported, importWordnetWithBudget seaHost (utf8Bytes seaXml.toList) seaOptions
        maxEstimatedBytes = .ok imported ∧
      ∃ raw, parse (utf8Bytes seaXml.toList).length maxEstimatedBytes
          (seaHost.events (utf8Bytes seaXml.toList)) = .ok raw ∧
        (ExactReport raw imported ↔ NoSplitTarget raw seaOptions) := by
  obtain ⟨-, imported, imports, -⟩ := sea_imports
  exact ⟨imported, imports, exclusion_report_exact_iff seaHost _ seaOptions _ imported imports⟩

/-- The relation that leads to two members outside the subset is counted as one. -/
theorem split_target_counted_once :
    ∃ raw imported, importWordnetWithBudget seaHost (utf8Bytes seaXml.toList) seaOptions
          maxEstimatedBytes = .ok imported ∧
      parse (utf8Bytes seaXml.toList).length maxEstimatedBytes
          (seaHost.events (utf8Bytes seaXml.toList)) = .ok raw ∧ ¬ ExactReport raw imported := by
  obtain ⟨raw, imported, imports, parsed, counted, omitted⟩ := sea_imports
  refine ⟨raw, imported, imports, parsed, ?_⟩
  intro exact_
  cases counted.symm.trans (exact_.boundary.trans omitted)

end Sea

end KnotEditor.Wordnet
