import KnotEditor.Library.Tallies
import KnotEditor.Wordnet.Importer
import Mathlib.Data.List.Nodup

/-! What the maps of an import hold, and which entries are one hop from the selected ones. -/

namespace KnotEditor.Wordnet

open Fallible Tallies

section Counting

variable {counts next : Counts}

def RawRelation.isSupported (relation : RawRelation) : Bool :=
  (relationKind relation.kind).isSome

def boundary (counts : Counts) : Nat := tally counts outsideKey + tally counts memberlessKey

def unsupportedEdges (relations : List RawRelation) (kind : String) : Nat :=
  relations.countP fun relation => relation.kind = kind && !relation.isSupported

theorem count_eq_ok {key : String} (counted : count counts key = .ok next) :
    next = bump counts key := by
  unfold count at counted
  split at counted <;> cases counted
  rfl

theorem unsupportedKey_inj {first second : String}
    (same : unsupportedKey first = unsupportedKey second) : first = second :=
  String.append_right_inj _ |>.mp same

theorem unsupportedKey_ne (kind : String) {key : String} (other : key.toList.head? ≠ some 'u') :
    unsupportedKey kind ≠ key := by
  rintro rfl
  have opened : "unsupported:".toList = 'u' :: "nsupported:".toList := by decide
  rw [unsupportedKey, String.toList_append, opened] at other
  exact other rfl

theorem unsupportedKey_ne_outsideKey (kind : String) : unsupportedKey kind ≠ outsideKey :=
  unsupportedKey_ne kind (by decide)

theorem unsupportedKey_ne_memberlessKey (kind : String) : unsupportedKey kind ≠ memberlessKey :=
  unsupportedKey_ne kind (by decide)

/-- The counters have moved by the unsupported ones among the relations, and by `excluded` at the
boundary. -/
structure Moved (before after : Counts) (relations : List RawRelation) (excluded : Nat) : Prop where
  boundary : boundary after = boundary before + excluded
  unsupported : ∀ kind, tally after (unsupportedKey kind) =
    tally before (unsupportedKey kind) + unsupportedEdges relations kind

theorem Moved.refl (counts : Counts) : Moved counts counts [] 0 := ⟨rfl, fun _ => rfl⟩

theorem Moved.trans {middle : Counts} {first second : List RawRelation} {one two : Nat}
    (left : Moved counts middle first one) (right : Moved middle next second two) :
    Moved counts next (first ++ second) (one + two) where
  boundary := by rw [right.boundary, left.boundary, Nat.add_assoc]
  unsupported kind := by
    rw [right.unsupported, left.unsupported, unsupportedEdges, unsupportedEdges, unsupportedEdges,
      List.countP_append, Nat.add_assoc]

theorem moved_outside : Moved counts (bump counts outsideKey) [] 1 where
  boundary := by
    have differs : outsideKey ≠ memberlessKey := by decide
    rw [Wordnet.boundary, Wordnet.boundary, tally_bump, tally_bump, if_pos rfl, if_neg differs]
    omega
  unsupported kind := by
    rw [tally_bump, if_neg (unsupportedKey_ne_outsideKey kind).symm]
    rfl

theorem moved_memberless : Moved counts (bump counts memberlessKey) [] 1 where
  boundary := by
    have differs : memberlessKey ≠ outsideKey := by decide
    rw [Wordnet.boundary, Wordnet.boundary, tally_bump, tally_bump, if_pos rfl, if_neg differs]
    omega
  unsupported kind := by
    rw [tally_bump, if_neg (unsupportedKey_ne_memberlessKey kind).symm]
    rfl

theorem moved_countUnsupported {relation : RawRelation}
    (counted : countUnsupported counts relation = .ok next) : Moved counts next [relation] 0 := by
  unfold countUnsupported at counted
  split at counted
  next unsupported =>
    have bumped := count_eq_ok counted
    subst bumped
    constructor
    · rw [boundary, boundary, tally_bump, tally_bump,
        if_neg (unsupportedKey_ne_outsideKey relation.kind),
        if_neg (unsupportedKey_ne_memberlessKey relation.kind), Nat.add_zero, Nat.add_zero,
        Nat.add_zero]
    · intro kind
      have alone : relation.isSupported = false := by
        rw [RawRelation.isSupported, Option.isSome_eq_false_iff, unsupported]
      rw [tally_bump, unsupportedEdges, List.countP_singleton, alone]
      by_cases same : relation.kind = kind
      · simp [same]
      · have differs : unsupportedKey relation.kind ≠ unsupportedKey kind :=
          fun equal => same (unsupportedKey_inj equal)
        simp [same, differs]
  next supported =>
    cases counted
    refine ⟨rfl, fun kind => ?_⟩
    have held : relation.isSupported = true := by
      rw [RawRelation.isSupported, Option.isSome_iff_ne_none]
      exact fun absent => supported (by rw [absent]; rfl)
    simp [unsupportedEdges, held]

theorem moved_relations {relations : List RawRelation}
    (counted : relations.foldlM countUnsupported counts = .ok next) :
    Moved counts next relations 0 := by
  have turn : ∀ (gone : List RawRelation) (state : Counts) (relation : RawRelation)
      (after : Counts), Moved counts state gone 0 →
      countUnsupported state relation = .ok after → Moved counts after (gone ++ [relation]) 0 :=
    fun gone state relation after moved counted => moved.trans (moved_countUnsupported counted)
  exact foldlM_builds turn relations counts next (.refl counts) counted

end Counting

section Indexing

def placements (items : List (RawEntry × Nat)) : List (Nat × RawSense) :=
  items.flatMap fun item => item.1.senses.map fun sense => (item.2, sense)

variable {raw : RawWordnet} {options : ImportOptions} {index next : LexiconIndex}
  {gone : List (Nat × RawSense)}

structure Indexed (raw : RawWordnet) (gone : List (Nat × RawSense)) (index : LexiconIndex) :
    Prop where
  owners : ∀ id, index.senseOwner[id]? = gone.find? fun placed => placed.2.id = id
  distinct : (gone.map fun placed => placed.2.id).Nodup
  members : ∀ synset, index.members[synset]? =
    let held := gone.filter fun placed => placed.2.synset = synset
    if held = [] then none else some held
  synsets : ∀ placed ∈ gone, raw.synsets.contains placed.2.synset
  moved : Moved ∅ index.excluded (gone.flatMap fun placed => placed.2.relations) 0

structure SameChoice (index next : LexiconIndex) : Prop where
  entryIds : next.entryIds = index.entryIds
  selected : next.selected = index.selected

theorem getD_members (indexed : Indexed raw gone index) (synset : String) :
    index.members[synset]?.getD [] = gone.filter fun placed => placed.2.synset = synset := by
  rw [indexed.members]
  simp only
  split
  next empty => rw [empty, Option.getD_none]
  · rfl

theorem indexed_sense {position : Nat} {sense : RawSense} (indexed : Indexed raw gone index)
    (turn : indexSense raw position index sense = .ok next) :
    Indexed raw (gone ++ [(position, sense)]) next ∧ SameChoice index next := by
  simp only [indexSense, invalid, bind_eq_ok_iff, refuse_eq_ok_iff] at turn
  obtain ⟨excluded, counted, fresh, known, done⟩ := turn
  cases done
  have unowned : gone.find? (fun placed => placed.2.id = sense.id) = none := by
    rw [← indexed.owners]
    rw [Std.ExtTreeMap.contains_eq_isSome_getElem?] at fresh
    exact Option.not_isSome_iff_eq_none.mp fresh
  refine ⟨⟨?_, ?_, ?_, ?_, ?_⟩, rfl, rfl⟩
  · intro id
    rw [Std.ExtTreeMap.getElem?_insert, List.find?_append]
    by_cases same : sense.id = id
    · rw [same] at unowned
      simp [same, unowned]
    · simp [same, indexed.owners]
  · rw [List.map_append, List.nodup_append]
    refine ⟨indexed.distinct, by simp, ?_⟩
    intro id held other here same
    obtain ⟨placed, member, rfl⟩ := List.mem_map.mp held
    rw [List.mem_singleton.mp here] at same
    simpa [same] using List.find?_eq_none.mp unowned placed member
  · intro synset
    rw [Std.ExtTreeMap.getElem?_insert, getD_members indexed, List.filter_append]
    by_cases same : sense.synset = synset
    · simp [same]
    · rw [List.filter_singleton, decide_eq_false same, cond_false, List.append_nil]
      simp [same, indexed.members]
  · intro placed member
    rcases List.mem_append.mp member with before | here
    · exact indexed.synsets placed before
    · rw [List.mem_singleton.mp here]
      simpa using known
  · rw [List.flatMap_append, List.flatMap_singleton]
    exact indexed.moved.trans (moved_relations counted)

theorem SameChoice.trans {middle : LexiconIndex} (first : SameChoice index middle)
    (second : SameChoice middle next) : SameChoice index next :=
  ⟨second.entryIds.trans first.entryIds, second.selected.trans first.selected⟩

theorem indexed_senses {position : Nat} {senses : List RawSense} (indexed : Indexed raw gone index)
    (turns : senses.foldlM (indexSense raw position) index = .ok next) :
    Indexed raw (gone ++ senses.map fun sense => (position, sense)) next ∧
      SameChoice index next := by
  have turn : ∀ (before : List RawSense) (state : LexiconIndex) (sense : RawSense)
      (after : LexiconIndex),
      Indexed raw (gone ++ before.map fun sense => (position, sense)) state ∧
        SameChoice index state →
      indexSense raw position state sense = .ok after →
      Indexed raw (gone ++ (before ++ [sense]).map fun sense => (position, sense)) after ∧
        SameChoice index after := by
    rintro before state sense after ⟨held, same⟩ indexes
    obtain ⟨grown, kept⟩ := indexed_sense held indexes
    rw [List.map_append, ← List.append_assoc]
    exact ⟨grown, same.trans kept⟩
  refine foldlM_builds turn senses index next ⟨?_, rfl, rfl⟩ turns
  rw [List.map_nil, List.append_nil]
  exact indexed

structure Chosen (options : ImportOptions) (items : List (RawEntry × Nat)) (index : LexiconIndex) :
    Prop where
  entryIds : ∀ id, id ∈ index.entryIds ↔ ∃ item ∈ items, item.1.id = id
  distinct : (items.map fun item => item.1.id).Nodup
  selected : ∀ position, position ∈ index.selected ↔
    ∃ item ∈ items, item.2 = position ∧ item.1.lemma_ ∈ options.lemmas

theorem entryIds_choose (item : RawEntry × Nat) :
    (index.choose options item.1 item.2).entryIds = index.entryIds := by
  unfold LexiconIndex.choose
  split <;> rfl

theorem mem_selected_choose (item : RawEntry × Nat) (position : Nat) :
    position ∈ (index.choose options item.1 item.2).selected ↔ position ∈ index.selected ∨
      item.2 = position ∧ item.1.lemma_ ∈ options.lemmas := by
  unfold LexiconIndex.choose
  split
  next chosen =>
    rw [Std.ExtTreeSet.mem_insert, Std.LawfulEqOrd.compare_eq_iff_eq]
    simp [chosen, or_comm]
  next passed => simp [passed]

theorem chosen_entry {items : List (RawEntry × Nat)} {item : RawEntry × Nat}
    (chosen : Chosen options items index)
    (indexed : Indexed raw (placements items) index)
    (turn : indexEntry raw options index item = .ok next) :
    Chosen options (items ++ [item]) next ∧
      Indexed raw (placements (items ++ [item])) next := by
  simp only [indexEntry, invalid, refuse_eq_ok_iff] at turn
  obtain ⟨fresh, turns⟩ := turn
  have known : Indexed raw (placements items)
      (LexiconIndex.choose { index with entryIds := index.entryIds.insert item.1.id } options
        item.1 item.2) := by
    unfold LexiconIndex.choose
    split <;> exact ⟨indexed.owners, indexed.distinct, indexed.members, indexed.synsets,
      indexed.moved⟩
  obtain ⟨grown, same⟩ := indexed_senses known turns
  refine ⟨⟨?_, ?_, ?_⟩, ?_⟩
  · intro id
    rw [same.entryIds, entryIds_choose, Std.ExtTreeSet.mem_insert, chosen.entryIds,
      Std.LawfulEqOrd.compare_eq_iff_eq]
    simp [or_comm]
  · rw [List.map_append, List.nodup_append]
    refine ⟨chosen.distinct, by simp, ?_⟩
    intro id held other here equal
    obtain ⟨before, member, rfl⟩ := List.mem_map.mp held
    rw [List.mem_singleton.mp here] at equal
    exact fresh ((chosen.entryIds item.1.id).mpr ⟨before, member, equal⟩)
  · intro position
    rw [same.selected, mem_selected_choose, chosen.selected]
    simp
  · rw [placements, List.flatMap_append, List.flatMap_singleton]
    exact grown

def inputEdges (raw : RawWordnet) : List RawRelation :=
  raw.entries.flatMap (fun entry => entry.senses.flatMap RawSense.relations) ++
    raw.synsets.values.flatMap RawSynset.relations

theorem flatMap_placements {α : Type} (entries : List RawEntry) (each : RawSense → List α) :
    (placements entries.zipIdx).flatMap (fun placed => each placed.2) =
      entries.flatMap fun entry => entry.senses.flatMap each := by
  rw [placements, List.flatMap_assoc]
  simp only [List.flatMap_map]
  rw [← List.flatMap_map (f := Prod.fst) (g := fun entry : RawEntry => entry.senses.flatMap each),
    List.zipIdx_map_fst]

structure IndexedLexicon (raw : RawWordnet) (options : ImportOptions) (index : LexiconIndex) :
    Prop where
  chosen : Chosen options raw.entries.zipIdx index
  owners : ∀ id, index.senseOwner[id]? =
    (placements raw.entries.zipIdx).find? fun placed => placed.2.id = id
  distinct : ((placements raw.entries.zipIdx).map fun placed => placed.2.id).Nodup
  members : ∀ synset, index.members[synset]? =
    let held := (placements raw.entries.zipIdx).filter fun placed => placed.2.synset = synset
    if held = [] then none else some held
  moved : Moved ∅ index.excluded (inputEdges raw) 0

theorem indexedLexicon_of_ok (indexes : indexLexicon raw options = .ok index) :
    IndexedLexicon raw options index := by
  simp only [indexLexicon, bind_eq_ok_iff] at indexes
  obtain ⟨before, entries, excluded, counted, _, -, done⟩ := indexes
  cases done
  have turn : ∀ (gone : List (RawEntry × Nat)) (state : LexiconIndex) (item : RawEntry × Nat)
      (after : LexiconIndex), Chosen options gone state ∧ Indexed raw (placements gone) state →
      indexEntry raw options state item = .ok after →
      Chosen options (gone ++ [item]) after ∧ Indexed raw (placements (gone ++ [item])) after :=
    fun gone state item after held turn => chosen_entry held.1 held.2 turn
  have empty : Chosen options [] {} ∧ Indexed raw (placements []) {} :=
    ⟨⟨by simp, by simp, by simp⟩, ⟨by simp [placements], by simp [placements],
      by simp [placements], by simp [placements], .refl ∅⟩⟩
  obtain ⟨chosen, indexed⟩ := foldlM_builds turn _ _ _ empty entries
  have moved := indexed.moved.trans (moved_relations counted)
  rw [flatMap_placements] at moved
  exact ⟨⟨chosen.entryIds, chosen.distinct, chosen.selected⟩, indexed.owners, indexed.distinct,
    indexed.members, moved⟩

end Indexing

section OneHop

def synsetRelations (raw : RawWordnet) (synset : String) : List RawRelation :=
  (raw.synsets[synset]?.map RawSynset.relations).getD []

/-- The entry shares the sense's synset, or a supported relation of the sense or of its synset leads
to it. -/
def NearSense (raw : RawWordnet) (sense : RawSense) (entry : RawEntry) : Prop :=
  (∃ other ∈ entry.senses, other.synset = sense.synset) ∨
    (∃ relation ∈ sense.relations, relation.isSupported ∧
      ∃ other ∈ entry.senses, other.id = relation.target) ∨
    ∃ relation ∈ synsetRelations raw sense.synset, relation.isSupported ∧
      ∃ other ∈ entry.senses, other.synset = relation.target

def InSubset (raw : RawWordnet) (options : ImportOptions) (entry : RawEntry) : Prop :=
  entry.lemma_ ∈ options.lemmas ∨
    ∃ chosen ∈ raw.entries, chosen.lemma_ ∈ options.lemmas ∧
      ∃ sense ∈ chosen.senses, NearSense raw sense entry

variable {raw : RawWordnet} {options : ImportOptions} {index : LexiconIndex} {position : Nat}
  {sense : RawSense}

theorem mem_placements : (position, sense) ∈ placements raw.entries.zipIdx ↔
    ∃ entry, raw.entries[position]? = some entry ∧ sense ∈ entry.senses := by
  constructor
  · intro member
    obtain ⟨⟨entry, place⟩, held, placed⟩ := List.mem_flatMap.mp member
    obtain ⟨other, inside, same⟩ := List.mem_map.mp placed
    cases same
    exact ⟨entry, List.mem_zipIdx_iff_getElem?.mp held, inside⟩
  · rintro ⟨entry, found, inside⟩
    exact List.mem_flatMap.mpr ⟨(entry, position), List.mem_zipIdx_iff_getElem?.mpr found,
      List.mem_map.mpr ⟨sense, inside, rfl⟩⟩

theorem find_iff_of_distinct {α κ : Type} [DecidableEq κ] {key : α → κ} {items : List α}
    (distinct : (items.map key).Nodup) {wanted : κ} {item : α} :
    items.find? (fun item => key item = wanted) = some item ↔ item ∈ items ∧ key item = wanted := by
  constructor
  · intro found
    exact ⟨List.mem_of_find?_eq_some found, by simpa using List.find?_some found⟩
  · rintro ⟨member, rfl⟩
    cases found : items.find? fun other => key other = key item with
    | none => simpa using List.find?_eq_none.mp found item member
    | some other =>
      have same : key other = key item := by simpa using List.find?_some found
      rw [List.inj_on_of_nodup_map distinct (List.mem_of_find?_eq_some found) member same]

theorem owner_iff (indexed : IndexedLexicon raw options index) {id : String} :
    index.senseOwner[id]? = some (position, sense) ↔
      (∃ entry, raw.entries[position]? = some entry ∧ sense ∈ entry.senses) ∧ sense.id = id := by
  rw [indexed.owners, find_iff_of_distinct indexed.distinct, mem_placements]

theorem mem_members (indexed : IndexedLexicon raw options index) {synset : String} :
    (position, sense) ∈ index.members[synset]?.getD [] ↔
      (∃ entry, raw.entries[position]? = some entry ∧ sense ∈ entry.senses) ∧
        sense.synset = synset := by
  have held : index.members[synset]?.getD [] =
      (placements raw.entries.zipIdx).filter fun placed => placed.2.synset = synset := by
    rw [indexed.members]
    simp only
    split
    next empty => rw [empty, Option.getD_none]
    · rfl
  rw [held, List.mem_filter, mem_placements, decide_eq_true_eq]

theorem mem_of_pass {α : Type} {step : Lexicon.Selected → α → Except ImportError Lexicon.Selected}
    {items : List α} {selected result : Lexicon.Selected}
    (pass : items.foldlM step selected = .ok result) {reaches : α → Nat → Prop}
    (turn : ∀ (selected : Lexicon.Selected) (item : α) (next : Lexicon.Selected),
      step selected item = .ok next →
      ∀ place, place ∈ next ↔ place ∈ selected ∨ reaches item place) (place : Nat) :
    place ∈ result ↔ place ∈ selected ∨ ∃ item ∈ items, reaches item place := by
  have builds : ∀ (gone : List α) (state : Lexicon.Selected) (item : α)
      (next : Lexicon.Selected),
      (place ∈ state ↔ place ∈ selected ∨ ∃ item ∈ gone, reaches item place) →
      step state item = .ok next →
      (place ∈ next ↔ place ∈ selected ∨ ∃ other ∈ gone ++ [item], reaches other place) := by
    intro gone state item next held stepped
    rw [turn state item next stepped, held]
    simp [or_assoc, or_and_right, exists_or]
  exact foldlM_builds builds items selected result (by simp) pass

theorem eq_some_of_expect {α : Type} {value : Option α} {message : String} {held : α}
    (expected : expect value message = .ok held) : value = some held := by
  unfold expect at expected
  split at expected
  · cases expected
  next found =>
    cases expected
    rfl

def LexiconIndex.lexicon (index : LexiconIndex) (options : ImportOptions) (raw : RawWordnet) :
    Lexicon := ⟨options, raw, index.senseOwner, index.members⟩

theorem mem_selectMembers (selected : Lexicon.Selected) (members : List (Nat × RawSense))
    (place : Nat) : place ∈ Lexicon.selectMembers selected members ↔
      place ∈ selected ∨ ∃ member ∈ members, member.1 = place := by
  induction members generalizing selected with
  | nil => simp [Lexicon.selectMembers]
  | cons member rest ih =>
    have later := ih (selected.insert member.1)
    rw [Lexicon.selectMembers] at later ⊢
    rw [List.foldl_cons, later, Std.ExtTreeSet.mem_insert, Std.LawfulEqOrd.compare_eq_iff_eq]
    simp only [List.mem_cons, or_and_right, exists_or, exists_eq_left, or_assoc, or_left_comm]

variable {selected next : Lexicon.Selected}

def HasSenseAt (raw : RawWordnet) (position : Nat) (wanted : RawSense → Prop) : Prop :=
  ∃ entry, raw.entries[position]? = some entry ∧ ∃ sense ∈ entry.senses, wanted sense

theorem exists_mem_members (indexed : IndexedLexicon raw options index) (synset : String) :
    (∃ member ∈ index.members[synset]?.getD [], member.1 = position) ↔
      HasSenseAt raw position fun sense => sense.synset = synset := by
  constructor
  · rintro ⟨⟨place, other⟩, member, rfl⟩
    obtain ⟨⟨entry, found, inside⟩, same⟩ := (mem_members indexed).mp member
    exact ⟨entry, found, other, inside, same⟩
  · rintro ⟨entry, found, other, inside, same⟩
    exact ⟨(position, other), (mem_members indexed).mpr ⟨⟨entry, found, inside⟩, same⟩, rfl⟩

theorem mem_selectRelation (indexed : IndexedLexicon raw options index) {relation : RawRelation}
    (turn : (index.lexicon options raw).selectRelation selected relation = .ok next) (place : Nat) :
    place ∈ next ↔ place ∈ selected ∨ relation.isSupported ∧
      HasSenseAt raw place fun other => other.id = relation.target := by
  unfold Lexicon.selectRelation at turn
  split at turn
  next supported =>
    obtain ⟨⟨owner, other⟩, owned, rfl⟩ := map_eq_ok_iff.mp turn
    unfold Lexicon.ownerOf at owned
    split at owned
    · cases owned
    next found =>
      cases owned
      obtain ⟨⟨entry, held, inside⟩, same⟩ := (owner_iff indexed).mp found
      rw [Std.ExtTreeSet.mem_insert, Std.LawfulEqOrd.compare_eq_iff_eq, or_comm]
      refine or_congr_right ⟨?_, ?_⟩
      · rintro rfl
        exact ⟨supported, entry, held, other, inside, same⟩
      · rintro ⟨-, entry', held', other', inside', same'⟩
        have again := (owner_iff indexed).mpr ⟨⟨entry', held', inside'⟩, same'⟩
        have equal : (owner, other) = (place, other') := Option.some.inj (found.symm.trans again)
        exact congrArg Prod.fst equal
  next unsupported =>
    cases turn
    simp [RawRelation.isSupported, unsupported]

theorem mem_selectSynsetRelation (indexed : IndexedLexicon raw options index)
    {relation : RawRelation}
    (turn : (index.lexicon options raw).selectSynsetRelation selected relation = .ok next)
    (place : Nat) :
    place ∈ next ↔ place ∈ selected ∨ relation.isSupported ∧
      HasSenseAt raw place fun other => other.synset = relation.target := by
  simp only [Lexicon.selectSynsetRelation, invalid] at turn
  split at turn
  next supported =>
    split at turn
    · cases turn
      rw [mem_selectMembers]
      refine or_congr_right ?_
      rw [LexiconIndex.lexicon, exists_mem_members indexed]
      exact ⟨fun held => ⟨supported, held⟩, fun held => held.2⟩
    · cases turn
  next unsupported =>
    cases turn
    simp [RawRelation.isSupported, unsupported]

def Reaches (raw : RawWordnet) (sense : RawSense) (position : Nat) : Prop :=
  HasSenseAt raw position (fun other => other.synset = sense.synset) ∨
    (∃ relation ∈ sense.relations, relation.isSupported ∧
      HasSenseAt raw position fun other => other.id = relation.target) ∨
    ∃ relation ∈ synsetRelations raw sense.synset, relation.isSupported ∧
      HasSenseAt raw position fun other => other.synset = relation.target

theorem mem_selectSense (indexed : IndexedLexicon raw options index)
    (turn : (index.lexicon options raw).selectSense selected sense = .ok next) (place : Nat) :
    place ∈ next ↔ place ∈ selected ∨ Reaches raw sense place := by
  simp only [Lexicon.selectSense, bind_eq_ok_iff] at turn
  obtain ⟨members, shared, linked, links, synset, found, rest⟩ := turn
  have held : members = index.members[sense.synset]?.getD [] := by
    have there : index.members[sense.synset]? = some members := eq_some_of_expect shared
    rw [there, Option.getD_some]
  have relations : synset.relations = synsetRelations raw sense.synset := by
    have there : raw.synsets[sense.synset]? = some synset := eq_some_of_expect found
    rw [synsetRelations, there]
    rfl
  rw [mem_of_pass rest (fun _ _ _ => mem_selectSynsetRelation indexed), relations,
    mem_of_pass links (fun _ _ _ => mem_selectRelation indexed), mem_selectMembers, held,
    exists_mem_members indexed, or_assoc, or_assoc]
  rfl

theorem mem_selectNeighbors (indexed : IndexedLexicon raw options index) {place : Nat}
    (turn : (index.lexicon options raw).selectNeighbors selected place = .ok next)
    (position : Nat) :
    position ∈ next ↔ position ∈ selected ∨
      ∃ entry, raw.entries[place]? = some entry ∧ ∃ sense ∈ entry.senses,
        Reaches raw sense position := by
  simp only [Lexicon.selectNeighbors, invalid, bind_eq_ok_iff, refuse_eq_ok_iff] at turn
  obtain ⟨entry, found, last, pass, -, done⟩ := turn
  cases done
  rw [mem_of_pass pass (fun _ _ _ => mem_selectSense indexed)]
  have held : raw.entries[place]? = some entry := eq_some_of_expect found
  simp [held]

def ChosenAt (raw : RawWordnet) (options : ImportOptions) (position : Nat) : Prop :=
  ∃ entry, raw.entries[position]? = some entry ∧ entry.lemma_ ∈ options.lemmas

theorem mem_chosen (indexed : IndexedLexicon raw options index) :
    position ∈ index.selected ↔ ChosenAt raw options position := by
  rw [indexed.chosen.selected]
  constructor
  · rintro ⟨⟨entry, place⟩, member, rfl, chosen⟩
    exact ⟨entry, List.mem_zipIdx_iff_getElem?.mp member, chosen⟩
  · rintro ⟨entry, found, chosen⟩
    exact ⟨(entry, position), List.mem_zipIdx_iff_getElem?.mpr found, rfl, chosen⟩

theorem exists_reaches_iff {entry : RawEntry} (here : raw.entries[position]? = some entry) :
    Reaches raw sense position ↔ NearSense raw sense entry := by
  have at_ : ∀ wanted : RawSense → Prop, HasSenseAt raw position wanted ↔
      ∃ other ∈ entry.senses, wanted other := by
    intro wanted
    simp [HasSenseAt, here]
  rw [Reaches, NearSense]
  simp only [at_]

theorem Reaches.entry (reaches : Reaches raw sense position) :
    ∃ entry, raw.entries[position]? = some entry := by
  rcases reaches with ⟨entry, here, -⟩ | ⟨-, -, -, entry, here, -⟩ | ⟨-, -, -, entry, here, -⟩
  · exact ⟨entry, here⟩
  · exact ⟨entry, here⟩
  · exact ⟨entry, here⟩

theorem mem_subset (indexed : IndexedLexicon raw options index) {selected : Lexicon.Selected}
    (pass : index.selected.toList.foldlM (index.lexicon options raw).selectNeighbors
      index.selected = .ok selected) (position : Nat) :
    position ∈ selected ↔
      ∃ entry, raw.entries[position]? = some entry ∧ InSubset raw options entry := by
  rw [mem_of_pass pass (fun _ _ _ => mem_selectNeighbors indexed), mem_chosen indexed]
  constructor
  · rintro (⟨entry, here, lemma_⟩ | ⟨place, member, chosen, there, sense, inside, reaches⟩)
    · exact ⟨entry, here, .inl lemma_⟩
    · obtain ⟨entry, here⟩ := reaches.entry
      rw [Std.ExtTreeSet.mem_toList, mem_chosen indexed] at member
      obtain ⟨chosen', there', lemma_⟩ := member
      cases there.symm.trans there'
      exact ⟨entry, here, .inr ⟨chosen, List.mem_of_getElem? there, lemma_, sense, inside,
        (exists_reaches_iff here).mp reaches⟩⟩
  · rintro ⟨entry, here, lemma_ | ⟨chosen, member, lemma_, sense, inside, near⟩⟩
    · exact .inl ⟨entry, here, lemma_⟩
    · obtain ⟨place, there⟩ := List.mem_iff_getElem?.mp member
      refine .inr ⟨place, ?_, chosen, there, sense, inside, (exists_reaches_iff here).mpr near⟩
      rw [Std.ExtTreeSet.mem_toList, mem_chosen indexed]
      exact ⟨chosen, there, lemma_⟩

end OneHop

end KnotEditor.Wordnet
