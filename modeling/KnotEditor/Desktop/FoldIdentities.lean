import KnotEditor.Desktop.DocumentFolding
import KnotEditor.Library.Occurrences
import KnotEditor.Mark.Request
import Mathlib.Combinatorics.Enumerative.DoubleCounting

/-! Collapsed folds carried across a change of source by what a reader knows them by. -/

namespace KnotEditor.Desktop.DocumentFolding

def kindName : KnotFoldKindV1 → String
  | .section_ => "Section"
  | .list => "List"
  | .blockquote => "Blockquote"
  | .codeBlock => "Code block"
  | .div => "Div"

def opener (snapshot : KnotFoldSnapshotV1) (fold : NormalizedFold) : String :=
  trim (String.ofList
    ((Mark.textLines (slice snapshot.sourceText fold.start fold.finish)).head?.getD []))

abbrev FoldIdentity := String × String × Nat

def foldKey (snapshot : KnotFoldSnapshotV1) (fold : NormalizedFold) : String × String :=
  (kindName fold.kind, opener snapshot fold)

def identitiesFrom (snapshot : KnotFoldSnapshotV1) (seen : String × String → Nat) :
    List NormalizedFold → List (Nat × FoldIdentity)
  | [] => []
  | fold :: folds =>
    let key := foldKey snapshot fold
    (fold.sourceIndex, key.1, key.2, seen key) ::
      identitiesFrom snapshot (Function.update seen key (seen key + 1)) folds

/-- Each fold by its kind, its opening line, and how many folds before it share both. -/
def identities (snapshot : KnotFoldSnapshotV1) : List (Nat × FoldIdentity) :=
  identitiesFrom snapshot (fun _ => 0) (normalizedFolds snapshot)

def remapCollapsed (old : KnotFoldSnapshotV1) (collapsed : Finset Nat)
    (new : KnotFoldSnapshotV1) : Finset Nat :=
  let kept := ((identities old).filter fun entry => decide (entry.1 ∈ collapsed)).map Prod.snd
  (((identities new).filter fun entry => decide (entry.2 ∈ kept)).map Prod.fst).toFinset

def numbered (snapshot : KnotFoldSnapshotV1) : List (NormalizedFold × Nat) :=
  Occurrences.number (foldKey snapshot) (fun _ => 0) (normalizedFolds snapshot)

def identityOf (snapshot : KnotFoldSnapshotV1) (entry : NormalizedFold × Nat) : FoldIdentity :=
  ((foldKey snapshot entry.1).1, (foldKey snapshot entry.1).2, entry.2)

theorem identitiesFrom_eq (snapshot : KnotFoldSnapshotV1) (seen : String × String → Nat)
    (folds : List NormalizedFold) :
    identitiesFrom snapshot seen folds =
      (Occurrences.number (foldKey snapshot) seen folds).map fun entry =>
        (entry.1.sourceIndex, identityOf snapshot entry) := by
  induction folds generalizing seen with
  | nil => rfl
  | cons fold folds ih => rw [identitiesFrom, Occurrences.number, List.map_cons, ih]; rfl

theorem identities_eq (snapshot : KnotFoldSnapshotV1) :
    identities snapshot = (numbered snapshot).map fun entry =>
      (entry.1.sourceIndex, identityOf snapshot entry) :=
  identitiesFrom_eq ..

theorem nodup_identities (snapshot : KnotFoldSnapshotV1) :
    ((identities snapshot).map Prod.snd).Nodup := by
  have distinct := Occurrences.nodup_number (foldKey snapshot) (fun _ => 0)
    (normalizedFolds snapshot)
  have reshaped : (identities snapshot).map Prod.snd =
      ((numbered snapshot).map fun entry => (foldKey snapshot entry.1, entry.2)).map
        fun identity => (identity.1.1, identity.1.2, identity.2) := by
    rw [identities_eq, List.map_map, List.map_map]
    rfl
  rw [reshaped]
  refine distinct.map ?_
  rintro ⟨⟨kind, line⟩, times⟩ ⟨⟨otherKind, otherLine⟩, otherTimes⟩ same
  cases same
  rfl

theorem nodup_sourceIndex (snapshot : KnotFoldSnapshotV1) :
    ((normalizedFolds snapshot).map NormalizedFold.sourceIndex).Nodup := by
  have indices : (candidates snapshot).map NormalizedFold.sourceIndex =
      ((snapshot.items.zipIdx.filter fun entry => foldable snapshot.sourceText entry.1).map
        Prod.snd) := by
    rw [candidates, List.map_filterMap, ← List.filterMap_eq_map, ← List.filterMap_eq_filter,
      List.filterMap_filterMap]
    refine List.filterMap_congr ?_
    intro entry _
    cases valid : foldable snapshot.sourceText entry.1 <;> simp [Option.guard, valid]
  have distinct : ((candidates snapshot).map NormalizedFold.sourceIndex).Nodup := by
    rw [indices]
    refine List.Nodup.sublist (List.filter_sublist.map Prod.snd) ?_
    rw [List.zipIdx_map_snd]
    exact List.nodup_range'
  have sorted := (List.mergeSort_perm (candidates snapshot) comesFirst).map
    NormalizedFold.sourceIndex
  rw [normalizedFolds_eq]
  exact (sorted.nodup_iff.mpr distinct).sublist ((Greedy.select_sublist ..).map _)

theorem mem_remapCollapsed {old new : KnotFoldSnapshotV1} {collapsed : Finset Nat} {index : Nat} :
    index ∈ remapCollapsed old collapsed new ↔ ∃ identity, (index, identity) ∈ identities new ∧
      ∃ earlier ∈ collapsed, (earlier, identity) ∈ identities old := by
  rw [remapCollapsed, List.mem_toFinset, List.mem_map]
  constructor
  · rintro ⟨⟨_, identity⟩, member, rfl⟩
    obtain ⟨known, kept⟩ := List.mem_filter.mp member
    obtain ⟨⟨earlier, _⟩, from_, rfl⟩ := List.mem_map.mp (of_decide_eq_true kept)
    obtain ⟨listed, shut⟩ := List.mem_filter.mp from_
    exact ⟨_, known, earlier, of_decide_eq_true shut, listed⟩
  · rintro ⟨identity, known, earlier, shut, listed⟩
    have kept : (earlier, identity) ∈ (identities old).filter fun entry =>
        decide (entry.1 ∈ collapsed) := List.mem_filter.mpr ⟨listed, decide_eq_true shut⟩
    exact ⟨(index, identity), List.mem_filter.mpr
      ⟨known, decide_eq_true (List.mem_map.mpr ⟨_, kept, rfl⟩)⟩, rfl⟩

def occurrence (snapshot : KnotFoldSnapshotV1) (position : Nat) (fold : NormalizedFold) : Nat :=
  ((normalizedFolds snapshot).take position).countP fun earlier =>
    foldKey snapshot earlier = foldKey snapshot fold

theorem mem_identities_iff {snapshot : KnotFoldSnapshotV1} {index : Nat} {identity : FoldIdentity} :
    (index, identity) ∈ identities snapshot ↔
      ∃ position fold, (normalizedFolds snapshot)[position]? = some fold ∧
        fold.sourceIndex = index ∧ identity = ((foldKey snapshot fold).1, (foldKey snapshot fold).2,
          occurrence snapshot position fold) := by
  have at_ : ∀ position, (identities snapshot)[position]? =
      (normalizedFolds snapshot)[position]?.map fun fold => (fold.sourceIndex,
        (foldKey snapshot fold).1, (foldKey snapshot fold).2,
          occurrence snapshot position fold) := by
    intro position
    rw [identities_eq, List.getElem?_map, numbered, Occurrences.getElem?_number, Option.map_map]
    refine Option.map_congr ?_
    intro fold _
    simp only [Function.comp_apply, identityOf, occurrence, Nat.zero_add]
  rw [List.mem_iff_getElem?]
  constructor
  · rintro ⟨position, found⟩
    rw [at_] at found
    obtain ⟨fold, known, same⟩ := Option.map_eq_some_iff.mp found
    obtain ⟨rfl, rfl⟩ := Prod.mk.inj same
    exact ⟨position, fold, known, rfl, rfl⟩
  · rintro ⟨position, fold, known, rfl, rfl⟩
    exact ⟨position, by rw [at_, known]; rfl⟩

theorem identity_index {snapshot : KnotFoldSnapshotV1} {first second : Nat}
    {identity : FoldIdentity} (one : (first, identity) ∈ identities snapshot)
    (other : (second, identity) ∈ identities snapshot) : first = second :=
  congrArg Prod.fst (List.inj_on_of_nodup_map (nodup_identities snapshot) one other rfl)

theorem index_identity {snapshot : KnotFoldSnapshotV1} {index : Nat} {first second : FoldIdentity}
    (one : (index, first) ∈ identities snapshot) (other : (index, second) ∈ identities snapshot) :
    first = second := by
  have distinct : ((identities snapshot).map Prod.fst).Nodup := by
    have same : (identities snapshot).map Prod.fst =
        (normalizedFolds snapshot).map NormalizedFold.sourceIndex := by
      have folds : (numbered snapshot).map Prod.fst = normalizedFolds snapshot :=
        Occurrences.map_fst_number ..
      rw [identities_eq, List.map_map, ← folds, List.map_map]
      rfl
    exact same ▸ nodup_sourceIndex snapshot
  exact congrArg Prod.snd (List.inj_on_of_nodup_map distinct one other rfl)

theorem remapCollapsed_self (snapshot : KnotFoldSnapshotV1) (collapsed : Finset Nat) :
    remapCollapsed snapshot collapsed snapshot = collapsed.filter fun index =>
      index ∈ (normalizedFolds snapshot).map NormalizedFold.sourceIndex := by
  ext index
  rw [mem_remapCollapsed, Finset.mem_filter]
  constructor
  · rintro ⟨identity, known, earlier, shut, listed⟩
    cases identity_index known listed
    obtain ⟨position, fold, at_, rfl, _⟩ := mem_identities_iff.mp known
    exact ⟨shut, List.mem_map_of_mem (List.mem_of_getElem? at_)⟩
  · rintro ⟨shut, member⟩
    obtain ⟨fold, known, rfl⟩ := List.mem_map.mp member
    obtain ⟨position, at_⟩ := List.mem_iff_getElem?.mp known
    have listed := mem_identities_iff.mpr ⟨position, fold, at_, rfl, rfl⟩
    exact ⟨_, listed, _, shut, listed⟩

theorem card_remapCollapsed_le (old new : KnotFoldSnapshotV1) (collapsed : Finset Nat) :
    (remapCollapsed old collapsed new).card ≤ (remapCollapsed old collapsed old).card := by
  refine Finset.card_le_card_of_forall_subsingleton (fun index earlier => ∃ identity,
    (index, identity) ∈ identities new ∧ (earlier, identity) ∈ identities old) ?_ ?_
  · intro index member
    obtain ⟨identity, known, earlier, shut, listed⟩ := mem_remapCollapsed.mp member
    exact ⟨earlier, mem_remapCollapsed.mpr ⟨identity, listed, earlier, shut, listed⟩, identity,
      known, listed⟩
  · rintro earlier _ first ⟨_, identity, known, listed⟩ second ⟨_, other, alsoKnown, alsoListed⟩
    cases index_identity listed alsoListed
    exact identity_index known alsoKnown

/-- The accepted folds of the new snapshot are the old ones, in their order, and others that share
kind and opening line with none of them. The last list has each old fold with its image. -/
inductive Inserted (old new : KnotFoldSnapshotV1) : List NormalizedFold → List NormalizedFold →
    List (NormalizedFold × NormalizedFold) → Prop
  | nothing : Inserted old new [] [] []
  | kept {fold image folds images links} (same : foldKey new image = foldKey old fold)
      (later : Inserted old new folds images links) :
      Inserted old new (fold :: folds) (image :: images) ((fold, image) :: links)
  | added {image folds images links}
      (fresh : ∀ fold ∈ normalizedFolds old, foldKey old fold ≠ foldKey new image)
      (later : Inserted old new folds images links) :
      Inserted old new folds (image :: images) links

namespace Inserted

variable {old new : KnotFoldSnapshotV1} {folds images moreFolds moreImages : List NormalizedFold}
  {links moreLinks : List (NormalizedFold × NormalizedFold)}

theorem append (first : Inserted old new folds images links)
    (second : Inserted old new moreFolds moreImages moreLinks) :
    Inserted old new (folds ++ moreFolds) (images ++ moreImages) (links ++ moreLinks) := by
  induction first with
  | nothing => exact second
  | kept same _ ih => exact .kept same ih
  | added fresh _ ih => exact .added fresh ih

def keeps (old : KnotFoldSnapshotV1) (key : String × String) : Bool :=
  decide (key ∈ (normalizedFolds old).map (foldKey old))

theorem spec (inserted : Inserted old new folds images links)
    (known : ∀ fold ∈ folds, fold ∈ normalizedFolds old) :
    folds = links.map Prod.fst ∧
      images.filter (fun image => keeps old (foldKey new image)) = links.map Prod.snd ∧
      ∀ link ∈ links, foldKey new link.2 = foldKey old link.1 := by
  induction inserted with
  | nothing => simp
  | @kept fold image folds images links same _ ih =>
    rw [List.forall_mem_cons] at known
    obtain ⟨sources, targets, keys⟩ := ih known.2
    have listed : keeps old (foldKey new image) = true :=
      decide_eq_true (List.mem_map.mpr ⟨_, known.1, same.symm⟩)
    rw [List.filter_cons, if_pos listed, targets, sources]
    exact ⟨rfl, rfl, List.forall_mem_cons.mpr ⟨same, keys⟩⟩
  | @added image folds images links fresh _ ih =>
    obtain ⟨sources, targets, keys⟩ := ih known
    have missing : ¬keeps old (foldKey new image) = true := by
      intro listed
      obtain ⟨fold, member, same⟩ := List.mem_map.mp (of_decide_eq_true listed)
      exact fresh fold member same
    rw [List.filter_cons, if_neg missing]
    exact ⟨sources, targets, keys⟩

def numberedLinks (old : KnotFoldSnapshotV1) (links : List (NormalizedFold × NormalizedFold)) :
    List ((NormalizedFold × NormalizedFold) × Nat) :=
  Occurrences.number (fun link => foldKey old link.1) (fun _ => 0) links

theorem remapCollapsed
    (inserted : Inserted old new (normalizedFolds old) (normalizedFolds new) links)
    (collapsed : Finset Nat) :
    DocumentFolding.remapCollapsed old collapsed new =
      ((links.filter fun link => decide (link.1.sourceIndex ∈ collapsed)).map
        fun link => link.2.sourceIndex).toFinset := by
  obtain ⟨sources, targets, keys⟩ := inserted.spec fun _ member => member
  have before : numbered old = (numberedLinks old links).map fun entry => (entry.1.1, entry.2) := by
    rw [numbered, sources, Occurrences.number_map, numberedLinks]
  have behind : ((numbered new).filter fun entry => keeps old (foldKey new entry.1)) =
      (numberedLinks old links).map fun entry => (entry.1.2, entry.2) := by
    rw [numbered, Occurrences.filter_number, targets, Occurrences.number_map,
      Occurrences.number_congr keys fun _ _ => rfl, numberedLinks]
  have distinct := Occurrences.nodup_number (fun link => foldKey old link.1) (fun _ => 0) links
  ext index
  rw [mem_remapCollapsed, List.mem_toFinset, List.mem_map]
  constructor
  · rintro ⟨identity, known, earlier, shut, listed⟩
    rw [identities_eq, before] at listed
    obtain ⟨_, inOld, same⟩ := List.mem_map.mp listed
    obtain ⟨⟨link, times⟩, member, rfl⟩ := List.mem_map.mp inOld
    obtain ⟨rfl, rfl⟩ := Prod.mk.inj same
    rw [identities_eq] at known
    obtain ⟨entry, inNew, same⟩ := List.mem_map.mp known
    obtain ⟨rfl, sameIdentity⟩ := Prod.mk.inj same
    obtain ⟨sameKind, rest⟩ := Prod.mk.inj sameIdentity
    obtain ⟨sameLine, sameTimes⟩ := Prod.mk.inj rest
    have present := (Occurrences.mem_number member).1
    have sameKey : foldKey new entry.1 = foldKey old link.1 := Prod.ext sameKind sameLine
    have accepted : link.1 ∈ normalizedFolds old := sources ▸ List.mem_map_of_mem present
    have listed : keeps old (foldKey new entry.1) = true :=
      decide_eq_true (List.mem_map.mpr ⟨link.1, accepted, sameKey.symm⟩)
    have among : entry ∈ (numbered new).filter fun entry => keeps old (foldKey new entry.1) :=
      List.mem_filter.mpr ⟨inNew, listed⟩
    rw [behind] at among
    obtain ⟨⟨other, _⟩, alsoMember, rfl⟩ := List.mem_map.mp among
    have otherKey := keys other (Occurrences.mem_number alsoMember).1
    cases List.inj_on_of_nodup_map distinct alsoMember member
      (Prod.ext (otherKey.symm.trans sameKey) sameTimes)
    exact ⟨link, List.mem_filter.mpr ⟨present, decide_eq_true shut⟩, rfl⟩
  · rintro ⟨link, member, rfl⟩
    obtain ⟨present, shut⟩ := List.mem_filter.mp member
    have whole : (numberedLinks old links).map Prod.fst = links := Occurrences.map_fst_number ..
    rw [← whole] at present
    obtain ⟨⟨_, times⟩, listed, rfl⟩ := List.mem_map.mp present
    have inOld : ∀ entry ∈ numberedLinks old links, (entry.1.1, entry.2) ∈ numbered old := by
      intro entry member
      rw [before]
      exact List.mem_map_of_mem member
    have inNew : ∀ entry ∈ numberedLinks old links, (entry.1.2, entry.2) ∈ numbered new := by
      intro entry member
      have among : (entry.1.2, entry.2) ∈
          (numbered new).filter fun entry => keeps old (foldKey new entry.1) := by
        rw [behind]
        exact List.mem_map.mpr ⟨entry, member, rfl⟩
      exact (List.mem_filter.mp among).1
    rw [identities_eq, identities_eq]
    refine ⟨identityOf old (_, times), List.mem_map.mpr ⟨_, inNew _ listed, ?_⟩, _,
      of_decide_eq_true shut, List.mem_map.mpr ⟨_, inOld _ listed, rfl⟩⟩
    rw [identityOf, identityOf, keys _ (Occurrences.mem_number listed).1]

end Inserted

structure Shifted (amount : Nat) (fold image : NormalizedFold) : Prop where
  kind : image.kind = fold.kind
  start : image.start = fold.start + amount
  finish : image.finish = fold.finish + amount

theorem split_behind {front back before rest : List Char} (same : front ++ back = before ++ rest)
    (behind : (utf8Bytes front).length ≤ (utf8Bytes before).length) :
    ∃ middle, before = front ++ middle ∧ back = middle ++ rest := by
  rcases List.append_eq_append_iff.mp same with ⟨middle, longer, tail⟩ | ⟨extra, longer, tail⟩
  · exact ⟨middle, longer, tail⟩
  · rw [longer, utf8Bytes_append, List.length_append] at behind
    have none_ : extra = [] := eq_nil_of_utf8Bytes (by omega)
    subst none_
    exact ⟨[], by rw [longer, List.append_nil, List.append_nil], tail.symm⟩

section shifting

variable {old new : KnotFoldSnapshotV1} {front added back : List Char}
  (oldText : old.sourceText.toList = front ++ back)
  (newText : new.sourceText.toList = front ++ added ++ back)

include oldText newText

theorem foldKey_shifted {fold image : NormalizedFold} (accepted : fold ∈ normalizedFolds old)
    (behind : (utf8Bytes front).length ≤ fold.start)
    (shifted : Shifted (utf8Bytes added).length fold image) :
    foldKey new image = foldKey old fold := by
  obtain ⟨ordered, _, first, second, _⟩ := foldable_iff.mp (mem_normalizedFolds accepted).2
  obtain ⟨range, sliced⟩ := sourceRange_of_boundaries (Nat.le_of_lt ordered) first second
  obtain ⟨whole, starts, finishes⟩ := sourceRange_spec sliced
  have same : front ++ back = range.before ++ (range.inside ++ range.after) := by
    rw [← oldText, whole, List.append_assoc]
  obtain ⟨middle, before, tail⟩ := split_behind same (starts ▸ behind)
  have moved : new.sourceText.toList = front ++ added ++ middle ++ range.inside ++ range.after := by
    rw [newText, tail]
    simp only [List.append_assoc]
  have text : slice new.sourceText image.start image.finish =
      slice old.sourceText fold.start fold.finish := by
    rw [slice_eq whole starts finishes]
    refine slice_eq moved ?_ ?_
    · rw [shifted.start]
      simp only [before, utf8Bytes_append, List.length_append] at starts ⊢
      omega
    · simp only at finishes
      rw [shifted.start, shifted.finish]
      omega
  rw [foldKey, foldKey, opener, opener, text, shifted.kind]

theorem inserted_of_shifted {suffix shifted : List NormalizedFold}
    (accepted : ∀ fold ∈ suffix, fold ∈ normalizedFolds old)
    (behind : ∀ fold ∈ suffix, (utf8Bytes front).length ≤ fold.start)
    (moved : List.Forall₂ (Shifted (utf8Bytes added).length) suffix shifted) :
    Inserted old new suffix shifted (suffix.zip shifted) := by
  induction moved with
  | nil => exact .nothing
  | cons one _ ih =>
    rw [List.forall_mem_cons] at accepted behind
    exact .kept (foldKey_shifted oldText newText accepted.1 behind.1 one)
      (ih accepted.2 behind.2)

end shifting

theorem kindName_inj {first second : KnotFoldKindV1} (same : kindName first = kindName second) :
    first = second := by
  cases first <;> cases second <;> first | rfl | exact absurd same (by decide)

/-- Collapsed folds keep their identity across edits: what stays collapsed was collapsed under the
same kind, opening line and number, and folds inserted before others with fresh openings disturb
none of them. -/
theorem collapsed_folds_follow (old new : KnotFoldSnapshotV1) (collapsed : Finset Nat) :
    ((identities old).map Prod.snd).Nodup ∧
      remapCollapsed old collapsed old = collapsed.filter (fun index =>
        index ∈ (normalizedFolds old).map NormalizedFold.sourceIndex) ∧
      (∀ index ∈ remapCollapsed old collapsed new,
        ∃ position image, (normalizedFolds new)[position]? = some image ∧
          image.sourceIndex = index ∧ ∃ earlier fold,
            (normalizedFolds old)[earlier]? = some fold ∧ fold.sourceIndex ∈ collapsed ∧
              image.kind = fold.kind ∧ opener new image = opener old fold ∧
              occurrence new position image = occurrence old earlier fold) ∧
      (remapCollapsed old collapsed new).card ≤ (collapsed.filter fun index =>
        index ∈ (normalizedFolds old).map NormalizedFold.sourceIndex).card ∧
      ∀ front added back before suffix earlier shifted links,
        old.sourceText.toList = front ++ back → new.sourceText.toList = front ++ added ++ back →
        normalizedFolds old = before ++ suffix → normalizedFolds new = earlier ++ shifted →
        (∀ fold ∈ suffix, (utf8Bytes front).length ≤ fold.start) →
        List.Forall₂ (Shifted (utf8Bytes added).length) suffix shifted →
        Inserted old new before earlier links →
        remapCollapsed old collapsed new =
          (((links ++ suffix.zip shifted).filter fun link =>
            decide (link.1.sourceIndex ∈ collapsed)).map fun link => link.2.sourceIndex).toFinset := by
  refine ⟨nodup_identities old, remapCollapsed_self old collapsed, ?_, ?_, ?_⟩
  · intro index member
    obtain ⟨identity, known, index', shut, listed⟩ := mem_remapCollapsed.mp member
    obtain ⟨position, image, at_, rfl, rfl⟩ := mem_identities_iff.mp known
    obtain ⟨earlier, fold, alsoAt, rfl, same⟩ := mem_identities_iff.mp listed
    obtain ⟨sameKind, rest⟩ := Prod.mk.inj same
    obtain ⟨sameLine, sameNumber⟩ := Prod.mk.inj rest
    exact ⟨position, image, at_, rfl, earlier, fold, alsoAt, shut, kindName_inj sameKind, sameLine,
      sameNumber⟩
  · rw [← remapCollapsed_self]
    exact card_remapCollapsed_le old new collapsed
  · intro front added back before suffix earlier shifted links oldText newText oldFolds newFolds behind
      moved inserted
    have accepted : ∀ fold ∈ suffix, fold ∈ normalizedFolds old := by
      intro fold member
      rw [oldFolds]
      exact List.mem_append_right _ member
    have whole := inserted.append (inserted_of_shifted oldText newText accepted behind moved)
    rw [← oldFolds, ← newFolds] at whole
    exact whole.remapCollapsed collapsed

end KnotEditor.Desktop.DocumentFolding
