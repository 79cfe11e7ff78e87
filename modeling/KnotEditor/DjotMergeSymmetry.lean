import KnotEditor.DjotMerge
import KnotEditor.Library.Fallible

/-! The merge does not care which branch is named first. -/

namespace KnotEditor

variable (host : MergeHost)

theorem threeWay_comm {α β : Type} [DecidableEq α] {base left right : α} {keep : α → β}
    {one two : β} (both : one = two) :
    (if left = right then keep left else if left = base then keep right
      else if right = base then keep left else one) =
    if right = left then keep right else if right = base then keep left
      else if left = base then keep right else two := by
  by_cases same : left = right
  · rw [if_pos same, if_pos same.symm, same]
  · rw [if_neg same, if_neg (Ne.symm same)]
    by_cases leftBase : left = base
    · have rightChanged : right ≠ base := by
        intro unchanged
        exact same (leftBase.trans unchanged.symm)
      rw [if_pos leftBase, if_neg rightChanged, if_pos leftBase]
    · rw [if_neg leftBase, if_neg leftBase, both]

theorem mergeScalar_comm {α : Type} [DecidableEq α] (base left right : α) :
    mergeScalar base left right = mergeScalar base right left :=
  threeWay_comm rfl

theorem lineEditsConflict_comm (left right : LineEdit) :
    lineEditsConflict left right = lineEditsConflict right left := by
  simp only [lineEditsConflict]
  by_cases same : left = right
  · subst same
    rfl
  · rw [if_neg same, if_neg (Ne.symm same)]
    cases leftInserts : left.start == left.finish <;>
      cases rightInserts : right.start == right.finish
    · simp only [Nat.max_comm right.start, Nat.min_comm right.finish]
    · rfl
    · rfl
    · exact Bool.beq_comm

theorem any_conflict_comm (lefts rights : List LineEdit) :
    (lefts.any fun left => rights.any fun right => lineEditsConflict left right) =
      rights.any fun right => lefts.any fun left => lineEditsConflict right left := by
  rw [Bool.eq_iff_iff]
  simp only [List.any_eq_true]
  constructor
  · rintro ⟨left, leftFound, right, rightFound, conflict⟩
    exact ⟨right, rightFound, left, leftFound, by rwa [lineEditsConflict_comm]⟩
  · rintro ⟨right, rightFound, left, leftFound, conflict⟩
    exact ⟨left, leftFound, right, rightFound, by rwa [lineEditsConflict_comm]⟩

theorem key_injective : Function.Injective LineEdit.key := by
  intro left right same
  obtain ⟨leftStart, leftFinish, leftReplacement⟩ := left
  obtain ⟨rightStart, rightFinish, rightReplacement⟩ := right
  simp only [LineEdit.key, toLex_inj, Prod.mk.injEq] at same
  obtain ⟨start, finish, replacement⟩ := same
  subst start finish replacement
  rfl

theorem sortedEdits_comm (lefts rights : List LineEdit) :
    (lefts ++ rights).insertionSort (fun left right => left.key ≤ right.key) =
      (rights ++ lefts).insertionSort fun left right => left.key ≤ right.key := by
  have total : Std.Total fun left right : LineEdit => left.key ≤ right.key :=
    ⟨fun left right => le_total left.key right.key⟩
  have transitive : IsTrans LineEdit fun left right => left.key ≤ right.key :=
    ⟨fun _ _ _ => le_trans⟩
  refine List.Perm.eq_of_pairwise (fun left right _ _ below above => ?_)
    (List.pairwise_insertionSort _ _) (List.pairwise_insertionSort _ _) ?_
  · exact key_injective (le_antisymm below above)
  · exact ((List.perm_insertionSort _ _).trans List.perm_append_comm).trans
      (List.perm_insertionSort _ _).symm

theorem mergeTextLines_comm (base left right : String) :
    mergeTextLines host base left right = mergeTextLines host base right left := by
  refine threeWay_comm ?_
  simp only [any_conflict_comm (lineEdits host (splitLines base.toList [])
    (splitLines left.toList [])), sortedEdits_comm (lineEdits host
    (splitLines base.toList []) (splitLines left.toList []))]

theorem mergeBlock_comm (base left right : Block) :
    mergeBlock host base left right = mergeBlock host base right left :=
  threeWay_comm (mergeTextLines_comm host base.source left.source right.source)

theorem mergeBlocks_comm (bases lefts rights : List Block) :
    mergeBlocks host bases lefts rights = mergeBlocks host bases rights lefts := by
  induction bases generalizing lefts rights with
  | nil => simp [mergeBlocks]
  | cons base bases ih =>
    cases lefts with
    | nil => cases rights <;> rfl
    | cons left lefts =>
      cases rights with
      | nil => rfl
      | cons right rights =>
        simp only [mergeBlocks]
        rw [mergeBlock_comm, ih]

theorem mergeDjotSources_comm (base left right : String) :
    mergeDjotSources host base left right = mergeDjotSources host base right left := by
  refine threeWay_comm ?_
  cases blocks host base with
  | none => rfl
  | some baseBlocks =>
    cases blocks host left with
    | none => cases blocks host right <;> rfl
    | some leftBlocks =>
      cases blocks host right with
      | none => rfl
      | some rightBlocks =>
        simp only [Option.bind_eq_bind, Option.bind_some]
        rw [mergeBlocks_comm, Bool.or_right_comm]

theorem mergeBody_comm (mediaType base left right : String) :
    mergeBody host mediaType base left right = mergeBody host mediaType base right left := by
  simp only [mergeBody]
  rw [mergeDjotSources_comm, mergeTextLines_comm]

theorem mergeTextDocument_eq_some_iff (base left right merged : VaultDocument) :
    mergeTextDocument host base left right = some merged ↔
      (base.id = left.id ∧ base.id = right.id) ∧
      ∃ title mediaType baseBody leftBody rightBody body,
        mergeScalar base.title left.title right.title = some title ∧
        mergeScalar base.mediaType left.mediaType right.mediaType = some mediaType ∧
        "text/".toList.isPrefixOf mediaType.toList = true ∧
        String.fromUTF8? base.body = some baseBody ∧
        String.fromUTF8? left.body = some leftBody ∧
        String.fromUTF8? right.body = some rightBody ∧
        mergeBody host mediaType baseBody leftBody rightBody = some body ∧
        merged = { id := base.id, title, body := body.toUTF8, mediaType } := by
  simp only [mergeTextDocument, Option.bind_eq_bind, Fallible.refuse_eq_some_iff,
    Option.bind_eq_some_iff, not_or,
    not_not, Bool.not_eq_true', Bool.not_eq_false, ne_eq]
  constructor
  · rintro ⟨ids, title, titles, mediaType, mediaTypes, text, baseBody, baseRead, leftBody,
      leftRead, rightBody, rightRead, body, bodies, made⟩
    cases made
    exact ⟨ids, title, mediaType, baseBody, leftBody, rightBody, body, titles, mediaTypes, text,
      baseRead, leftRead, rightRead, bodies, rfl⟩
  · rintro ⟨ids, title, mediaType, baseBody, leftBody, rightBody, body, titles, mediaTypes, text,
      baseRead, leftRead, rightRead, bodies, rfl⟩
    exact ⟨ids, title, titles, mediaType, mediaTypes, text, baseBody, baseRead, leftBody, leftRead,
      rightBody, rightRead, body, bodies, rfl⟩

theorem mergeTextDocument_comm (base left right : VaultDocument) :
    mergeTextDocument host base left right = mergeTextDocument host base right left := by
  have forward (left right merged : VaultDocument)
      (found : mergeTextDocument host base left right = some merged) :
      mergeTextDocument host base right left = some merged := by
    rw [mergeTextDocument_eq_some_iff] at found ⊢
    obtain ⟨⟨leftId, rightId⟩, title, mediaType, baseBody, leftBody, rightBody, body, titles,
      mediaTypes, text, baseRead, leftRead, rightRead, bodies, made⟩ := found
    rw [mergeScalar_comm] at titles mediaTypes
    rw [mergeBody_comm] at bodies
    exact ⟨⟨rightId, leftId⟩, title, mediaType, baseBody, rightBody, leftBody, body, titles,
      mediaTypes, text, baseRead, rightRead, leftRead, bodies, made⟩
  exact Option.ext fun merged => ⟨forward left right merged, forward right left merged⟩

theorem commonAncestor_comm (causal : CausalIndex) (history : List VersionRecord) (id : String)
    (left right : KnotDocumentVersion) :
    commonAncestor causal history id left right = commonAncestor causal history id right left := by
  rw [commonAncestor]
  refine congrArg (fun found => List.findSome? found history.reverse) (funext fun record => ?_)
  simp only [and_comm]

theorem perm_pair {α : Type} {first second : α} {others : List α}
    (same : [first, second].Perm others) : others = [first, second] ∨ others = [second, first] := by
  obtain ⟨third, fourth, rfl⟩ := List.length_eq_two.mp same.length_eq.symm
  have member : first ∈ [third, fourth] := same.mem_iff.mp (by simp)
  rw [List.mem_pair] at member
  rcases member with rfl | rfl
  · rw [List.perm_cons, List.singleton_perm_singleton] at same
    exact .inl (by rw [same])
  · have swapped := same.trans (List.Perm.swap first third [])
    rw [List.perm_cons, List.singleton_perm_singleton] at swapped
    exact .inr (by rw [swapped])

theorem automaticTextMerge_perm (causal : CausalIndex) (history : List VersionRecord) (id : String)
    (versions others : WriterVersions) (same : versions.values.Perm others.values) :
    automaticTextMerge host causal history id versions =
      automaticTextMerge host causal history id others := by
  simp only [automaticTextMerge]
  generalize versions.values = lefts at same ⊢
  generalize others.values = rights at same ⊢
  match lefts, same with
  | [], same => rw [List.nil_perm.mp same]
  | [version], same => rw [List.singleton_perm.mp same]
  | first :: second :: third :: rest, same =>
    match rights, same.length_eq with
    | _ :: _ :: _ :: _, _ => rfl
  | [first, second], same =>
    rcases perm_pair same with rfl | rfl
    · rfl
    · simp only
      rw [commonAncestor_comm causal history id second first]
      cases first.document with
      | none => cases second.document <;> rfl
      | some firstDocument =>
        cases second.document with
        | none => rfl
        | some secondDocument =>
          simp only [Option.bind_eq_bind, Option.bind_some]
          refine Option.bind_congr fun ancestor _ => ?_
          rw [mergeTextDocument_comm]
          have sorted : [first.operation, second.operation].insertionSort (· ≤ ·) =
              [second.operation, first.operation].insertionSort (· ≤ ·) := by
            refine List.Perm.eq_of_pairwise' (List.pairwise_insertionSort _ _)
              (List.pairwise_insertionSort _ _) ?_
            exact ((List.perm_insertionSort _ _).trans (List.Perm.swap _ _ _)).trans
              (List.perm_insertionSort _ _).symm
          rw [sorted]

/-- Merging is blind to the order of the branches, for texts, for the merge a projection derives
and for the head that names it. -/
theorem mergeTextDocument_symmetric (host : MergeHost) :
    (∀ base left right : VaultDocument,
      mergeTextDocument host base left right = mergeTextDocument host base right left) ∧
    ∀ (causal : CausalIndex) (history : List VersionRecord) (id : String)
      (versions others : WriterVersions), versions.values.Perm others.values →
        automaticTextMerge host causal history id versions =
            automaticTextMerge host causal history id others ∧
          (automaticTextMerge host causal history id versions).map (fun automatic =>
              automaticTextMergeHead host automatic.base automatic.supersedes
                automatic.document) =
            (automaticTextMerge host causal history id others).map fun automatic =>
              automaticTextMergeHead host automatic.base automatic.supersedes
                automatic.document := by
  refine ⟨mergeTextDocument_comm host, fun causal history id versions others same => ?_⟩
  have merged := automaticTextMerge_perm host causal history id versions others same
  exact ⟨merged, by rw [merged]⟩

end KnotEditor
