import KnotEditor.DjotMergeSymmetry
import KnotEditor.Library.Splice

/-! The single pass of the line merge over two edit scripts of one base. Scripts that do not
conflict interleave in the order the edits are sorted in. -/

namespace KnotEditor

def LineEdit.splice (edit : LineEdit) : Splices.Edit String :=
  ⟨edit.start, edit.finish, edit.replacement⟩

def mergedEdits (lefts rights : List LineEdit) : List LineEdit :=
  dedupAdjacent ((lefts ++ rights).insertionSort fun left right => left.key ≤ right.key)

structure EditScript (base : List String) (edits : List LineEdit) : Prop where
  within : ∀ edit ∈ edits, edit.start ≤ edit.finish ∧ edit.finish ≤ base.length
  sorted : edits.Pairwise fun earlier later => earlier.key ≤ later.key
  disjoint : edits.Pairwise fun earlier later => earlier.finish ≤ later.start
  distinct : edits.IsChain fun earlier later => earlier ≠ later

/-- The base with every edit made: a line stands unless an edit covers it, and each replacement
stands where its edit starts. -/
def spliceLines (base : List String) (edits : List LineEdit) : List String :=
  Splices.spliced base (edits.map LineEdit.splice)

theorem applyEdits_eq_apply (base : List String) (edits : List LineEdit) (cursor : Nat) :
    applyEdits base edits cursor = Splices.apply base (edits.map LineEdit.splice) cursor := by
  induction edits generalizing cursor with
  | nil => rfl
  | cons edit rest ih =>
    simp only [applyEdits, List.map_cons, Splices.apply, ih]
    rfl

section dedup

variable {edits : List LineEdit}

theorem mem_dedupAdjacent {edit : LineEdit} : edit ∈ dedupAdjacent edits ↔ edit ∈ edits := by
  induction edits using dedupAdjacent.induct with
  | case1 => rfl
  | case2 value => rfl
  | case3 next rest ih =>
    rw [dedupAdjacent, if_pos rfl, ih]
    simp
  | case4 value next rest differs ih =>
    rw [dedupAdjacent, if_neg differs, List.mem_cons, ih, List.mem_cons (l := next :: rest)]

theorem key_lt_of_le_of_ne {earlier later : LineEdit} (below : earlier.key ≤ later.key)
    (differs : earlier ≠ later) : earlier.key < later.key :=
  lt_of_le_of_ne below fun same => differs (key_injective same)

theorem dedupAdjacent_strict
    (sorted : edits.Pairwise fun earlier later => earlier.key ≤ later.key) :
    (dedupAdjacent edits).Pairwise fun earlier later => earlier.key < later.key := by
  induction edits using dedupAdjacent.induct with
  | case1 => exact List.Pairwise.nil
  | case2 value => exact List.pairwise_singleton _ value
  | case3 next rest ih =>
    rw [dedupAdjacent, if_pos rfl]
    exact ih sorted.of_cons
  | case4 value next rest differs ih =>
    rw [dedupAdjacent, if_neg differs, List.pairwise_cons]
    refine ⟨fun later member => ?_, ih sorted.of_cons⟩
    have first : value.key < next.key :=
      key_lt_of_le_of_ne (List.rel_of_pairwise_cons sorted List.mem_cons_self) differs
    rw [mem_dedupAdjacent, List.mem_cons] at member
    rcases member with rfl | member
    · exact first
    · exact first.trans_le (List.rel_of_pairwise_cons sorted.of_cons member)

end dedup

section scripts

variable {base : List String} {lefts rights edits : List LineEdit} {earlier later : LineEdit}

theorem strict_of_sorted (sorted : edits.Pairwise fun earlier later => earlier.key ≤ later.key)
    (distinct : edits.IsChain fun earlier later => earlier ≠ later) :
    edits.Pairwise fun earlier later => earlier.key < later.key := by
  induction edits with
  | nil => exact List.Pairwise.nil
  | cons first rest ih =>
    cases rest with
    | nil => exact List.pairwise_singleton _ first
    | cons next tail =>
      rw [List.isChain_cons_cons] at distinct
      have follows := ih sorted.of_cons distinct.2
      have below := key_lt_of_le_of_ne
        (List.rel_of_pairwise_cons sorted List.mem_cons_self) distinct.1
      refine List.pairwise_cons.mpr ⟨fun later member => ?_, follows⟩
      rcases List.mem_cons.mp member with rfl | beyond
      · exact below
      · exact below.trans (List.rel_of_pairwise_cons follows beyond)

theorem EditScript.strict (script : EditScript base edits) :
    edits.Pairwise fun earlier later => earlier.key < later.key :=
  strict_of_sorted script.sorted script.distinct

theorem EditScript.before (script : EditScript base edits) (first : earlier ∈ edits)
    (second : later ∈ edits) (below : earlier.key < later.key) :
    earlier.finish ≤ later.start := by
  let apart (one two : LineEdit) : Prop :=
    (one.key < two.key → one.finish ≤ two.start) ∧ (two.key < one.key → two.finish ≤ one.start)
  have mirrored : Std.Symm apart := ⟨fun _ _ both => ⟨both.2, both.1⟩⟩
  have each : edits.Pairwise apart := by
    refine (script.disjoint.and script.strict).imp ?_
    rintro one two ⟨follows, order⟩
    exact ⟨fun _ => follows, fun reversed => absurd order reversed.asymm⟩
  have self : ∀ one ∈ edits, apart one one :=
    fun one _ => ⟨fun loop => absurd loop (lt_irrefl _), fun loop => absurd loop (lt_irrefl _)⟩
  exact (each.forall_of_forall self first second).1 below

theorem start_of_key_lt (below : earlier.key < later.key) :
    earlier.start < later.start ∨
      earlier.start = later.start ∧ earlier.finish ≤ later.finish := by
  simp only [LineEdit.key, Prod.Lex.toLex_lt_toLex] at below
  rcases below with start | ⟨same, finish | ⟨equal, _⟩⟩
  · exact .inl start
  · exact .inr ⟨same, finish.le⟩
  · exact .inr ⟨same, equal.le⟩

theorem before_of_apart (first : earlier.start ≤ earlier.finish)
    (second : later.start ≤ later.finish) (below : earlier.key < later.key)
    (apart : lineEditsConflict earlier later = false) : earlier.finish ≤ later.start := by
  have differs : earlier ≠ later := by
    rintro rfl
    exact lt_irrefl _ below
  have starts := start_of_key_lt below
  rw [lineEditsConflict, if_neg differs] at apart
  cases one : earlier.start == earlier.finish <;> cases two : later.start == later.finish <;>
    rw [one, two] at apart <;>
    simp only [beq_iff_eq, beq_eq_false_iff_ne, decide_eq_false_iff_not,
      Bool.and_eq_false_iff] at one two apart <;> omega

theorem merged_before (left : EditScript base lefts) (right : EditScript base rights)
    (apart : ∀ one ∈ lefts, ∀ two ∈ rights, lineEditsConflict one two = false)
    (first : earlier ∈ lefts ∨ earlier ∈ rights) (second : later ∈ lefts ∨ later ∈ rights)
    (below : earlier.key < later.key) : earlier.finish ≤ later.start := by
  rcases first with inLeft | inRight <;> rcases second with other | other
  · exact left.before inLeft other below
  · exact before_of_apart (left.within _ inLeft).1 (right.within _ other).1 below
      (apart _ inLeft _ other)
  · refine before_of_apart (right.within _ inRight).1 (left.within _ other).1 below ?_
    rw [lineEditsConflict_comm]
    exact apart _ other _ inRight
  · exact right.before inRight other below

theorem mem_mergedEdits {edit : LineEdit} :
    edit ∈ mergedEdits lefts rights ↔ edit ∈ lefts ∨ edit ∈ rights := by
  rw [mergedEdits, mem_dedupAdjacent, List.mem_insertionSort, List.mem_append]

theorem mergedEdits_strict (lefts rights : List LineEdit) :
    (mergedEdits lefts rights).Pairwise fun earlier later => earlier.key < later.key := by
  have total : Std.Total fun left right : LineEdit => left.key ≤ right.key :=
    ⟨fun left right => le_total left.key right.key⟩
  have transitive : IsTrans LineEdit fun left right => left.key ≤ right.key :=
    ⟨fun _ _ _ => le_trans⟩
  exact dedupAdjacent_strict (List.pairwise_insertionSort _ _)

theorem nodup_of_strict (strict : edits.Pairwise fun earlier later => earlier.key < later.key) :
    edits.Nodup :=
  strict.imp fun below same => absurd (congrArg LineEdit.key same) below.ne

theorem filter_mem_eq {all : List LineEdit}
    (strict : edits.Pairwise fun earlier later => earlier.key < later.key)
    (ordered : all.Pairwise fun earlier later => earlier.key < later.key)
    (holds : ∀ edit ∈ edits, edit ∈ all) : all.filter (· ∈ edits) = edits := by
  refine List.Perm.eq_of_pairwise (fun one two _ _ forth back => absurd forth back.asymm)
    (ordered.filter _) strict ?_
  refine (List.perm_ext_iff_of_nodup ((nodup_of_strict ordered).filter _)
    (nodup_of_strict strict)).mpr fun edit => ?_
  simp only [List.mem_filter, decide_eq_true_eq]
  exact and_iff_right_of_imp (holds edit)

theorem applyEdits_eq_spliceLines
    (within : ∀ edit ∈ edits, edit.start ≤ edit.finish ∧ edit.finish ≤ base.length)
    (ordered : edits.Pairwise fun earlier later => earlier.finish ≤ later.start) :
    applyEdits base edits 0 = some (spliceLines base edits) := by
  rw [applyEdits_eq_apply, spliceLines]
  refine Splices.apply_eq_spliced (List.pairwise_map.mpr ordered) fun edit member => ?_
  obtain ⟨own, found, rfl⟩ := List.mem_map.mp member
  exact within own found

theorem mergedEdits_ordered (left : EditScript base lefts) (right : EditScript base rights)
    (apart : ∀ one ∈ lefts, ∀ two ∈ rights, lineEditsConflict one two = false) :
    (mergedEdits lefts rights).Pairwise fun earlier later => earlier.finish ≤ later.start :=
  (mergedEdits_strict lefts rights).imp_of_mem fun first second below =>
    merged_before left right apart (mem_mergedEdits.mp first) (mem_mergedEdits.mp second) below

theorem mergedEdits_within (left : EditScript base lefts) (right : EditScript base rights) :
    ∀ edit ∈ mergedEdits lefts rights, edit.start ≤ edit.finish ∧ edit.finish ≤ base.length := by
  intro edit member
  rcases mem_mergedEdits.mp member with inLeft | inRight
  · exact left.within edit inLeft
  · exact right.within edit inRight

/-- Two scripts that do not conflict are merged without meeting the cursor, every edit of either
applied once; the edits of one branch alone give that branch. -/
theorem line_merge_applies_both_scripts (base : List String) (lefts rights : List LineEdit)
    (left : EditScript base lefts) (right : EditScript base rights)
    (apart : ∀ one ∈ lefts, ∀ two ∈ rights, lineEditsConflict one two = false) :
    applyEdits base (mergedEdits lefts rights) 0 =
        some (spliceLines base (mergedEdits lefts rights)) ∧
      (mergedEdits lefts rights).Nodup ∧
      (∀ edit, edit ∈ mergedEdits lefts rights ↔ edit ∈ lefts ∨ edit ∈ rights) ∧
      (∀ branch, branch = lefts ∨ branch = rights →
        (mergedEdits lefts rights).filter (· ∈ branch) = branch ∧
          applyEdits base ((mergedEdits lefts rights).filter (· ∈ branch)) 0 =
            some (spliceLines base branch)) := by
  have strict := mergedEdits_strict lefts rights
  refine ⟨applyEdits_eq_spliceLines (mergedEdits_within left right)
    (mergedEdits_ordered left right apart), nodup_of_strict strict, fun _ => mem_mergedEdits, ?_⟩
  rintro branch (rfl | rfl)
  · have own := filter_mem_eq left.strict strict fun edit member =>
      mem_mergedEdits.mpr (.inl member)
    refine ⟨own, ?_⟩
    rw [own]
    exact applyEdits_eq_spliceLines left.within left.disjoint
  · have own := filter_mem_eq right.strict strict fun edit member =>
      mem_mergedEdits.mpr (.inr member)
    refine ⟨own, ?_⟩
    rw [own]
    exact applyEdits_eq_spliceLines right.within right.disjoint

theorem editScript_singleton {base : List String} {edit : LineEdit}
    (within : edit.start ≤ edit.finish ∧ edit.finish ≤ base.length) : EditScript base [edit] where
  within _ member := List.mem_singleton.mp member ▸ within
  sorted := List.pairwise_singleton _ _
  disjoint := List.pairwise_singleton _ _
  distinct := List.isChain_singleton _

/-- One branch rewrites the first line and the other adds one behind the second. -/
theorem line_merge_applies_both_scripts_apart :
    applyEdits ["a\n", "b\n"] (mergedEdits [⟨0, 1, ["x\n"]⟩] [⟨2, 2, ["c\n"]⟩]) 0 =
      some ["x\n", "b\n", "c\n"] := by
  have whole := line_merge_applies_both_scripts ["a\n", "b\n"] [⟨0, 1, ["x\n"]⟩]
    [⟨2, 2, ["c\n"]⟩] (editScript_singleton (by decide)) (editScript_singleton (by decide))
    (by decide)
  rw [whole.1]
  decide

end scripts

end KnotEditor
