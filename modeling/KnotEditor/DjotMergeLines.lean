import KnotEditor.DjotMergeScripts
import KnotEditor.Library.TerminatedLines

/-! Which lines a line merge can come out with. Only the last line of a text may lack its newline,
and a merge puts such a line before another in one case: one branch rewrites the end of the base
without a final newline while the other adds lines behind that end. -/

namespace KnotEditor

open TerminatedLines

def Ended (line : String) : Prop := Terminated '\n' line.toList

instance (line : String) : Decidable (Ended line) :=
  inferInstanceAs (Decidable (line.toList.getLast? = some '\n'))

def lineContent (line : String) : String :=
  if Ended line then String.ofList line.toList.dropLast else line

def lineContents (text : String) : List String := (splitLines text.toList []).map lineContent

def InventsNoLine (base left right out : String) : Prop :=
  ∀ content ∈ lineContents out,
    content ∈ lineContents base ∨ content ∈ lineContents left ∨ content ∈ lineContents right

inductive Tiling (base branch : List String) : Nat → Nat → List DiffOp → Prop
  | done : Tiling base branch base.length branch.length []
  | step (operation : DiffOp) (rest : List DiffOp)
      (old : operation.oldRange.start ≤ operation.oldRange.finish)
      (new : operation.newRange.start ≤ operation.newRange.finish)
      (tiles : Tiling base branch operation.oldRange.finish operation.newRange.finish rest) :
      Tiling base branch operation.oldRange.start operation.newRange.start (operation :: rest)

def changes (base branch : List String) (operation : DiffOp) : Bool :=
  decide (operation.oldRange.finish - operation.oldRange.start ≠
      operation.newRange.finish - operation.newRange.start ∨
    sliceLines base operation.oldRange ≠ sliceLines branch operation.newRange)

/-- What a diff is: its operations cover both sides, and its changes are blocks of maximal length,
so that something unchanged lies between two of them. -/
structure DiffTiles (base branch : List String) (operations : List DiffOp) : Prop where
  tiles : Tiling base branch 0 0 operations
  apart : (operations.filter (changes base branch)).Pairwise fun earlier later =>
    earlier.oldRange.finish < later.oldRange.start

/-- One script rewrites the end of the base and leaves `last` there without a newline, and the
other inserts lines from `first` on behind that end. -/
def Overhangs (base : List String) (edits others : List LineEdit) (last first : String) : Prop :=
  ∃ edit ∈ edits, ∃ other ∈ others, edit ≠ other ∧ edit.finish = base.length ∧
    edit.replacement.getLast? = some last ∧ ¬ Ended last ∧ other.start = base.length ∧
    other.replacement.head? = some first

def Fuses (host : MergeHost) (base left right : String) : Prop :=
  left ≠ right ∧ left ≠ base ∧ right ≠ base ∧
    let lines := splitLines base.toList []
    let lefts := lineEdits host lines (splitLines left.toList [])
    let rights := lineEdits host lines (splitLines right.toList [])
    ∃ last first, (Overhangs lines lefts rights last first ∨
        Overhangs lines rights lefts last first) ∧
      lineContent (last ++ first) ∉ lineContents base ∧
      lineContent (last ++ first) ∉ lineContents left ∧
      lineContent (last ++ first) ∉ lineContents right

section lines

theorem splitLines_eq_split (text current : List Char) :
    splitLines text current = (split '\n' text current).map String.ofList := by
  induction text generalizing current with
  | nil => cases current <;> rfl
  | cons character rest ih =>
    rw [splitLines, split]
    split
    · rw [ih, List.map_cons]
    · exact ih _

structure Lines (lines : List String) : Prop where
  each : ∀ line ∈ lines, IsLine '\n' line.toList
  ended : AllButLast Ended lines

theorem lines_splitLines (text : String) : Lines (splitLines text.toList []) := by
  rw [splitLines_eq_split]
  constructor
  · intro line member
    obtain ⟨own, found, rfl⟩ := List.mem_map.mp member
    rw [String.toList_ofList]
    exact isLine_of_mem_split List.not_mem_nil own found
  · intro line member
    rw [← List.map_dropLast] at member
    obtain ⟨own, found, rfl⟩ := List.mem_map.mp member
    rw [Ended, String.toList_ofList]
    exact split_allButLast text.toList [] own found

theorem Lines.splitLines_join {lines : List String} (whole : Lines lines) :
    splitLines (String.join lines).toList [] = lines := by
  have apart : split '\n' (lines.map String.toList).flatten [] = lines.map String.toList := by
    refine split_flatten_of_lines ?_ ?_
    · intro line member
      obtain ⟨own, found, rfl⟩ := List.mem_map.mp member
      exact whole.each own found
    · intro line member
      rw [← List.map_dropLast] at member
      obtain ⟨own, found, rfl⟩ := List.mem_map.mp member
      exact whole.ended own found
  rw [splitLines_eq_split, String.toList_join, List.flatMap_def, apart, List.map_map]
  exact List.map_id'' (fun line => String.ofList_toList) lines

end lines

section pasted

def pasted (base : List String) : List LineEdit → Nat → List String
  | [], cursor => base.drop cursor
  | edit :: edits, cursor =>
    Splices.stretch base cursor edit.start ++ (edit.replacement ++ pasted base edits edit.finish)

variable {base : List String} {edit : LineEdit} {edits ahead behind : List LineEdit} {cursor : Nat}

theorem pasted_cons : pasted base (edit :: edits) cursor =
    Splices.stretch base cursor edit.start ++
      (edit.replacement ++ pasted base edits edit.finish) := rfl

theorem applyEdits_eq_pasted {out : List String}
    (applied : applyEdits base edits cursor = some out) : out = pasted base edits cursor := by
  induction edits generalizing cursor out with
  | nil => exact (Option.some.inj applied).symm
  | cons edit rest ih =>
    rw [applyEdits] at applied
    split at applied
    · cases applied
    · obtain ⟨output, later, rfl⟩ := Option.map_eq_some_iff.mp applied
      rw [pasted_cons, ← ih later, List.append_assoc]
      rfl

theorem mem_pasted {line : String} (member : line ∈ pasted base edits cursor) :
    line ∈ base ∨ ∃ edit ∈ edits, line ∈ edit.replacement := by
  induction edits generalizing cursor with
  | nil => exact .inl (List.drop_subset _ _ member)
  | cons edit rest ih =>
    rw [pasted_cons, List.mem_append, List.mem_append] at member
    rcases member with kept | own | later
    · exact .inl (List.take_subset _ _ (List.drop_subset _ _ kept))
    · exact .inr ⟨edit, List.mem_cons_self, own⟩
    · exact (ih later).imp_right fun ⟨other, found, inside⟩ =>
        ⟨other, List.mem_cons_of_mem edit found, inside⟩

theorem pasted_split : ∃ front from_, (from_ = cursor ∨ ∃ earlier ∈ ahead, from_ = earlier.finish) ∧
    pasted base (ahead ++ edit :: behind) cursor =
      front ++ (Splices.stretch base from_ edit.start ++
        (edit.replacement ++ pasted base behind edit.finish)) := by
  induction ahead generalizing cursor with
  | nil => exact ⟨[], cursor, .inl rfl, rfl⟩
  | cons first rest ih =>
    obtain ⟨front, from_, reached, shape⟩ := @ih first.finish
    refine ⟨Splices.stretch base cursor first.start ++ (first.replacement ++ front), from_, .inr ?_, ?_⟩
    · rcases reached with rfl | ⟨earlier, member, rfl⟩
      · exact ⟨first, List.mem_cons_self, rfl⟩
      · exact ⟨earlier, List.mem_cons_of_mem first member, rfl⟩
    · rw [List.cons_append, pasted_cons, shape]
      simp only [List.append_assoc]

theorem pasted_concat_end (start : edit.start = base.length) (finish : edit.finish = base.length) :
    pasted base (ahead ++ [edit]) cursor = pasted base ahead cursor ++ edit.replacement := by
  induction ahead generalizing cursor with
  | nil =>
    rw [List.nil_append, pasted_cons, start, finish, pasted, List.drop_length,
      List.append_nil, Splices.stretch, List.take_length]
    rfl
  | cons first rest ih =>
    rw [List.cons_append, pasted_cons, ih, pasted_cons]
    simp only [List.append_assoc]

end pasted

section diff

variable {base branch : List String} {operations : List DiffOp} {old new : Nat}

def lineEditOf (branch : List String) (operation : DiffOp) : LineEdit :=
  ⟨operation.oldRange.start, operation.oldRange.finish, sliceLines branch operation.newRange⟩

theorem lineEdits_eq (host : MergeHost) (base branch : List String) :
    lineEdits host base branch =
      ((host.diffSlices base branch).filter (changes base branch)).map (lineEditOf branch) := by
  rw [lineEdits]
  induction host.diffSlices base branch with
  | nil => rfl
  | cons operation rest ih =>
    rw [List.filterMap_cons, ih, List.filter_cons]
    simp only [changes, decide_eq_true_eq]
    split <;> rename_i found <;> split at found <;> rename_i differs
    · cases found
    · rw [if_neg differs]
    · cases found
      rw [if_pos differs]
      rfl
    · cases found

theorem Tiling.within (tiles : Tiling base branch old new operations) :
    (old ≤ base.length ∧ new ≤ branch.length) ∧
      ∀ operation ∈ operations, operation.oldRange.start ≤ operation.oldRange.finish ∧
        operation.oldRange.finish ≤ base.length := by
  induction tiles with
  | done => exact ⟨⟨le_refl _, le_refl _⟩, List.forall_mem_nil _⟩
  | step operation rest older newer _ ih =>
    refine ⟨⟨older.trans ih.1.1, newer.trans ih.1.2⟩, ?_⟩
    rw [List.forall_mem_cons]
    exact ⟨⟨older, ih.1.1⟩, ih.2⟩

theorem Tiling.pasted (tiles : Tiling base branch old new operations) {cursor : Nat}
    (behind : cursor ≤ old) :
    pasted base ((operations.filter (changes base branch)).map (lineEditOf branch)) cursor =
      Splices.stretch base cursor old ++ branch.drop new := by
  induction tiles generalizing cursor with
  | done =>
    rw [List.drop_length, List.append_nil, Splices.stretch, List.take_length]
    rfl
  | step operation rest older newer remaining ih =>
    obtain ⟨_, bounded⟩ := remaining.within.1
    have newSplit := Splices.stretch_append_drop newer bounded
    rw [List.filter_cons]
    cases changed : changes base branch operation with
    | true =>
      rw [if_pos rfl, List.map_cons, pasted_cons]
      simp only [lineEditOf]
      rw [ih (le_refl _), Splices.stretch_self, List.nil_append, ← newSplit]
      rfl
    | false =>
      have same : Splices.stretch base operation.oldRange.start operation.oldRange.finish =
          Splices.stretch branch operation.newRange.start operation.newRange.finish := by
        have kept := of_decide_eq_false changed
        rw [not_or, not_not, not_not] at kept
        exact kept.2
      rw [if_neg Bool.false_ne_true, ih (behind.trans older),
        ← Splices.stretch_append behind older, same, List.append_assoc, newSplit]

structure BranchEdits (base branch : List String) (edits : List LineEdit) : Prop where
  within : ∀ edit ∈ edits, edit.start ≤ edit.finish ∧ edit.finish ≤ base.length
  apart : edits.Pairwise fun earlier later => earlier.finish < later.start
  gives : pasted base edits 0 = branch

theorem branchEdits_of_tiles {host : MergeHost} (tiles : DiffTiles base branch
    (host.diffSlices base branch)) : BranchEdits base branch (lineEdits host base branch) := by
  rw [lineEdits_eq]
  constructor
  · intro edit member
    obtain ⟨operation, kept, rfl⟩ := List.mem_map.mp member
    exact tiles.tiles.within.2 operation (List.mem_filter.mp kept).1
  · exact List.pairwise_map.mpr tiles.apart
  · rw [tiles.tiles.pasted (le_refl 0), Splices.stretch_self]
    rfl

theorem BranchEdits.script {edits : List LineEdit} (own : BranchEdits base branch edits) :
    EditScript base edits := by
  have rising : edits.Pairwise fun earlier later => earlier.start < later.start :=
    own.apart.imp_of_mem fun first _ follows => (own.within _ first).1.trans_lt follows
  refine ⟨own.within, rising.imp fun below => ?_, own.apart.imp le_of_lt,
    (rising.imp fun below => ?_).isChain⟩
  · exact (Prod.Lex.toLex_lt_toLex.mpr (.inl below)).le
  · rintro rfl
    exact lt_irrefl _ below

end diff

section ends

variable {base branch other : List String} {edits others : List LineEdit} {edit : LineEdit}
variable {cursor : Nat}

theorem pasted_ne_nil (short : cursor < base.length)
    (follows : ∀ edit ∈ edits, cursor < edit.start) : pasted base edits cursor ≠ [] := by
  cases edits with
  | nil => exact fun empty => absurd (List.drop_eq_nil_iff.mp empty) (not_le.mpr short)
  | cons edit rest =>
    have first : base[cursor]? = some base[cursor] := List.getElem?_eq_getElem short
    have held := Splices.mem_stretch (le_refl cursor) (follows edit List.mem_cons_self) first
    rw [pasted_cons]
    exact List.append_ne_nil_of_left_ne_nil (List.ne_nil_of_mem held) _

theorem BranchEdits.around (own : BranchEdits base branch edits) (member : edit ∈ edits) :
    ∃ front from_ back, (from_ = 0 ∨ from_ < edit.start) ∧
      (edit.finish < base.length → back ≠ []) ∧
      branch = front ++ (Splices.stretch base from_ edit.start ++ (edit.replacement ++ back)) := by
  obtain ⟨ahead, behind, rfl⟩ := List.append_of_mem member
  obtain ⟨front, from_, reached, shape⟩ := @pasted_split base edit ahead behind 0
  obtain ⟨_, later, earlier⟩ := List.pairwise_append.mp own.apart
  refine ⟨front, from_, _, ?_, fun short => ?_, own.gives.symm.trans shape⟩
  · refine reached.imp_right ?_
    rintro ⟨one, found, rfl⟩
    exact earlier one found edit List.mem_cons_self
  · exact pasted_ne_nil short (List.pairwise_cons.mp later).1

theorem BranchEdits.ended_inside (own : BranchEdits base branch edits)
    (clean : AllButLast Ended branch) (member : edit ∈ edits) (short : edit.finish < base.length) :
    ∀ line ∈ edit.replacement, Ended line := by
  obtain ⟨front, from_, back, _, more, rfl⟩ := own.around member
  exact clean.back.back.all_front (more short)

theorem BranchEdits.allButLast (own : BranchEdits base branch edits)
    (clean : AllButLast Ended branch) (member : edit ∈ edits) :
    AllButLast Ended edit.replacement := by
  obtain ⟨front, from_, back, _, _, rfl⟩ := own.around member
  exact clean.back.back.front

theorem BranchEdits.replacement_subset (own : BranchEdits base branch edits)
    (member : edit ∈ edits) : edit.replacement ⊆ branch := by
  obtain ⟨front, from_, back, _, _, rfl⟩ := own.around member
  intro line inside
  simp only [List.mem_append]
  exact .inr (.inr (.inl inside))

theorem BranchEdits.base_ended (own : BranchEdits base branch edits)
    (clean : AllButLast Ended branch) (whole : AllButLast Ended base) (member : edit ∈ edits)
    (atEnd : edit.start = base.length) (some_ : edit.replacement ≠ []) :
    ∀ line ∈ base, Ended line := by
  obtain ⟨front, from_, back, reached, _, rfl⟩ := own.around member
  rw [atEnd] at reached clean
  have kept := clean.back.all_front (List.append_ne_nil_of_left_ne_nil some_ back)
  intro line found
  obtain ⟨place, bound, rfl⟩ := List.mem_iff_getElem.mp found
  by_cases last : place + 1 = base.length
  · refine kept _ (Splices.mem_stretch ?_ bound (List.getElem?_eq_getElem bound))
    omega
  · refine whole _ (List.mem_iff_getElem.mpr ⟨place, ?_, List.getElem_dropLast _⟩)
    rw [List.length_dropLast]
    omega

structure EndsMeet (base : List String) (edits : List LineEdit) : Prop where
  within : ∀ edit ∈ edits, edit.start ≤ edit.finish ∧ edit.finish ≤ base.length
  ordered : edits.Pairwise fun earlier later => earlier.finish ≤ later.start
  inside : ∀ edit ∈ edits, edit.finish < base.length → ∀ line ∈ edit.replacement, Ended line
  own : ∀ edit ∈ edits, AllButLast Ended edit.replacement
  behind : ∀ edit ∈ edits, edit.start = base.length → edit.replacement ≠ [] →
    ∀ line ∈ base, Ended line
  meet : edits.Pairwise fun earlier later => earlier.finish = base.length →
    later.replacement ≠ [] → ∀ line ∈ earlier.replacement, Ended line

theorem EndsMeet.tail (ends : EndsMeet base (edit :: edits)) : EndsMeet base edits where
  within one member := ends.within one (List.mem_cons_of_mem edit member)
  ordered := ends.ordered.of_cons
  inside one member := ends.inside one (List.mem_cons_of_mem edit member)
  own one member := ends.own one (List.mem_cons_of_mem edit member)
  behind one member := ends.behind one (List.mem_cons_of_mem edit member)
  meet := ends.meet.of_cons

theorem pasted_end_ne_nil (some_ : pasted base edits base.length ≠ [])
    (within : ∀ edit ∈ edits, edit.start ≤ edit.finish ∧ edit.finish ≤ base.length)
    (beyond : ∀ edit ∈ edits, base.length ≤ edit.start) :
    ∃ edit ∈ edits, edit.replacement ≠ [] := by
  obtain ⟨line, member⟩ := List.exists_mem_of_ne_nil _ some_
  by_contra none_
  push Not at none_
  induction edits with
  | nil =>
    rw [pasted, List.drop_length] at member
    exact absurd member List.not_mem_nil
  | cons edit rest ih =>
    rw [List.forall_mem_cons] at within beyond none_
    have finish : edit.finish = base.length := by omega
    have start : edit.start = base.length := by omega
    rw [pasted_cons, start, finish, none_.1, Splices.stretch_self] at member some_
    exact ih some_ within.2 beyond.2 member none_.2

theorem pasted_allButLast (whole : AllButLast Ended base) (ends : EndsMeet base edits) :
    AllButLast Ended (pasted base edits cursor) := by
  induction edits generalizing cursor with
  | nil =>
    rw [← List.take_append_drop cursor base] at whole
    exact whole.back
  | cons edit rest ih =>
    have later := @ih edit.finish ends.tail
    have bounds := ends.within edit List.mem_cons_self
    have follows := (List.pairwise_cons.mp ends.ordered).1
    -- What stands behind the end of the base comes from an edit that inserts there.
    have more : edit.finish = base.length → pasted base rest edit.finish ≠ [] →
        ∃ one ∈ rest, one.start = base.length ∧ one.replacement ≠ [] := by
      intro finish some_
      rw [finish] at some_
      obtain ⟨one, member, filled⟩ := pasted_end_ne_nil some_ ends.tail.within
        fun one member => finish ▸ follows one member
      have placed := ends.tail.within one member
      have after := follows one member
      exact ⟨one, member, by omega, filled⟩
    have replaced : pasted base rest edit.finish ≠ [] →
        ∀ line ∈ edit.replacement, Ended line := by
      intro some_
      rcases bounds.2.lt_or_eq with short | finish
      · exact ends.inside edit List.mem_cons_self short
      · obtain ⟨one, member, _, filled⟩ := more finish some_
        exact (List.pairwise_cons.mp ends.meet).1 one member finish filled
    have kept : edit.replacement ++ pasted base rest edit.finish ≠ [] →
        ∀ line ∈ Splices.stretch base cursor edit.start, Ended line := by
      intro some_ line member
      rcases (bounds.1.trans bounds.2).lt_or_eq with short | start
      · rw [← List.take_append_drop edit.start base] at whole
        refine whole.all_front ?_ line (List.drop_subset _ _ member)
        exact fun empty => absurd (List.drop_eq_nil_iff.mp empty) (not_le.mpr short)
      · refine Exists.elim (?_ : ∃ one ∈ edit :: rest, one.start = base.length ∧
          one.replacement ≠ []) fun one ⟨found, there, filled⟩ =>
            ends.behind one found there filled line
              (List.take_subset _ _ (List.drop_subset _ _ member))
        by_cases bare : edit.replacement = []
        · rw [bare, List.nil_append] at some_
          obtain ⟨one, found, there, filled⟩ := more (by omega) some_
          exact ⟨one, List.mem_cons_of_mem edit found, there, filled⟩
        · exact ⟨edit, List.mem_cons_self, start, bare⟩
    have piece : AllButLast Ended (Splices.stretch base cursor edit.start) := by
      rw [← List.take_append_drop edit.start base] at whole
      have front := whole.front
      rw [← List.take_append_drop cursor (base.take edit.start)] at front
      exact front.back
    exact allButLast_append_of piece
      (allButLast_append_of (ends.own edit List.mem_cons_self) later replaced) kept

end ends

section merge

variable {base one two : List String} {lefts rights : List LineEdit} {edit other : LineEdit}

structure Branches (base one two : List String) (lefts rights : List LineEdit) : Prop where
  root : Lines base
  left : Lines one
  right : Lines two
  fromLeft : BranchEdits base one lefts
  fromRight : BranchEdits base two rights
  apart : ∀ left ∈ lefts, ∀ right ∈ rights, lineEditsConflict left right = false

theorem Branches.swap (both : Branches base one two lefts rights) :
    Branches base two one rights lefts where
  root := both.root
  left := both.right
  right := both.left
  fromLeft := both.fromRight
  fromRight := both.fromLeft
  apart right inRights left inLefts := by
    rw [lineEditsConflict_comm]
    exact both.apart left inLefts right inRights

theorem mergedEdits_comm (lefts rights : List LineEdit) :
    mergedEdits lefts rights = mergedEdits rights lefts := by
  rw [mergedEdits, mergedEdits, sortedEdits_comm]

theorem Branches.ordered (both : Branches base one two lefts rights) :
    (mergedEdits lefts rights).Pairwise fun earlier later =>
      earlier.finish ≤ later.start ∧ earlier ≠ later :=
  (mergedEdits_ordered both.fromLeft.script both.fromRight.script both.apart).and
    (nodup_of_strict (mergedEdits_strict lefts rights))

theorem Branches.within (both : Branches base one two lefts rights) :
    ∀ edit ∈ mergedEdits lefts rights, edit.start ≤ edit.finish ∧ edit.finish ≤ base.length :=
  mergedEdits_within both.fromLeft.script both.fromRight.script

theorem Branches.endsMeet (both : Branches base one two lefts rights) {edits : List LineEdit}
    (some_ : edits.Sublist (mergedEdits lefts rights))
    (meet : edits.Pairwise fun earlier later => earlier.finish = base.length →
      later.replacement ≠ [] → ∀ line ∈ earlier.replacement, Ended line) :
    EndsMeet base edits where
  within edit member := both.within edit (some_.subset member)
  ordered := (both.ordered.sublist some_).imp And.left
  inside edit member := by
    rcases mem_mergedEdits.mp (some_.subset member) with own | own
    · exact both.fromLeft.ended_inside both.left.ended own
    · exact both.fromRight.ended_inside both.right.ended own
  own edit member := by
    rcases mem_mergedEdits.mp (some_.subset member) with own | own
    · exact both.fromLeft.allButLast both.left.ended own
    · exact both.fromRight.allButLast both.right.ended own
  behind edit member := by
    rcases mem_mergedEdits.mp (some_.subset member) with own | own
    · exact both.fromLeft.base_ended both.left.ended both.root.ended own
    · exact both.fromRight.base_ended both.right.ended both.root.ended own
  meet := meet

theorem Branches.mem_pasted (both : Branches base one two lefts rights) {line : String}
    (member : line ∈ pasted base (mergedEdits lefts rights) 0) :
    line ∈ base ∨ line ∈ one ∨ line ∈ two := by
  rcases KnotEditor.mem_pasted member with kept | ⟨edit, found, inside⟩
  · exact .inl kept
  · rcases mem_mergedEdits.mp found with own | own
    · exact .inr (.inl (both.fromLeft.replacement_subset own inside))
    · exact .inr (.inr (both.fromRight.replacement_subset own inside))

theorem BranchEdits.at_end {branch : List String} {edits : List LineEdit}
    (own : BranchEdits base branch edits) (first : edit ∈ edits) (second : other ∈ edits)
    (ends : edit.finish = base.length) (starts : other.start = base.length) : edit = other := by
  by_contra differs
  have mirrored : Std.Symm fun one two : LineEdit =>
      one.finish < two.start ∨ two.finish < one.start := ⟨fun _ _ => Or.symm⟩
  have each : edits.Pairwise fun one two : LineEdit =>
      one.finish < two.start ∨ two.finish < one.start := own.apart.imp Or.inl
  have apart := each.forall first second differs
  have bounds := own.within edit first
  have later := own.within other second
  omega

theorem conflict_of_same_place (differs : edit ≠ other) (first : edit.start = edit.finish)
    (second : other.start = other.finish) (same : edit.start = other.start) :
    lineEditsConflict edit other = true := by
  rw [lineEditsConflict, if_neg differs, beq_iff_eq.mpr first, beq_iff_eq.mpr second]
  exact beq_iff_eq.mpr same

theorem Branches.clean (both : Branches base one two lefts rights)
    (none_ : ∀ last first, ¬ (Overhangs base lefts rights last first ∨
      Overhangs base rights lefts last first)) :
    AllButLast Ended (pasted base (mergedEdits lefts rights) 0) := by
  refine pasted_allButLast both.root.ended (both.endsMeet (List.Sublist.refl _) ?_)
  refine both.ordered.imp_of_mem ?_
  intro earlier later first second ⟨follows, differs⟩ finish filled
  have bounds := both.within later second
  have starts : later.start = base.length := by omega
  have own : AllButLast Ended earlier.replacement :=
    (both.endsMeet (List.singleton_sublist.mpr first) (List.pairwise_singleton _ _)).own earlier
      List.mem_cons_self
  obtain ⟨head, tail, shape⟩ := List.exists_cons_of_ne_nil filled
  by_contra some_
  obtain ⟨last, final, unended⟩ := own.exists_last some_
  refine none_ last head ?_
  rcases mem_mergedEdits.mp first with left | right <;>
    rcases mem_mergedEdits.mp second with other | other
  · exact absurd (both.fromLeft.at_end left other finish starts) differs
  · exact .inl ⟨earlier, left, later, other, differs, finish, final, unended, starts, by simp [shape]⟩
  · exact .inr ⟨earlier, right, later, other, differs, finish, final, unended, starts, by simp [shape]⟩
  · exact absurd (both.fromRight.at_end right other finish starts) differs

theorem Branches.overhang_last (both : Branches base one two lefts rights) (first : edit ∈ lefts)
    (second : other ∈ rights) (differs : edit ≠ other) (finish : edit.finish = base.length)
    (starts : other.start = base.length) :
    edit.start < base.length ∧ ∃ ahead, mergedEdits lefts rights = ahead ++ [edit] ++ [other] := by
  have bounds := both.fromLeft.within edit first
  have later := both.fromRight.within other second
  have early : edit.start < base.length := by
    by_contra beyond
    have conflict := conflict_of_same_place differs (by omega) (by omega) (by omega)
    rw [both.apart edit first other second] at conflict
    cases conflict
  refine ⟨early, ?_⟩
  obtain ⟨ahead, behind, shape⟩ :=
    List.append_of_mem (@mem_mergedEdits lefts rights edit |>.mpr (.inl first))
  have order := both.ordered
  have inside := both.within
  have placed := (@mem_mergedEdits lefts rights other).mpr (.inr second)
  rw [shape] at order inside placed
  obtain ⟨_, follows, before⟩ := List.pairwise_append.mp order
  have only : ∀ item ∈ behind, item = other := by
    intro item member
    obtain ⟨after, apart⟩ := (List.pairwise_cons.mp follows).1 item member
    have whole := inside item (List.mem_append_right _ (List.mem_cons_of_mem _ member))
    have found : item ∈ mergedEdits lefts rights := by
      rw [shape]
      exact List.mem_append_right _ (List.mem_cons_of_mem _ member)
    rcases mem_mergedEdits.mp found with left | right
    · exact absurd (both.fromLeft.at_end first left finish (by omega)) apart
    · exact both.fromRight.at_end right second (by omega) starts
  have held : other ∈ behind := by
    rw [List.mem_append, List.mem_cons] at placed
    rcases placed with front | rfl | rest
    · have ends := (before other front edit List.mem_cons_self).1
      omega
    · exact absurd rfl differs
    · exact rest
  have single : behind = [other] := by
    cases behind with
    | nil => cases held
    | cons item rest =>
      obtain ⟨rfl, others⟩ := List.forall_mem_cons.mp only
      cases rest with
      | nil => rfl
      | cons next tail =>
        have twice := (List.pairwise_cons.mp follows.of_cons).1 next List.mem_cons_self
        exact absurd (others next List.mem_cons_self).symm twice.2
  exact ⟨ahead, by rw [shape, single, List.append_assoc]; rfl⟩

theorem Branches.overhang (both : Branches base one two lefts rights) {last first : String}
    (overhangs : Overhangs base lefts rights last first) :
    ∃ front back, pasted base (mergedEdits lefts rights) 0 = front ++ last :: first :: back ∧
      (∀ line ∈ front, Ended line) ∧ AllButLast Ended (first :: back) := by
  obtain ⟨edit, inLefts, other, inRights, differs, finish, final, _, starts, head⟩ := overhangs
  obtain ⟨early, ahead, shape⟩ := both.overhang_last inLefts inRights differs finish starts
  have bounds := both.fromRight.within other inRights
  have order := both.ordered
  have inside := both.within
  rw [shape] at order inside
  have most : (ahead ++ [edit]).Sublist (mergedEdits lefts rights) := by
    rw [shape]
    exact List.sublist_append_left _ _
  -- No edit but the last starts at the end of the base, so no two others meet there.
  have starting : ∀ item ∈ ahead ++ [edit], item.start < base.length := by
    intro item member
    rcases List.mem_append.mp member with front | same
    · have follows := (List.pairwise_append.mp (List.pairwise_append.mp order).1).2.2 item front
        edit List.mem_cons_self
      have whole := inside item (List.mem_append_left _ member)
      omega
    · rw [List.mem_singleton.mp same]
      exact early
  have clean : AllButLast Ended (pasted base (ahead ++ [edit]) 0) := by
    refine pasted_allButLast both.root.ended (both.endsMeet most ?_)
    refine (List.pairwise_append.mp order).1.imp_of_mem ?_
    intro earlier later _ second ⟨follows, _⟩ ends
    have begins := starting later second
    omega
  obtain ⟨front, from_, _, output⟩ := @pasted_split base edit ahead [] 0
  obtain ⟨rest, replaced⟩ := List.getLast?_eq_some_iff.mp final
  obtain ⟨back, added⟩ := List.head?_eq_some_iff.mp head
  have own := both.fromRight.allButLast both.right.ended inRights
  rw [pasted, finish, List.drop_length, List.append_nil, replaced, ← List.append_assoc,
    ← List.append_assoc] at output
  rw [output] at clean
  refine ⟨front ++ Splices.stretch base from_ edit.start ++ rest, back, ?_,
    clean.all_front (List.cons_ne_nil last []), added ▸ own⟩
  rw [shape, pasted_concat_end starts (by omega), output, added]
  simp only [List.append_assoc, List.cons_append, List.nil_append]

end merge

section outputs

variable {host : MergeHost} {base left right : String}

theorem Lines.fused {front back : List String} {last first : String}
    (each : ∀ line ∈ front ++ last :: first :: back, IsLine '\n' line.toList)
    (open_ : ¬ Ended last) (ahead : ∀ line ∈ front, Ended line)
    (behind : AllButLast Ended (first :: back)) : Lines (front ++ (last ++ first) :: back) := by
  simp only [List.forall_mem_append, List.forall_mem_cons] at each
  obtain ⟨before, one, two, after⟩ := each
  constructor
  · simp only [List.forall_mem_append, List.forall_mem_cons, String.toList_append]
    exact ⟨before, isLine_append one two open_, after⟩
  · refine (allButLast_append (List.cons_ne_nil _ back)).mpr ⟨ahead, ?_⟩
    by_cases empty : back = []
    · rw [empty]
      exact List.forall_mem_nil _
    · rw [allButLast_cons empty] at behind ⊢
      refine ⟨?_, behind.2⟩
      rw [Ended, String.toList_append, terminated_append two.nonempty]
      exact behind.1

theorem branches_of_merge (diff : ∀ base branch, DiffTiles base branch (host.diffSlices base branch))
    (apart : ¬ ((lineEdits host (splitLines base.toList []) (splitLines left.toList [])).any
      fun left => (lineEdits host (splitLines base.toList []) (splitLines right.toList [])).any
        fun right => lineEditsConflict left right) = true) :
    Branches (splitLines base.toList []) (splitLines left.toList []) (splitLines right.toList [])
      (lineEdits host (splitLines base.toList []) (splitLines left.toList []))
      (lineEdits host (splitLines base.toList []) (splitLines right.toList [])) where
  root := lines_splitLines base
  left := lines_splitLines left
  right := lines_splitLines right
  fromLeft := branchEdits_of_tiles (diff _ _)
  fromRight := branchEdits_of_tiles (diff _ _)
  apart one inLeft two inRight := by
    rw [← Bool.not_eq_true]
    intro conflict
    exact apart (List.any_eq_true.mpr ⟨one, inLeft, List.any_eq_true.mpr ⟨two, inRight, conflict⟩⟩)

theorem Lines.lineContents_join {lines : List String} (whole : Lines lines) :
    lineContents (String.join lines) = lines.map lineContent := by
  rw [lineContents, whole.splitLines_join]

variable {lefts rights : List LineEdit}

theorem Branches.content_found (both : Branches (splitLines base.toList [])
      (splitLines left.toList []) (splitLines right.toList []) lefts rights) {line : String}
    (member : line ∈ pasted (splitLines base.toList []) (mergedEdits lefts rights) 0) :
    lineContent line ∈ lineContents base ∨ lineContent line ∈ lineContents left ∨
      lineContent line ∈ lineContents right :=
  (both.mem_pasted member).imp (List.mem_map_of_mem) (Or.imp List.mem_map_of_mem List.mem_map_of_mem)

theorem Branches.isLine (both : Branches (splitLines base.toList [])
      (splitLines left.toList []) (splitLines right.toList []) lefts rights) :
    ∀ line ∈ pasted (splitLines base.toList []) (mergedEdits lefts rights) 0,
      IsLine '\n' line.toList := by
  intro line member
  rcases both.mem_pasted member with own | own | own
  · exact both.root.each line own
  · exact both.left.each line own
  · exact both.right.each line own

theorem Branches.invents_of_overhang (both : Branches (splitLines base.toList [])
      (splitLines left.toList []) (splitLines right.toList []) lefts rights)
    {last first : String} (overhangs : Overhangs (splitLines base.toList []) lefts rights last first) :
    InventsNoLine base left right (String.join
        (pasted (splitLines base.toList []) (mergedEdits lefts rights) 0)) ↔
      lineContent (last ++ first) ∈ lineContents base ∨
        lineContent (last ++ first) ∈ lineContents left ∨
        lineContent (last ++ first) ∈ lineContents right := by
  obtain ⟨front, back, output, ahead, behind⟩ := both.overhang overhangs
  obtain ⟨_, _, _, _, _, _, _, open_, _⟩ := overhangs
  have each := both.isLine
  have found := @Branches.content_found _ _ _ _ _ both
  rw [output] at each found ⊢
  have whole := Lines.fused each open_ ahead behind
  have same : String.join (front ++ last :: first :: back) =
      String.join (front ++ (last ++ first) :: back) := by
    apply String.toList_injective
    simp [String.toList_join]
  rw [same, InventsNoLine, whole.lineContents_join]
  simp only [List.map_append, List.map_cons, List.forall_mem_append, List.forall_mem_cons]
  refine ⟨fun all => all.2.1, fun own => ⟨?_, own, ?_⟩⟩
  · intro content member
    obtain ⟨line, inside, rfl⟩ := List.mem_map.mp member
    exact found (List.mem_append_left _ inside)
  · intro content member
    obtain ⟨line, inside, rfl⟩ := List.mem_map.mp member
    exact found (List.mem_append_right _ (by simp [inside]))

theorem Branches.invents_of_clean (both : Branches (splitLines base.toList [])
      (splitLines left.toList []) (splitLines right.toList []) lefts rights)
    (clean : AllButLast Ended
      (pasted (splitLines base.toList []) (mergedEdits lefts rights) 0)) :
    InventsNoLine base left right (String.join
        (pasted (splitLines base.toList []) (mergedEdits lefts rights) 0)) := by
  rw [InventsNoLine, Lines.lineContents_join ⟨both.isLine, clean⟩]
  intro content member
  obtain ⟨line, inside, rfl⟩ := List.mem_map.mp member
  exact both.content_found inside

theorem inventsNoLine_swap {out : String} :
    InventsNoLine base left right out ↔ InventsNoLine base right left out :=
  forall₂_congr fun _ _ => or_congr_right or_comm

theorem Branches.invents_of_either (both : Branches (splitLines base.toList [])
      (splitLines left.toList []) (splitLines right.toList []) lefts rights)
    {last first : String} (overhangs : Overhangs (splitLines base.toList []) lefts rights last first ∨
      Overhangs (splitLines base.toList []) rights lefts last first) :
    InventsNoLine base left right (String.join
        (pasted (splitLines base.toList []) (mergedEdits lefts rights) 0)) ↔
      lineContent (last ++ first) ∈ lineContents base ∨
        lineContent (last ++ first) ∈ lineContents left ∨
        lineContent (last ++ first) ∈ lineContents right := by
  rcases overhangs with fromLeft | fromRight
  · exact both.invents_of_overhang fromLeft
  · rw [mergedEdits_comm, inventsNoLine_swap, or_comm (a := _ ∈ lineContents left)]
    exact both.swap.invents_of_overhang fromRight

theorem Branches.invents_iff (both : Branches (splitLines base.toList [])
      (splitLines left.toList []) (splitLines right.toList []) lefts rights) :
    InventsNoLine base left right (String.join
        (pasted (splitLines base.toList []) (mergedEdits lefts rights) 0)) ↔
      ¬ ∃ last first, (Overhangs (splitLines base.toList []) lefts rights last first ∨
          Overhangs (splitLines base.toList []) rights lefts last first) ∧
        lineContent (last ++ first) ∉ lineContents base ∧
        lineContent (last ++ first) ∉ lineContents left ∧
        lineContent (last ++ first) ∉ lineContents right := by
  constructor
  · rintro none_ ⟨last, first, overhangs, lacks⟩
    have found := (both.invents_of_either overhangs).mp none_
    simp only [lacks, or_self] at found
  · intro fuses
    by_cases some_ : ∃ last first, Overhangs (splitLines base.toList []) lefts rights last first ∨
        Overhangs (splitLines base.toList []) rights lefts last first
    · obtain ⟨last, first, overhangs⟩ := some_
      rw [both.invents_of_either overhangs]
      by_contra lacks
      simp only [not_or] at lacks
      exact fuses ⟨last, first, overhangs, lacks⟩
    · refine both.invents_of_clean (both.clean fun last first overhangs => ?_)
      exact some_ ⟨last, first, overhangs⟩

/-- A merge that ends well has a line of its own only where the end of one branch, left without
its newline, runs into a line the other adds there. -/
theorem merge_invents_no_line_iff (host : MergeHost)
    (diff : ∀ base branch, DiffTiles base branch (host.diffSlices base branch))
    (base left right out : String) (merged : mergeTextLines host base left right = some out) :
    InventsNoLine base left right out ↔ ¬ Fuses host base left right := by
  rw [mergeTextLines] at merged
  split at merged
  next same =>
    cases merged
    exact iff_of_true (fun content member => .inr (.inl member)) fun fuses => fuses.1 same
  next differs =>
    split at merged
    next same =>
      cases merged
      exact iff_of_true (fun content member => .inr (.inr member)) fun fuses => fuses.2.1 same
    next leftChanged =>
      split at merged
      next same =>
        cases merged
        exact iff_of_true (fun content member => .inr (.inl member)) fun fuses => fuses.2.2.1 same
      next rightChanged =>
        simp only at merged
        split at merged
        · cases merged
        next apart =>
          obtain ⟨lines, applied, rfl⟩ := Option.map_eq_some_iff.mp merged
          have fuses : Fuses host base left right ↔ _ :=
            (and_iff_right differs).trans ((and_iff_right leftChanged).trans
              (and_iff_right rightChanged))
          rw [applyEdits_eq_pasted applied, fuses]
          exact (branches_of_merge diff apart).invents_iff

end outputs

section trimming

def commonFront : List String → List String → Nat
  | first :: rest, other :: others => if first = other then commonFront rest others + 1 else 0
  | _, _ => 0

def trimmedDiff (base branch : List String) : List DiffOp :=
  let front := commonFront base branch
  (if front = 0 then [] else [⟨⟨0, front⟩, ⟨0, front⟩⟩]) ++
    if front = base.length ∧ front = branch.length then []
    else [⟨⟨front, base.length⟩, ⟨front, branch.length⟩⟩]

def MergeHost.trimming : MergeHost where
  diffSlices := trimmedDiff
  parse _ := []
  encodeCbor _ _ _ := .error ""
  blake3 _ := .filled 0

theorem commonFront_spec (base branch : List String) :
    commonFront base branch ≤ base.length ∧ commonFront base branch ≤ branch.length ∧
      base.take (commonFront base branch) = branch.take (commonFront base branch) := by
  induction base, branch using commonFront.induct with
  | case1 first rest others ih =>
    rw [commonFront, if_pos rfl]
    simp only [List.length_cons, List.take_succ_cons, ih.2.2, and_true]
    omega
  | case2 first rest other others differs =>
    rw [commonFront, if_neg differs]
    simp
  | case3 base branch short =>
    rw [commonFront]
    · simp
    · exact short

theorem Tiling.ranges {base branch : List String} {old oldEnd new newEnd : Nat}
    {rest : List DiffOp} (older : old ≤ oldEnd) (newer : new ≤ newEnd)
    (tiles : Tiling base branch oldEnd newEnd rest) :
    Tiling base branch old new (⟨⟨old, oldEnd⟩, ⟨new, newEnd⟩⟩ :: rest) :=
  .step ⟨⟨old, oldEnd⟩, ⟨new, newEnd⟩⟩ rest older newer tiles

theorem trimmedDiff_tiles (base branch : List String) :
    DiffTiles base branch (trimmedDiff base branch) := by
  obtain ⟨short, shorter, same⟩ := commonFront_spec base branch
  have tail : Tiling base branch (commonFront base branch) (commonFront base branch)
      (if commonFront base branch = base.length ∧ commonFront base branch = branch.length then []
        else [⟨⟨commonFront base branch, base.length⟩,
          ⟨commonFront base branch, branch.length⟩⟩]) := by
    split
    next ends =>
      have whole := @Tiling.done base branch
      rwa [← ends.1, ← ends.2] at whole
    next => exact .ranges short shorter .done
  have kept : changes base branch
      ⟨⟨0, commonFront base branch⟩, ⟨0, commonFront base branch⟩⟩ = false := by
    simp [changes, sliceLines, same]
  constructor
  · rw [trimmedDiff]
    split
    next none_ =>
      rw [List.nil_append]
      exact none_ ▸ tail
    next => exact .ranges (Nat.zero_le _) (Nat.zero_le _) tail
  · rw [trimmedDiff, List.filter_append]
    refine List.pairwise_append.mpr ⟨?_, ?_, ?_⟩
    · split
      · exact List.Pairwise.nil
      · rw [List.filter_cons, kept, if_neg Bool.false_ne_true]
        exact List.Pairwise.nil
    · split
      · exact List.Pairwise.nil
      · exact (List.pairwise_singleton _ _).filter _
    · intro earlier first
      split at first
      · cases first
      · rw [List.filter_cons, kept, if_neg Bool.false_ne_true] at first
        cases first

end trimming

theorem merge_invents_no_line_iff_apart :
    InventsNoLine "a\n" "x\n" "a\nb\n" "x\nb\n" ↔
      ¬ Fuses .trimming "a\n" "x\n" "a\nb\n" :=
  merge_invents_no_line_iff .trimming trimmedDiff_tiles _ _ _ _ (by decide)

/-- One branch drops the newline of the last line, the other adds a line behind it. -/
theorem unended_branch_fuses_with_an_added_line :
    ¬ ∀ host : MergeHost,
      (∀ base branch, DiffTiles base branch (host.diffSlices base branch)) →
        ∀ base left right out, mergeTextLines host base left right = some out →
          InventsNoLine base left right out := by
  intro all
  have found := all .trimming trimmedDiff_tiles "a\n" "x" "a\nb\n" "xb\n" (by decide)
    "xb" (by decide)
  revert found
  decide

end KnotEditor
