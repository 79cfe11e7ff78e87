import Mathlib.Data.List.Perm.Basic
import Mathlib.Data.List.Nodup

/-! Linear extensions of a precedence relation. Nothing is assumed of the relation here unless a
lemma names it: a replay only ever sees one extension, and these lemmas say what two share. -/

namespace LinearExtensions

variable {α : Type} {precedes : α → α → Prop} {order other front back : List α} {member : α}

structure LinearExtension (precedes : α → α → Prop) (order : List α) : Prop where
  nodup : order.Nodup
  forward : order.Pairwise fun earlier later => ¬ precedes later earlier
  irreflexive : ∀ event ∈ order, ¬ precedes event event

namespace LinearExtension

theorem sublist (extension : LinearExtension precedes order) (part : other.Sublist order) :
    LinearExtension precedes other where
  nodup := extension.nodup.sublist part
  forward := extension.forward.sublist part
  irreflexive := fun event found => extension.irreflexive event (part.subset found)

theorem mem_front (extension : LinearExtension precedes (front ++ member :: back)) {event : α}
    (found : event ∈ front ++ member :: back) (before : precedes event member) :
    event ∈ front := by
  rcases List.mem_append.mp found with inFront | inRest
  · exact inFront
  · rcases List.mem_cons.mp inRest with same | inBack
    · subst same
      exact absurd before (extension.irreflexive event found)
    · have later := (List.pairwise_append.mp extension.forward).2.1
      exact absurd before ((List.pairwise_cons.mp later).1 event inBack)

theorem mem_back (extension : LinearExtension precedes (front ++ member :: back)) {event : α}
    (found : event ∈ front ++ member :: back) (after : precedes member event) :
    event ∈ back := by
  rcases List.mem_append.mp found with inFront | inRest
  · have across := (List.pairwise_append.mp extension.forward).2.2
    exact absurd after (across event inFront member (by simp))
  · rcases List.mem_cons.mp inRest with same | inBack
    · subst same
      exact absurd after (extension.irreflexive event found)
    · exact inBack

theorem notMem_front (extension : LinearExtension precedes (front ++ member :: back)) :
    member ∉ front := by
  intro inFront
  have disjoint := (List.nodup_append.mp extension.nodup).2.2
  exact disjoint member inFront member (by simp) rfl

theorem notMem_back (extension : LinearExtension precedes (front ++ member :: back)) :
    member ∉ back :=
  (List.nodup_cons.mp (List.nodup_append.mp extension.nodup).2.1).1

theorem notMem_front_of_mem_back (extension : LinearExtension precedes (front ++ member :: back))
    {event : α} (behind : event ∈ back) : event ∉ front := by
  intro inFront
  have disjoint := (List.nodup_append.mp extension.nodup).2.2
  exact disjoint event inFront event (by simp [behind]) rfl

theorem filter_eq_of_total (left : LinearExtension precedes order)
    (right : LinearExtension precedes other) (same : order.Perm other) (mine : α → Bool)
    (total : ∀ first ∈ order, ∀ second ∈ order, mine first → mine second → first ≠ second →
      precedes first second ∨ precedes second first) :
    order.filter mine = other.filter mine := by
  refine List.Perm.eq_of_pairwise ?_ (left.forward.filter mine) (right.forward.filter mine)
    (same.filter mine)
  intro first second firstFound secondFound notAfter notBefore
  by_contra distinct
  rw [List.mem_filter] at firstFound secondFound
  rcases total first firstFound.1 second (same.mem_iff.mpr secondFound.1) firstFound.2
    secondFound.2 distinct with before | after
  · exact notBefore before
  · exact notAfter after

theorem perm (extension : LinearExtension precedes order) (same : order.Perm other)
    (forward : other.Pairwise fun earlier later => ¬ precedes later earlier) :
    LinearExtension precedes other where
  nodup := same.nodup extension.nodup
  forward := forward
  irreflexive := fun event found => extension.irreflexive event (same.mem_iff.mpr found)

theorem exists_kept (extension : LinearExtension precedes order)
    (transitive : ∀ first second third, precedes first second → precedes second third →
      precedes first third) {mark kept : α → Prop}
    (moves : ∀ event ∈ order, mark event →
      kept event ∨ ∃ later ∈ order, mark later ∧ precedes event later)
    {event : α} (found : event ∈ order) (marked : mark event) :
    ∃ last ∈ order, kept last ∧ (last = event ∨ precedes event last) := by
  obtain ⟨front, back, split⟩ := List.append_of_mem found
  induction length : back.length using Nat.strongRecOn generalizing event front back with
  | ind bound ih =>
    rcases moves event found marked with done | ⟨later, laterFound, laterMarked, before⟩
    · exact ⟨event, found, done, .inl rfl⟩
    · subst split
      have behind := extension.mem_back laterFound before
      obtain ⟨near, far, rfl⟩ := List.append_of_mem behind
      have shorter : far.length < bound := by
        rw [← length, List.length_append, List.length_cons]
        omega
      have split : front ++ event :: (near ++ later :: far) =
          (front ++ event :: near) ++ later :: far := by simp
      obtain ⟨last, lastFound, done, reached⟩ :=
        ih far.length shorter laterFound laterMarked (front ++ event :: near) far split rfl
      refine ⟨last, lastFound, done, .inr ?_⟩
      rcases reached with rfl | after
      · exact before
      · exact transitive event later last before after

theorem hoist_perm (early : α → Bool) :
    (front ++ member :: back).Perm
      (front.filter early ++ member :: (front.filter (fun event => !early event) ++ back)) := by
  have split := (List.filter_append_perm early front).symm.append_right (member :: back)
  refine split.trans ?_
  rw [List.append_assoc]
  exact List.perm_middle.append_left _

theorem hoist (extension : LinearExtension precedes (front ++ member :: back)) (early : α → Bool)
    (reads : ∀ event, early event = true ↔ precedes event member)
    (transitive : ∀ first second, precedes first second → precedes second member →
      precedes first member) :
    LinearExtension precedes
      (front.filter early ++ member :: (front.filter (fun event => !early event) ++ back)) := by
  refine extension.perm (hoist_perm early) ?_
  obtain ⟨inFront, inRest, across⟩ := List.pairwise_append.mp extension.forward
  obtain ⟨behindMember, inBack⟩ := List.pairwise_cons.mp inRest
  have lateBefore : ∀ event ∈ front.filter (fun event => !early event),
      ¬ precedes event member := by
    intro event late before
    have notEarly := (List.mem_filter.mp late).2
    rw [(reads event).mpr before] at notEarly
    cases notEarly
  refine List.pairwise_append.mpr ⟨inFront.filter _, List.pairwise_cons.mpr ⟨?_, ?_⟩, ?_⟩
  · intro event found
    rcases List.mem_append.mp found with late | behind
    · exact lateBefore event late
    · exact behindMember event behind
  · refine List.pairwise_append.mpr ⟨inFront.filter _, inBack, ?_⟩
    intro event late second behind
    exact across event (List.mem_filter.mp late).1 second (by simp [behind])
  · intro event isEarly second found
    obtain ⟨eventFound, marked⟩ := List.mem_filter.mp isEarly
    rcases List.mem_cons.mp found with same | inTail
    · subst same
      exact across event eventFound second (by simp)
    · rcases List.mem_append.mp inTail with late | behind
      · intro reversed
        exact lateBefore second late
          (transitive second event reversed ((reads event).mp marked))
      · exact across event eventFound second (by simp [behind])

theorem exists_before (extension : LinearExtension precedes order)
    (transitive : ∀ first second third, precedes first second → precedes second third →
      precedes first third) [DecidableRel precedes] {event : α} (eventFound : event ∈ order)
    (memberFound : member ∈ order) (distinct : event ≠ member) (apart : ¬ precedes member event) :
    ∃ front back, order.Perm (front ++ member :: back) ∧
      LinearExtension precedes (front ++ member :: back) ∧ event ∈ front := by
  obtain ⟨front, back, rfl⟩ := List.append_of_mem eventFound
  rw [List.mem_append, List.mem_cons] at memberFound
  rcases memberFound with early | same | late
  · let isEarly : α → Bool := fun earlier => decide (precedes earlier event)
    have moved := extension.hoist isEarly (by simp [isEarly])
      fun first second before after => transitive first second event before after
    have waits : member ∈ front.filter fun earlier => !isEarly earlier := by
      rw [List.mem_filter]
      exact ⟨early, by simp [isEarly, apart]⟩
    obtain ⟨waiting, others, split⟩ := List.append_of_mem waits
    have listed : front.filter isEarly ++ event ::
        (front.filter (fun earlier => !isEarly earlier) ++ back) =
        (front.filter isEarly ++ event :: waiting) ++ member :: (others ++ back) := by
      simp [split]
    refine ⟨front.filter isEarly ++ event :: waiting, others ++ back, ?_, ?_, by simp⟩
    · rw [← listed]
      exact hoist_perm isEarly
    · rw [← listed]
      exact moved
  · exact absurd same.symm distinct
  · obtain ⟨middle, rest, rfl⟩ := List.append_of_mem late
    have listed : front ++ event :: (middle ++ member :: rest) =
        (front ++ event :: middle) ++ member :: rest := by simp
    refine ⟨front ++ event :: middle, rest, ?_, ?_, by simp⟩
    · rw [listed]
    · rw [← listed]
      exact extension

end LinearExtension

end LinearExtensions
