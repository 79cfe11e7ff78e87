import Mathlib.Data.List.Basic

/-! The maximal runs of a list: the stretches whose items are all inside, each with everything that
comes before it. -/

namespace Runs

variable {α : Type} (inside : α → Bool)

/-- The runs of a list behind `before`, where `held` is the part of a run already seen. -/
def runs (before held : List α) : List α → List (List α × List α)
  | [] => if held.isEmpty then [] else [(before, held)]
  | item :: rest =>
    if inside item then runs before (held ++ [item]) rest
    else (if held.isEmpty then [] else [(before, held)]) ++
      runs (before ++ held ++ [item]) [] rest

structure IsRun (before run after : List α) : Prop where
  nonempty : run ≠ []
  within : ∀ item ∈ run, inside item = true
  opens : ∀ item, before.getLast? = some item → inside item = false
  closes : ∀ item, after.head? = some item → inside item = false

variable {inside}

@[simp]
theorem runs_nil (before : List α) : runs inside before [] [] = [] := rfl

theorem runs_cons_outside {item : α} (out : inside item = false) (before rest : List α) :
    runs inside before [] (item :: rest) = runs inside (before ++ [item]) [] rest := by
  simp [runs, out]

theorem runs_append_outside {item : α} (out : inside item = false) (before held front rest : List α) :
    runs inside before held (front ++ item :: rest) =
      runs inside before held front ++ runs inside (before ++ held ++ front ++ [item]) [] rest := by
  induction front generalizing before held with
  | nil => simp [runs, out]
  | cons first front ih =>
    rw [List.cons_append, runs, runs]
    split
    · rw [ih]
      simp
    · rw [ih, List.append_assoc]
      simp

theorem runs_outside_append {gap : List α} (out : ∀ item ∈ gap, inside item = false)
    (before rest : List α) :
    runs inside before [] (gap ++ rest) = runs inside (before ++ gap) [] rest := by
  induction gap generalizing before with
  | nil => simp
  | cons item gap ih =>
    rw [List.forall_mem_cons] at out
    rw [List.cons_append, runs_cons_outside out.1, ih out.2, List.append_assoc,
      List.singleton_append]

theorem runs_append_gap {gap : List α} (out : ∀ item ∈ gap, inside item = false)
    (before front : List α) :
    runs inside before [] (front ++ gap) = runs inside before [] front := by
  cases gap with
  | nil => rw [List.append_nil]
  | cons item gap =>
    rw [List.forall_mem_cons] at out
    have none_ := runs_outside_append out.2 (before ++ [] ++ front ++ [item]) []
    rw [List.append_nil gap, runs_nil] at none_
    rw [runs_append_outside out.1, none_, List.append_nil]

theorem runs_shift (front before held rest : List α) :
    runs inside (front ++ before) held rest =
      (runs inside before held rest).map fun run => (front ++ run.1, run.2) := by
  induction rest generalizing before held with
  | nil =>
    rw [runs, runs]
    split <;> rfl
  | cons item rest ih =>
    rw [runs, runs]
    split
    · exact ih _ _
    · rw [List.append_assoc front before held, List.append_assoc front (before ++ held), ih,
        List.map_append]
      congr 1
      split <;> rfl

theorem isRun_cons_outside_iff {held : List α} (within : ∀ item ∈ held, inside item = true)
    {item : α} (out : inside item = false) {front run rest after : List α} :
    (held ++ item :: rest = front ++ run ++ after ∧ IsRun inside front run after) ↔
      (held ≠ [] ∧ front = [] ∧ run = held ∧ after = item :: rest) ∨
        ∃ later, front = held ++ item :: later ∧ rest = later ++ run ++ after ∧
          IsRun inside later run after := by
  constructor
  · rintro ⟨whole, found⟩
    rw [List.append_assoc] at whole
    rcases List.append_eq_append_iff.mp whole with ⟨more, same, tail⟩ | ⟨more, same, tail⟩
    · cases more with
      | nil =>
        rw [List.append_nil] at same
        obtain ⟨first, others, rfl⟩ := List.exists_cons_of_ne_nil found.nonempty
        rw [List.nil_append, List.cons_append, List.cons.injEq] at tail
        have in_ := found.within first List.mem_cons_self
        rw [← tail.1, out] at in_
        cases in_
      | cons first later =>
        rw [List.cons_append, List.cons.injEq] at tail
        obtain ⟨rfl, rest_⟩ := tail
        refine .inr ⟨later, same, by rw [rest_, List.append_assoc], found.nonempty, found.within,
          ?_, found.closes⟩
        intro last ends
        refine found.opens last ?_
        rw [same, List.getLast?_append, List.getLast?_cons, ends]
        rfl
    · have began : front = [] := by
        rcases List.eq_nil_or_concat front with none_ | ⟨start, last, rfl⟩
        · exact none_
        · have in_ := within last (by simp [same])
          rw [found.opens last (by simp)] at in_
          cases in_
      subst began
      rw [List.nil_append] at same
      subst same
      rcases List.append_eq_append_iff.mp tail with ⟨extra, longer, end_⟩ | ⟨extra, longer, end_⟩
      · cases extra with
        | nil =>
          rw [List.append_nil] at longer
          exact .inl ⟨longer ▸ found.nonempty, rfl, longer.symm, end_⟩
        | cons first others =>
          have in_ := within first (by simp [longer])
          rw [found.closes first (by simp [end_])] at in_
          cases in_
      · cases extra with
        | nil =>
          rw [List.append_nil] at longer
          exact .inl ⟨longer ▸ found.nonempty, rfl, longer, by simpa using end_.symm⟩
        | cons first others =>
          rw [List.cons_append, List.cons.injEq] at end_
          have in_ := found.within first (by simp [longer])
          rw [← end_.1, out] at in_
          cases in_
  · rintro (⟨some_, rfl, rfl, rfl⟩ | ⟨later, rfl, rfl, found⟩)
    · refine ⟨by simp, some_, within, by simp, ?_⟩
      intro first head
      cases head
      exact out
    · refine ⟨by simp, found.nonempty, found.within, ?_, found.closes⟩
      intro last ends
      rw [List.getLast?_append, List.getLast?_cons] at ends
      cases behind : later.getLast? with
      | none =>
        rw [behind] at ends
        cases ends
        exact out
      | some other =>
        rw [behind] at ends
        cases ends
        exact found.opens _ behind

theorem mem_runs_held_iff {before held rest : List α} (within : ∀ item ∈ held, inside item = true)
    {place run : List α} :
    (place, run) ∈ runs inside before held rest ↔
      ∃ front after, place = before ++ front ∧ held ++ rest = front ++ run ++ after ∧
        IsRun inside front run after := by
  induction rest generalizing before held with
  | nil =>
    rw [runs]
    constructor
    · intro member
      split at member
      · cases member
      next some_ =>
        cases List.mem_singleton.mp member
        refine ⟨[], [], by simp, by simp, ?_, within, by simp, by simp⟩
        simpa using some_
    · rintro ⟨front, after, rfl, whole, found⟩
      have everywhere : ∀ item ∈ front ++ run ++ after, inside item = true := by
        rw [← whole, List.append_nil]
        exact within
      have began : front = [] := by
        rcases List.eq_nil_or_concat front with none_ | ⟨start, last, rfl⟩
        · exact none_
        · have in_ := everywhere last (by simp)
          rw [found.opens last (by simp)] at in_
          cases in_
      have ended : after = [] := by
        cases after with
        | nil => rfl
        | cons first others =>
          have in_ := everywhere first (by simp)
          rw [found.closes first rfl] at in_
          cases in_
      rw [began, ended, List.append_nil, List.append_nil, List.nil_append] at whole
      rw [whole, if_neg (by simpa using found.nonempty), began, List.append_nil]
      exact List.mem_singleton.mpr rfl
  | cons item rest ih =>
    rw [runs]
    split
    next in_ =>
      rw [ih (by simpa [or_imp, forall_and] using ⟨within, in_⟩), List.append_assoc,
        List.singleton_append]
    next out_ =>
      have out := eq_false_of_ne_true out_
      rw [List.mem_append, ih (List.forall_mem_nil _)]
      simp only [isRun_cons_outside_iff within out, List.nil_append]
      constructor
      · rintro (member | ⟨front, after, rfl, whole, found⟩)
        · split at member
          · cases member
          next some_ =>
            cases List.mem_singleton.mp member
            exact ⟨[], item :: rest, by simp, .inl ⟨by simpa using some_, rfl, rfl, rfl⟩⟩
        · exact ⟨held ++ item :: front, after, by simp, .inr ⟨front, rfl, whole, found⟩⟩
      · rintro ⟨front, after, rfl, ⟨some_, rfl, rfl, rfl⟩ | ⟨later, rfl, whole, found⟩⟩
        · left
          rw [if_neg (by simpa using some_), List.append_nil]
          exact List.mem_singleton.mpr rfl
        · exact .inr ⟨later, after, by simp, whole, found⟩

theorem mem_runs_iff {text place run : List α} :
    (place, run) ∈ runs inside [] [] text ↔
      ∃ after, text = place ++ run ++ after ∧ IsRun inside place run after := by
  rw [mem_runs_held_iff (List.forall_mem_nil _)]
  constructor
  · rintro ⟨front, after, rfl, whole, found⟩
    exact ⟨after, whole, found⟩
  · rintro ⟨after, whole, found⟩
    exact ⟨place, after, rfl, whole, found⟩

end Runs
