import Mathlib.Data.List.Basic

/-! Queued edits of a keyed store: what a key will hold once the queue has been worked off. -/

namespace WriteBehind

variable {κ β : Type}

inductive Edit (κ β : Type)
  | put (key : κ) (value : β)
  | drop (key : κ)

def Edit.key : Edit κ β → κ
  | put key _ => key
  | drop key => key

def Edit.outcome : Edit κ β → Option β
  | put _ value => some value
  | drop _ => none

variable [DecidableEq κ]

def after (key : κ) (held : Option β) (edit : Edit κ β) : Option β :=
  if edit.key = key then edit.outcome else held

def afterAll (key : κ) (held : Option β) (queue : List (Edit κ β)) : Option β :=
  queue.foldl (after key) held

variable {key : κ} {held other : Option β} {queue : List (Edit κ β)}

theorem afterAll_append (more : List (Edit κ β)) :
    afterAll key held (queue ++ more) = afterAll key (afterAll key held queue) more :=
  List.foldl_append

theorem after_other (edit : Edit κ β) (differs : edit.key ≠ key) : after key held edit = held := by
  rw [after, if_neg differs]

theorem afterAll_untouched (untouched : ∀ edit ∈ queue, edit.key ≠ key) :
    afterAll key held queue = held := by
  induction queue generalizing held with
  | nil => rfl
  | cons edit rest ih =>
    rw [afterAll, List.foldl_cons, after_other edit (untouched edit (by simp))]
    exact ih (fun later member => untouched later (List.mem_cons_of_mem _ member))

theorem afterAll_eq_of_touched (touched : ∃ edit ∈ queue, edit.key = key) :
    afterAll key held queue = afterAll key other queue := by
  induction queue generalizing held other with
  | nil =>
    rcases touched with ⟨_, member, _⟩
    cases member
  | cons edit rest ih =>
    simp only [afterAll, List.foldl_cons]
    by_cases same : edit.key = key
    · rw [after, after, if_pos same, if_pos same]
    · rw [after_other edit same, after_other edit same]
      apply ih
      rcases touched with ⟨found, member, named⟩
      rcases List.mem_cons.mp member with first | later
      · exact absurd (first ▸ named) same
      · exact ⟨found, later, named⟩

theorem afterAll_some_of_none {value : β} (left : afterAll key none queue = some value) :
    afterAll key held queue = some value := by
  by_cases touched : ∃ edit ∈ queue, edit.key = key
  · rw [← left]
    exact afterAll_eq_of_touched touched
  · rw [afterAll_untouched (by simpa using touched)] at left
    cases left

theorem afterAll_eq_some_iff {value : β} :
    afterAll key held queue = some value ↔
      (held = some value ∧ ∀ edit ∈ queue, edit.key ≠ key) ∨
        ∃ front back, queue = front ++ .put key value :: back ∧ ∀ edit ∈ back, edit.key ≠ key := by
  induction queue generalizing held with
  | nil => simp [afterAll]
  | cons edit rest ih =>
    change afterAll key (after key held edit) rest = some value ↔ _
    rw [ih]
    constructor
    · rintro (⟨left, untouched⟩ | ⟨front, back, split, untouched⟩)
      · by_cases same : edit.key = key
        · rw [after, if_pos same] at left
          cases edit with
          | put named written =>
            cases left
            cases same
            exact Or.inr ⟨[], rest, rfl, untouched⟩
          | drop named => cases left
        · rw [after_other edit same] at left
          exact Or.inl ⟨left, by simpa [same] using untouched⟩
      · exact Or.inr ⟨edit :: front, back, congrArg (edit :: ·) split, untouched⟩
    · rintro (⟨found, untouched⟩ | ⟨front, back, split, untouched⟩)
      · refine Or.inl ⟨(after_other edit (untouched edit (by simp))).trans found, ?_⟩
        exact fun later member => untouched later (List.mem_cons_of_mem _ member)
      · cases front with
        | nil =>
          cases split
          exact Or.inl ⟨if_pos rfl, untouched⟩
        | cons first front =>
          cases split
          exact Or.inr ⟨front, back, rfl, untouched⟩

end WriteBehind
