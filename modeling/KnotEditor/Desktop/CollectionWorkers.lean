import KnotEditor.Desktop.Collection

/-! A worker keeps to the request it was started for: it retains the items it was given or those of
the legacy file, organizes with the change it was given, and sends no row that its destination has
not given a receipt for. -/

namespace KnotEditor.Desktop

variable {host : CollectionHost}

namespace CollectionWorker

def Suits (worker : CollectionWorker host) : WorkerPhase host → Prop
  | .opens => worker.legacy = true
  | .retains item rest => worker.legacy = true ∨ item :: rest ⊆ worker.items
  | .organizes change => worker.change = some change
  | .sent result | .received result =>
    ∀ rows, result = .ok rows → ∀ row ∈ rows, row.Receipted worker.target
  | .lists | .gone => True

def Coherent (worker : CollectionWorker host) : Prop := worker.Suits worker.phase

inductive Follows (worker : CollectionWorker host) : WorkerPhase host → Prop
  | opened {items} (opening : worker.phase = .opens) : Follows worker (next worker.change items)
  | retained {item rest} (retaining : worker.phase = .retains item rest) :
      Follows worker (next worker.change rest)
  | organized : Follows worker .lists
  | failed {error} : Follows worker (.sent (.error error))
  | listed {rows} (receipted : ∀ row ∈ rows, row.Receipted worker.target) :
      Follows worker (.sent (.ok rows))
  | gone : Follows worker .gone

variable {worker : CollectionWorker host}

theorem opened_follows (opening : worker.phase = .opens) (isFile : Bool)
    (result : Except String (List host.Item)) :
    ∃ phase, worker.opened isFile result = { worker with phase := phase } ∧
      worker.Follows phase := by
  unfold opened
  split
  · exact ⟨_, rfl, Follows.failed⟩
  · split
    · cases result with
      | error error => exact ⟨_, rfl, Follows.failed⟩
      | ok items => exact ⟨_, rfl, Follows.opened opening⟩
    · exact ⟨_, rfl, Follows.failed⟩

theorem retained_follows {item : host.Item} {rest : List host.Item}
    (retaining : worker.phase = .retains item rest) (result : Except String CompositionReceipt) :
    ∃ phase, worker.retained item rest result = { worker with phase := phase } ∧
      worker.Follows phase := by
  cases result with
  | error error => exact ⟨_, rfl, Follows.failed⟩
  | ok receipt =>
    simp only [retained]
    split
    · exact ⟨_, rfl, Follows.failed⟩
    · exact ⟨_, rfl, Follows.retained retaining⟩

theorem organized_follows (change : OrganizeComposition)
    (result : Except String CompositionReceipt) :
    ∃ phase, worker.organized change result = { worker with phase := phase } ∧
      worker.Follows phase := by
  cases result with
  | error error => exact ⟨_, rfl, Follows.failed⟩
  | ok receipt =>
    simp only [organized]
    split
    · exact ⟨_, rfl, Follows.failed⟩
    · exact ⟨_, rfl, Follows.organized⟩

theorem listed_follows (result : Except String (List (RetainedCompositionItem host))) :
    ∃ phase, worker.listed result = { worker with phase := phase } ∧ worker.Follows phase := by
  cases result with
  | error error => exact ⟨_, rfl, Follows.failed⟩
  | ok rows =>
    simp only [listed]
    split
    · exact ⟨_, rfl, Follows.failed⟩
    · rename_i clean
      refine ⟨_, rfl, Follows.listed ?_⟩
      simpa using clean

theorem answer_follows (worker : CollectionWorker host) (answer : PortAnswer host) :
    worker.answer answer = worker ∨
      worker.phase.calls = true ∧
        ∃ phase, worker.answer answer = { worker with phase := phase } ∧ worker.Follows phase := by
  cases answer with
  | opened isFile result =>
    cases phase : worker.phase with
    | opens =>
      simp only [CollectionWorker.answer, phase]
      exact Or.inr ⟨rfl, opened_follows phase isFile result⟩
    | _ =>
      simp only [CollectionWorker.answer, phase]
      exact Or.inl trivial
  | receipt result =>
    cases phase : worker.phase with
    | retains item rest =>
      simp only [CollectionWorker.answer, phase]
      exact Or.inr ⟨rfl, retained_follows phase result⟩
    | organizes change =>
      simp only [CollectionWorker.answer, phase]
      exact Or.inr ⟨rfl, organized_follows change result⟩
    | _ =>
      simp only [CollectionWorker.answer, phase]
      exact Or.inl trivial
  | listed result =>
    cases phase : worker.phase with
    | lists =>
      simp only [CollectionWorker.answer, phase]
      exact Or.inr ⟨rfl, listed_follows result⟩
    | _ =>
      simp only [CollectionWorker.answer, phase]
      exact Or.inl trivial
  | panicked =>
    cases calling : worker.phase.calls with
    | true =>
      simp only [CollectionWorker.answer, calling, if_true]
      exact Or.inr ⟨trivial, _, rfl, Follows.failed⟩
    | false =>
      simp only [CollectionWorker.answer, calling, Bool.false_eq_true, if_false]
      exact Or.inl trivial
  | lost =>
    cases calling : worker.phase.calls with
    | true =>
      simp only [CollectionWorker.answer, calling, if_true]
      exact Or.inr ⟨trivial, _, rfl, Follows.gone⟩
    | false =>
      simp only [CollectionWorker.answer, calling, Bool.false_eq_true, if_false]
      exact Or.inl trivial

theorem next_suits {items : List host.Item} (own : worker.legacy = true ∨ items ⊆ worker.items) :
    worker.Suits (next worker.change items) := by
  cases items with
  | cons item rest => exact own
  | nil =>
    cases given : worker.change with
    | none => trivial
    | some change => exact given

theorem Coherent.suits (coherent : worker.Coherent) {phase : WorkerPhase host}
    (follows : worker.Follows phase) : worker.Suits phase := by
  unfold Coherent at coherent
  cases follows with
  | opened opening =>
    rw [opening] at coherent
    exact next_suits (Or.inl coherent)
  | retained retaining =>
    rw [retaining] at coherent
    refine next_suits ?_
    rcases coherent with legacy | own
    · exact Or.inl legacy
    · exact Or.inr (List.subset_of_cons_subset own)
  | organized => trivial
  | failed =>
    intro rows same
    cases same
  | listed receipted =>
    intro rows same
    cases same
    exact receipted
  | gone => trivial

theorem Coherent.received (coherent : worker.Coherent)
    {result : Except String (List (RetainedCompositionItem host))}
    (sent : worker.phase = .sent result) :
    ({ worker with phase := .received result } : CollectionWorker host).Coherent := by
  unfold Coherent at coherent
  rw [sent] at coherent
  exact coherent

theorem inFlight_of_calls (calls : worker.phase.calls = true) : worker.inFlight = true := by
  cases phase : worker.phase <;> simp [phase, WorkerPhase.calls, inFlight] at calls ⊢

theorem ne_received_of_inFlight (flies : worker.inFlight = true)
    (result : Except String (List (RetainedCompositionItem host))) :
    worker.phase ≠ .received result := by
  intro heard
  simp [inFlight, heard] at flies

theorem inFlight_of_sent {result : Except String (List (RetainedCompositionItem host))}
    (sent : worker.phase = .sent result) : worker.inFlight = true := by
  simp [inFlight, sent]

theorem not_inFlight_of_gone (gone : worker.phase = .gone) : worker.inFlight = false := by
  simp [inFlight, gone]

end CollectionWorker

end KnotEditor.Desktop
