import Mathlib.Data.List.Basic
import Mathlib.Data.List.Induction

/-! Runs of a state machine that a list of actions drives: what a step keeps, a run keeps. -/

namespace Run

variable {σ α : Type}

/-- `holds` is true of each action of the run at the state the run has reached before it. -/
def Along (step : σ → α → σ) (holds : σ → α → Prop) : σ → List α → Prop
  | _, [] => True
  | state, action :: rest => holds state action ∧ Along step holds (step state action) rest

variable {step : σ → α → σ}

theorem along_append {holds : σ → α → Prop} (state : σ) (front back : List α) :
    Along step holds state (front ++ back) ↔
      Along step holds state front ∧ Along step holds (front.foldl step state) back := by
  induction front generalizing state with
  | nil => exact (and_iff_right trivial).symm
  | cons action front ih =>
    simp only [List.cons_append, Along, List.foldl_cons, ih, and_assoc]

theorem invariant_run {allowed : σ → α → Prop} {invariant : σ → Prop}
    (keeps : ∀ state action, invariant state → allowed state action →
      invariant (step state action)) :
    ∀ (actions : List α) (state : σ), invariant state → Along step allowed state actions →
      invariant (actions.foldl step state) := by
  intro actions
  induction actions with
  | nil =>
    intro state holds _
    exact holds
  | cons action rest ih =>
    intro state holds along
    exact ih (step state action) (keeps state action holds along.1) along.2

theorem along_of_invariant {allowed holds : σ → α → Prop} {invariant : σ → Prop}
    (keeps : ∀ state action, invariant state → allowed state action →
      invariant (step state action))
    (each : ∀ state action, invariant state → allowed state action → holds state action) :
    ∀ (actions : List α) (state : σ), invariant state → Along step allowed state actions →
      Along step holds state actions := by
  intro actions
  induction actions with
  | nil =>
    intro state _ _
    trivial
  | cons action rest ih =>
    intro state start along
    exact ⟨each state action start along.1,
      ih (step state action) (keeps state action start along.1) along.2⟩

theorem along_iff {left right : σ → α → Prop} {invariant : σ → Prop}
    (keeps : ∀ state action, invariant state → right state action →
      invariant (step state action))
    (each : ∀ state action, invariant state → (left state action ↔ right state action)) :
    ∀ (actions : List α) (state : σ), invariant state →
      (Along step left state actions ↔ Along step right state actions) := by
  intro actions
  induction actions with
  | nil =>
    intro state _
    exact Iff.rfl
  | cons action rest ih =>
    intro state start
    simp only [Along, each state action start]
    refine and_congr_right ?_
    intro fits
    exact ih (step state action) (keeps state action start fits)

theorem along_always {holds : σ → α → Prop} (always : ∀ state action, holds state action)
    (actions : List α) (state : σ) : Along step holds state actions := by
  induction actions generalizing state with
  | nil => trivial
  | cons action rest ih => exact ⟨always state action, ih (step state action)⟩

end Run

/-! Logs of events that issue and end a permit: the one that stands is the one last issued, unless
something has ended it since. -/

namespace EventLog

variable {ε : Type}

/-- What an event does to a permit: it issues one, ends the one there is, or leaves it. -/
inductive Effect (π : Type)
  | issues (permit : π)
  | ends
  | keeps

variable {π : Type}

def Effect.apply : Effect π → Option π → Option π
  | issues permit, _ => some permit
  | ends, _ => none
  | keeps, held => held

def standing (effect : ε → Effect π) (log : List ε) : Option π :=
  log.foldl (fun held event => (effect event).apply held) none

def Stands (effect : ε → Effect π) (log : List ε) (event : ε) : Prop :=
  ∃ front back, log = front ++ event :: back ∧ ∀ later ∈ back, effect later = .keeps

variable {effect : ε → Effect π} {log : List ε}

theorem standing_append_singleton (event : ε) :
    standing effect (log ++ [event]) = (effect event).apply (standing effect log) := by
  simp [standing]

theorem standing_append_of_keeps {more : List ε} (quiet : ∀ event ∈ more, effect event = .keeps) :
    standing effect (log ++ more) = standing effect log := by
  induction more using List.reverseRecOn with
  | nil => rw [List.append_nil]
  | append_singleton more last ih =>
    rw [← List.append_assoc, standing_append_singleton, quiet last (by simp)]
    exact ih fun event member => quiet event (by simp [member])

theorem standing_eq_some_iff {permit : π} :
    standing effect log = some permit ↔
      ∃ event, effect event = .issues permit ∧ Stands effect log event := by
  induction log using List.reverseRecOn with
  | nil =>
    constructor
    · intro held
      cases held
    · rintro ⟨event, _, front, back, split, _⟩
      cases front <;> cases split
  | append_singleton log last ih =>
    rw [standing_append_singleton]
    constructor
    · intro held
      cases kind : effect last with
      | issues issued =>
        rw [kind] at held
        cases held
        exact ⟨last, kind, log, [], rfl, by simp⟩
      | ends =>
        rw [kind] at held
        cases held
      | keeps =>
        rw [kind] at held
        obtain ⟨event, issued, front, back, rfl, quiet⟩ := ih.mp held
        refine ⟨event, issued, front, back ++ [last], by simp, ?_⟩
        intro later member
        rcases List.mem_append.mp member with before | atEnd
        · exact quiet later before
        · rw [List.mem_singleton.mp atEnd]
          exact kind
    · rintro ⟨event, issued, front, back, split, quiet⟩
      rcases List.eq_nil_or_concat back with rfl | ⟨rest, final, rfl⟩
      · obtain ⟨rfl, same⟩ := List.append_inj' split rfl
        cases same
        rw [issued]
        rfl
      · rw [List.concat_eq_append, ← List.cons_append, ← List.append_assoc] at split
        obtain ⟨rfl, same⟩ := List.append_inj' split rfl
        cases same
        rw [quiet last (by simp)]
        refine ih.mpr ⟨event, issued, front, rest, rfl, ?_⟩
        intro later member
        exact quiet later (by simp [member])

end EventLog
