import Mathlib.Data.List.Induction

/-! Walks through a tree of named directories, a place being the names on the way to it from the
root: what leads from one place to another, and what a walk below some directory says elsewhere. -/

namespace RelativeWalk

variable {α : Type}

inductive Step (α : Type)
  | up
  | down (name : α)
  deriving DecidableEq

def step (place : List α) : Step α → Option (List α)
  | .up => if place.isEmpty then none else some place.dropLast
  | .down name => some (place ++ [name])

def walk (place : List α) (steps : List (Step α)) : Option (List α) := steps.foldlM step place

def staysInside : Nat → List (Step α) → Bool
  | _, [] => true
  | 0, .up :: _ => false
  | depth + 1, .up :: rest => staysInside depth rest
  | depth, .down _ :: rest => staysInside (depth + 1) rest

def shared [DecidableEq α] (here there : List α) : Nat :=
  ((here.zip there).takeWhile fun pair => decide (pair.1 = pair.2)).length

def route [DecidableEq α] (here there : List α) : List (Step α) :=
  List.replicate (here.length - shared here there) .up ++
    (there.drop (shared here there)).map .down

@[simp]
theorem walk_nil (place : List α) : walk place [] = some place := rfl

theorem walk_cons (place : List α) (first : Step α) (rest : List (Step α)) :
    walk place (first :: rest) = (step place first).bind fun next => walk next rest := by
  rw [walk, List.foldlM_cons]
  rfl

theorem walk_append (place : List α) (first rest : List (Step α)) :
    walk place (first ++ rest) = (walk place first).bind fun next => walk next rest := by
  rw [walk, List.foldlM_append]
  rfl

theorem step_up {place : List α} (below : place ≠ []) : step place .up = some place.dropLast := by
  cases place with
  | nil => exact absurd rfl below
  | cons name rest => rfl

theorem step_up_eq_some {place above : List α} (stepped : step place .up = some above) :
    place ≠ [] ∧ place.dropLast = above := by
  cases place with
  | nil => cases stepped
  | cons name rest =>
    cases stepped
    exact ⟨List.cons_ne_nil name rest, rfl⟩

theorem walk_up (base below : List α) :
    walk (base ++ below) (List.replicate below.length .up) = some base := by
  induction below using List.reverseRecOn with
  | nil => simp
  | append_singleton rest last ih =>
    rw [List.length_append, List.length_singleton, List.replicate_succ, walk_cons,
      ← List.append_assoc]
    simp [step, ih]

theorem walk_down (base below : List α) :
    walk base (below.map .down) = some (base ++ below) := by
  induction below generalizing base with
  | nil => simp
  | cons first rest ih =>
    rw [List.map_cons, walk_cons]
    simp [step, ih]

section Routes

variable [DecidableEq α]

theorem shared_cons (name : α) (here there : List α) :
    shared (name :: here) (name :: there) = shared here there + 1 := by
  simp [shared]

theorem shared_append (root here there : List α) :
    shared (root ++ here) (root ++ there) = root.length + shared here there := by
  induction root with
  | nil => simp
  | cons name rest ih =>
    rw [List.cons_append, List.cons_append, shared_cons, ih, List.length_cons]
    omega

theorem take_shared (here there : List α) :
    here.take (shared here there) = there.take (shared here there) := by
  induction here generalizing there with
  | nil => simp [shared]
  | cons name here ih =>
    cases there with
    | nil => simp [shared]
    | cons other there =>
      by_cases same : name = other
      · subst same
        rw [shared_cons, List.take_succ_cons, List.take_succ_cons, ih]
      · simp [shared, same]

theorem walk_route (here there : List α) : walk here (route here there) = some there := by
  have climbed := walk_up (here.take (shared here there)) (here.drop (shared here there))
  rw [List.take_append_drop, List.length_drop] at climbed
  rw [route, walk_append, climbed, Option.bind_some, walk_down, take_shared,
    List.take_append_drop]

theorem route_append (root here there : List α) :
    route (root ++ here) (root ++ there) = route here there := by
  have climbs : root.length + here.length - (root.length + shared here there) =
      here.length - shared here there := by omega
  have falls : (root ++ there).drop (root.length + shared here there) =
      there.drop (shared here there) := by
    rw [← List.drop_drop, List.drop_left]
  rw [route, shared_append, List.length_append, climbs, falls, route]

end Routes

theorem walk_below {place there : List α} {steps : List (Step α)} (root : List α)
    (arrives : walk place steps = some there) :
    walk (root ++ place) steps = some (root ++ there) := by
  induction steps generalizing place with
  | nil =>
    cases arrives
    rfl
  | cons first rest ih =>
    rw [walk_cons] at arrives ⊢
    rcases Option.bind_eq_some_iff.mp arrives with ⟨next, stepped, later⟩
    have lifted : step (root ++ place) first = some (root ++ next) := by
      cases first with
      | down name =>
        cases stepped
        simp [step]
      | up =>
        cases place with
        | nil => cases stepped
        | cons name others =>
          cases stepped
          simp [step]
    rw [lifted, Option.bind_some, ih later]

theorem isSome_walk (place : List α) (steps : List (Step α)) :
    (walk place steps).isSome = staysInside place.length steps := by
  induction steps generalizing place with
  | nil => rfl
  | cons first rest ih =>
    rw [walk_cons]
    cases first with
    | down name =>
      rw [staysInside, step, Option.bind_some, ih, List.length_append]
      rfl
    | up =>
      cases place with
      | nil => rfl
      | cons name others =>
        rw [List.length_cons, staysInside, step, List.isEmpty_cons]
        simp [ih]

theorem walk_of_below {place there : List α} {steps : List (Step α)} {root : List α}
    (inside : staysInside place.length steps = true)
    (arrives : walk (root ++ place) steps = some (root ++ there)) :
    walk place steps = some there := by
  rw [← isSome_walk, Option.isSome_iff_exists] at inside
  rcases inside with ⟨reached, below⟩
  have same := (walk_below root below).symm.trans arrives
  rw [Option.some_inj, List.append_cancel_left_eq] at same
  rw [below, same]

theorem mem_of_walk {place there : List α} {steps : List (Step α)} {name : α}
    (arrives : walk place steps = some there) (member : name ∈ there) :
    name ∈ place ∨ .down name ∈ steps := by
  induction steps generalizing place with
  | nil =>
    cases arrives
    exact Or.inl member
  | cons first rest ih =>
    rw [walk_cons] at arrives
    rcases Option.bind_eq_some_iff.mp arrives with ⟨next, stepped, later⟩
    rcases ih later with known | below
    · cases first with
      | down other =>
        cases stepped
        rcases List.mem_append.mp known with known | new
        · exact Or.inl known
        · cases List.mem_singleton.mp new
          exact Or.inr List.mem_cons_self
      | up =>
        cases place with
        | nil => cases stepped
        | cons name others =>
          cases stepped
          exact Or.inl (List.dropLast_subset _ known)
    · exact Or.inr (List.mem_cons_of_mem _ below)

end RelativeWalk
