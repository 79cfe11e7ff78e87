import Mathlib.Data.List.Basic
import Mathlib.Data.List.TakeWhile

/-! Splitting a list behind every terminator. The last line may lack its terminator and no other
may, which is what lets the lines be split out of their concatenation again. -/

namespace TerminatedLines

variable {α β : Type}

def AllButLast (holds : β → Prop) (items : List β) : Prop := ∀ item ∈ items.dropLast, holds item

section

variable {holds : β → Prop} {ahead behind items : List β} {item : β}

theorem allButLast_cons (ne : items ≠ []) :
    AllButLast holds (item :: items) ↔ holds item ∧ AllButLast holds items := by
  rw [AllButLast, List.dropLast_cons_of_ne_nil ne, List.forall_mem_cons]
  rfl

theorem allButLast_append (ne : behind ≠ []) :
    AllButLast holds (ahead ++ behind) ↔ (∀ item ∈ ahead, holds item) ∧ AllButLast holds behind := by
  rw [AllButLast, List.dropLast_append_of_ne_nil ne, List.forall_mem_append]
  rfl

theorem AllButLast.front (clean : AllButLast holds (ahead ++ behind)) : AllButLast holds ahead := by
  by_cases empty : behind = []
  · rwa [empty, List.append_nil] at clean
  · intro item member
    exact ((allButLast_append empty).mp clean).1 item (List.dropLast_subset ahead member)

theorem AllButLast.back (clean : AllButLast holds (ahead ++ behind)) : AllButLast holds behind := by
  by_cases empty : behind = []
  · rw [empty]
    exact List.forall_mem_nil _
  · exact ((allButLast_append empty).mp clean).2

theorem AllButLast.all_front (clean : AllButLast holds (ahead ++ behind)) (ne : behind ≠ []) :
    ∀ item ∈ ahead, holds item :=
  ((allButLast_append ne).mp clean).1

theorem allButLast_append_of (front : AllButLast holds ahead) (back : AllButLast holds behind)
    (meet : behind ≠ [] → ∀ item ∈ ahead, holds item) : AllButLast holds (ahead ++ behind) := by
  by_cases empty : behind = []
  · rwa [empty, List.append_nil]
  · exact (allButLast_append empty).mpr ⟨meet empty, back⟩

theorem AllButLast.exists_last (clean : AllButLast holds items)
    (some_ : ¬ ∀ item ∈ items, holds item) : ∃ last, items.getLast? = some last ∧ ¬ holds last := by
  push Not at some_
  obtain ⟨item, member, lacks⟩ := some_
  have filled := List.ne_nil_of_mem member
  rw [← List.dropLast_append_getLast filled, List.mem_append, List.mem_singleton] at member
  rcases member with early | rfl
  · exact absurd (clean item early) lacks
  · exact ⟨_, List.getLast?_eq_some_getLast filled, lacks⟩

end

section

variable {stop : α}

def Terminated (stop : α) (line : List α) : Prop := line.getLast? = some stop

structure IsLine (stop : α) (line : List α) : Prop where
  nonempty : line ≠ []
  inside : stop ∉ line.dropLast

theorem isLine_of_unstopped {line : List α} (nonempty : line ≠ []) (unstopped : stop ∉ line) :
    IsLine stop line :=
  ⟨nonempty, fun member => unstopped (List.dropLast_subset line member)⟩

theorem isLine_stopped {line : List α} (unstopped : stop ∉ line) :
    IsLine stop (line ++ [stop]) := by
  refine ⟨by simp, ?_⟩
  rw [List.dropLast_concat]
  exact unstopped

theorem isLine_append {first second : List α} (one : IsLine stop first)
    (two : IsLine stop second) (open_ : ¬ Terminated stop first) :
    IsLine stop (first ++ second) := by
  refine ⟨by simp [one.nonempty], ?_⟩
  rw [List.dropLast_append_of_ne_nil two.nonempty, List.mem_append, not_or]
  refine ⟨fun member => ?_, two.inside⟩
  rw [← List.dropLast_append_getLast one.nonempty, List.mem_append, List.mem_singleton] at member
  rcases member with inside | ends
  · exact one.inside inside
  · exact open_ (ends ▸ List.getLast?_eq_some_getLast one.nonempty)

theorem terminated_append {first second : List α} (two : second ≠ []) :
    Terminated stop (first ++ second) ↔ Terminated stop second := by
  rw [Terminated, Terminated, List.getLast?_append_of_ne_nil _ two]

end

section

variable [DecidableEq α]

def split (stop : α) : List α → List α → List (List α)
  | [], [] => []
  | [], current => [current.reverse]
  | item :: rest, current =>
    if item = stop then (item :: current).reverse :: split stop rest []
    else split stop rest (item :: current)

variable {stop : α}

theorem split_flatten (text current : List α) :
    (split stop text current).flatten = current.reverse ++ text := by
  induction text generalizing current with
  | nil => cases current <;> simp [split]
  | cons item rest ih =>
    rw [split]
    split
    · rw [List.flatten_cons, ih]
      simp
    · rw [ih]
      simp

theorem isLine_of_mem_split {text current : List α} (unstopped : stop ∉ current) :
    ∀ line ∈ split stop text current, IsLine stop line := by
  induction text generalizing current with
  | nil =>
    cases current with
    | nil => exact List.forall_mem_nil _
    | cons item rest =>
      intro line member
      rw [split, List.mem_singleton] at member
      · subst member
        refine isLine_of_unstopped (by simp) ?_
        rw [List.mem_reverse]
        exact unstopped
      · exact List.cons_ne_nil item rest
  | cons item rest ih =>
    rw [split]
    split
    next same =>
      subst same
      rw [List.forall_mem_cons, List.reverse_cons]
      refine ⟨isLine_stopped ?_, ih List.not_mem_nil⟩
      rw [List.mem_reverse]
      exact unstopped
    next differs =>
      refine ih ?_
      rw [List.mem_cons, not_or]
      exact ⟨Ne.symm differs, unstopped⟩

theorem split_allButLast (text current : List α) :
    AllButLast (Terminated stop) (split stop text current) := by
  induction text generalizing current with
  | nil => cases current <;> exact List.forall_mem_nil _
  | cons item rest ih =>
    rw [split]
    split
    next same =>
      by_cases ended : split stop rest [] = []
      · rw [ended]
        exact List.forall_mem_nil _
      · rw [allButLast_cons ended]
        refine ⟨?_, ih []⟩
        rw [Terminated, List.reverse_cons, List.getLast?_concat, same]
    next => exact ih _

theorem split_append_of_unstopped {line rest current : List α} (unstopped : stop ∉ line) :
    split stop (line ++ rest) current = split stop rest (line.reverse ++ current) := by
  induction line generalizing current with
  | nil => rfl
  | cons item line ih =>
    rw [List.mem_cons, not_or] at unstopped
    rw [List.cons_append, split, if_neg (Ne.symm unstopped.1), ih unstopped.2]
    simp

theorem split_line_append {line rest : List α} (one : IsLine stop line)
    (terminated : Terminated stop line) :
    split stop (line ++ rest) [] = line :: split stop rest [] := by
  obtain ⟨front, rfl⟩ := List.getLast?_eq_some_iff.mp terminated
  have inside := one.inside
  rw [List.dropLast_concat] at inside
  rw [List.append_assoc, split_append_of_unstopped inside, List.singleton_append, split,
    if_pos rfl]
  simp

theorem split_flatten_of_lines {lines : List (List α)} (each : ∀ line ∈ lines, IsLine stop line)
    (clean : AllButLast (Terminated stop) lines) : split stop lines.flatten [] = lines := by
  induction lines with
  | nil => rfl
  | cons line rest ih =>
    rw [List.forall_mem_cons] at each
    by_cases last : rest = []
    · subst last
      rw [List.flatten_cons, List.flatten_nil]
      by_cases terminated : Terminated stop line
      · rw [split_line_append each.1 terminated]
        rfl
      · have unstopped : stop ∉ line := by
          intro member
          rw [← List.dropLast_append_getLast each.1.nonempty, List.mem_append,
            List.mem_singleton] at member
          rcases member with inside | ends
          · exact each.1.inside inside
          · exact terminated (ends ▸ List.getLast?_eq_some_getLast each.1.nonempty)
        rw [List.append_nil, ← List.append_nil line, split_append_of_unstopped unstopped,
          List.append_nil, List.append_nil]
        cases reversed : line.reverse with
        | nil => exact absurd (List.reverse_eq_nil_iff.mp reversed) each.1.nonempty
        | cons item others =>
          rw [split, ← reversed, List.reverse_reverse]
          exact List.cons_ne_nil item others
    · rw [allButLast_cons last] at clean
      rw [List.flatten_cons, split_line_append each.1 clean.1, ih each.2 clean.2]

end

end TerminatedLines

/-! Splitting a list behind every item that stops a piece, as `split_inclusive` does. -/

namespace Pieces

variable {α : Type} (stop : α → Bool)

def pieces (current : List α) : List α → List (List α)
  | [] => if current.isEmpty then [] else [current]
  | item :: rest =>
    if stop item then (current ++ [item]) :: pieces [] rest else pieces (current ++ [item]) rest

variable {stop}

theorem pieces_unstopped_append {body : List α} (unstopped : ∀ item ∈ body, stop item = false)
    (current rest : List α) :
    pieces stop current (body ++ rest) = pieces stop (current ++ body) rest := by
  induction body generalizing current with
  | nil => rw [List.append_nil, List.nil_append]
  | cons item body ih =>
    rw [List.forall_mem_cons] at unstopped
    rw [List.cons_append, pieces, if_neg (by simp [unstopped.1]), ih unstopped.2,
      List.append_assoc, List.singleton_append]

theorem pieces_append_stop {body : List α} (unstopped : ∀ item ∈ body, stop item = false)
    {last : α} (stops : stop last = true) (rest : List α) :
    pieces stop [] (body ++ last :: rest) = (body ++ [last]) :: pieces stop [] rest := by
  rw [pieces_unstopped_append unstopped, List.nil_append, pieces, if_pos stops]

theorem pieces_of_unstopped {body : List α} (unstopped : ∀ item ∈ body, stop item = false)
    (some_ : body ≠ []) : pieces stop [] body = [body] := by
  have whole := pieces_unstopped_append unstopped [] []
  rw [List.append_nil, List.nil_append] at whole
  rw [whole, pieces, if_neg (by simpa using some_)]

theorem induct {motive : List α → Prop} (empty : motive [])
    (unclosed : ∀ body, body ≠ [] → (∀ item ∈ body, stop item = false) → motive body)
    (closed : ∀ body last rest, (∀ item ∈ body, stop item = false) → stop last = true →
      motive rest → motive (body ++ last :: rest)) (text : List α) : motive text := by
  generalize size : text.length = count
  induction count using Nat.strongRecOn generalizing text with
  | ind count ih =>
    have parts := List.takeWhile_append_dropWhile (p := fun item => !stop item) (l := text)
    have unstopped : ∀ item ∈ text.takeWhile (fun item => !stop item), stop item = false := by
      intro item member
      simpa using List.mem_takeWhile_imp member
    cases behind : text.dropWhile (fun item => !stop item) with
    | nil =>
      rw [behind, List.append_nil] at parts
      rw [parts] at unstopped
      by_cases none_ : text = []
      · rw [none_]
        exact empty
      · exact unclosed text none_ unstopped
    | cons last rest =>
      have stops : stop last = true := by
        have head := List.head_dropWhile_not (fun item => !stop item)
          (by rw [behind]; exact List.cons_ne_nil last rest)
        simpa [behind] using head
      rw [behind] at parts
      have shorter : rest.length < count := by
        have lengths := congrArg List.length parts
        rw [List.length_append, List.length_cons] at lengths
        omega
      rw [← parts]
      exact closed _ last rest unstopped stops (ih rest.length shorter rest rfl)

end Pieces
