import Mathlib.Data.List.Forall2
import Mathlib.Data.List.Induction

/-! Computations that stop at their first error, taken apart at their successes. -/

namespace Fallible

variable {ε φ α β : Type}

variable {first : Except ε α} {step : α → Option β} {items : List α}

theorem bind_eq_ok_iff {next : α → Except ε β} {result : β} :
    (first >>= next) = .ok result ↔ ∃ value, first = .ok value ∧ next value = .ok result := by
  cases first <;> simp [bind, Except.bind]

theorem then_eq_ok_iff {first : Except ε Unit} {next : Unit → Except ε β} {result : β} :
    (first >>= next) = .ok result ↔ first = .ok () ∧ next () = .ok result := by
  cases first <;> simp [bind, Except.bind]

theorem map_bind {γ : Type} (first : Except ε α) (next : α → Except ε β) (change : β → γ) :
    (first >>= next).map change = first >>= fun value => (next value).map change := by
  cases first <;> rfl

theorem forM_eq_ok_iff {step : α → Except ε Unit} {items : List α} :
    items.forM step = .ok () ↔ ∀ item ∈ items, step item = .ok () := by
  induction items with
  | nil => simp [pure, Except.pure]
  | cons item rest ih => rw [List.forM, then_eq_ok_iff, ih, List.forall_mem_cons]

theorem option_forM_eq_ok_iff {step : α → Except ε Unit} {item : Option α} :
    item.forM step = .ok () ↔ ∀ value ∈ item, step value = .ok () := by
  cases item <;> simp [Option.forM, pure, Except.pure]

theorem mapError_eq_ok_iff {translate : ε → φ} {result : α} :
    first.mapError translate = .ok result ↔ first = .ok result := by
  cases first <;> simp [Except.mapError]

theorem map_eq_ok_iff {change : α → β} {result : β} :
    first.map change = .ok result ↔ ∃ value, first = .ok value ∧ change value = result := by
  cases first <;> simp [Except.map]

theorem toOption_eq_some_iff {result : α} :
    first.toOption = some result ↔ first = .ok result := by
  cases first <;> simp [Except.toOption]

theorem isOk_iff : first.isOk = true ↔ ∃ result, first = .ok result := by
  cases first <;> simp [Except.isOk, Except.toBool]

theorem refuse_eq_ok_iff {condition : Prop} [Decidable condition] {error : ε}
    {next : α → Except ε β} {rest : Except ε β} {result : β} :
    (if condition then (Except.error error >>= next) else rest) = .ok result ↔
      ¬ condition ∧ rest = .ok result := by
  split <;> simp_all [bind, Except.bind]

theorem refuse_eq_some_iff {condition : Prop} [Decidable condition] {next : α → Option β}
    {rest : Option β} {result : β} :
    (if condition then (none.bind next) else rest) = some result ↔
      ¬ condition ∧ rest = some result := by
  split <;> simp_all

theorem foldlM_append_singleton_eq_ok_iff {step : β → α → Except ε β} {start result : β}
    {items : List α} {last : α} :
    (items ++ [last]).foldlM step start = .ok result ↔
      ∃ middle, items.foldlM step start = .ok middle ∧ step middle last = .ok result := by
  rw [List.foldlM_append, bind_eq_ok_iff]
  simp only [List.foldlM_cons, List.foldlM_nil, bind_pure]

theorem foldlM_builds {step : β → α → Except ε β} {good : List α → β → Prop}
    (each : ∀ gone state item next, good gone state → step state item = .ok next →
      good (gone ++ [item]) next)
    (items : List α) (start result : β) (first : good [] start)
    (done : items.foldlM step start = .ok result) : good items result := by
  induction items using List.reverseRecOn generalizing result with
  | nil =>
    cases done
    exact first
  | append_singleton gone item ih =>
    obtain ⟨middle, before, turn⟩ := foldlM_append_singleton_eq_ok_iff.mp done
    exact each gone middle item result (ih middle before) turn

theorem exists_of_mapM_eq_ok {step : α → Except ε β} {items : List α} {results : List β}
    (mapped : items.mapM step = .ok results) :
    ∀ item ∈ items, ∃ result ∈ results, step item = .ok result := by
  induction items generalizing results with
  | nil =>
    intro item member
    cases member
  | cons first rest ih =>
    rw [List.mapM_cons, bind_eq_ok_iff] at mapped
    rcases mapped with ⟨head, started, tailMapped⟩
    rcases bind_eq_ok_iff.mp tailMapped with ⟨tail, others, done⟩
    cases done
    intro item member
    rcases List.mem_cons.mp member with rfl | later
    · exact ⟨head, List.mem_cons_self, started⟩
    · rcases ih others item later with ⟨result, found, same⟩
      exact ⟨result, List.mem_cons_of_mem _ found, same⟩

theorem mapM_eq_ok_iff {step : α → Except ε β} {items : List α} {results : List β} :
    items.mapM step = .ok results ↔
      List.Forall₂ (fun item result => step item = .ok result) items results := by
  induction items generalizing results with
  | nil =>
    rw [List.mapM_nil, List.forall₂_nil_left_iff]
    constructor
    · rintro ⟨⟩
      rfl
    · rintro rfl
      rfl
  | cons first rest ih =>
    rw [List.mapM_cons, bind_eq_ok_iff, List.forall₂_cons_left_iff]
    constructor
    · rintro ⟨head, started, later⟩
      obtain ⟨tail, others, done⟩ := bind_eq_ok_iff.mp later
      cases done
      exact ⟨head, tail, started, ih.mp others, rfl⟩
    · rintro ⟨head, tail, started, others, rfl⟩
      exact ⟨head, started, bind_eq_ok_iff.mpr ⟨tail, ih.mpr others, rfl⟩⟩

theorem mapM_cons_eq_some_iff {first : α} {rest : List α} {results : List β} :
    (first :: rest).mapM step = some results ↔
      ∃ head tail, step first = some head ∧ rest.mapM step = some tail ∧ results = head :: tail := by
  rw [List.mapM_cons]
  simp only [bind, pure, Option.bind_eq_some_iff, Option.some_inj]
  simp only [exists_and_left, eq_comm]

theorem exists_of_mapM_eq_some {results : List β} (mapped : items.mapM step = some results) :
    ∀ item ∈ items, ∃ result ∈ results, step item = some result := by
  induction items generalizing results with
  | nil =>
    intro item member
    cases member
  | cons first rest ih =>
    rcases mapM_cons_eq_some_iff.mp mapped with ⟨head, tail, started, others, rfl⟩
    intro item member
    rcases List.mem_cons.mp member with rfl | later
    · exact ⟨head, List.mem_cons_self, started⟩
    · rcases ih others item later with ⟨result, found, same⟩
      exact ⟨result, List.mem_cons_of_mem _ found, same⟩

theorem mapM_eq_some_of_forall {good : β → Prop}
    (each : ∀ item ∈ items, ∃ result, step item = some result ∧ good result) :
    ∃ results, items.mapM step = some results ∧ ∀ result ∈ results, good result := by
  induction items with
  | nil => exact ⟨[], rfl, by simp⟩
  | cons first rest ih =>
    rw [List.forall_mem_cons] at each
    rcases each.1 with ⟨head, started, fine⟩
    rcases ih each.2 with ⟨tail, others, allFine⟩
    exact ⟨head :: tail, mapM_cons_eq_some_iff.mpr ⟨head, tail, started, others, rfl⟩,
      List.forall_mem_cons.mpr ⟨fine, allFine⟩⟩

theorem exists_source_of_mapM_eq_some {results : List β} (mapped : items.mapM step = some results) :
    ∀ result ∈ results, ∃ item ∈ items, step item = some result := by
  induction items generalizing results with
  | nil =>
    cases mapped
    simp
  | cons first rest ih =>
    rcases mapM_cons_eq_some_iff.mp mapped with ⟨head, tail, started, others, rfl⟩
    intro result member
    rcases List.mem_cons.mp member with rfl | later
    · exact ⟨first, List.mem_cons_self, started⟩
    · rcases ih others result later with ⟨item, inside, same⟩
      exact ⟨item, List.mem_cons_of_mem _ inside, same⟩

end Fallible
