import KnotEditor.Desktop.CollectionRuns
import KnotEditor.Library.Fallible

/-! What marks a draft as retained is a row on show, and what the collection promises over every
run of it. -/

namespace KnotEditor.Desktop

open CollectionRequests DesktopCollection

variable {host : CollectionHost}

def Matches {α : Type} (same : α → α → Bool) (left right : α) : Prop :=
  left = right ∨ same left right = true

def MetreState.MarkedBy (metre : MetreState host) (row : RetainedCompositionItem host) : Prop :=
  ∃ scene draft, row.item.metreScene = some scene ∧ metre.draft = some draft ∧
    Matches host.sameScene draft scene ∧ metre.saved = some (host.sceneRevision scene)

def RecipeState.MarkedBy (recipe : RecipeState host) (row : RetainedCompositionItem host) : Prop :=
  ∃ material current, row.item.projectionRecipe = some material ∧
    recipe.material = some current ∧ Matches host.sameRecipe current material

def RecipeState.marks (recipe : RecipeState host) : Nat := recipe.history.count .markSaved

structure MarksShown (before after : CompositionState host) : Prop where
  metre : after.metre.saved = before.metre.saved ∨ after.metre.saved = none ∨
    ∃ row ∈ after.retained, after.metre.MarkedBy row
  recipe : after.recipe.marks = before.recipe.marks ∨
    ∃ row ∈ after.retained, after.recipe.MarkedBy row

theorem MetreState.openCopy_eq_ok {metre opened : MetreState host} {scene : host.Scene}
    (copied : metre.openCopy scene = .ok opened) :
    opened = { draft := some scene, saved := some (host.sceneRevision scene) } := by
  unfold openCopy at copied
  split at copied
  · cases copied
  · obtain ⟨_, _, found⟩ := Fallible.bind_eq_ok_iff.mp copied
    split at found
    · cases found
      rfl
    · cases found

theorem MetreState.markRow_cases (metre : MetreState host) (row : RetainedCompositionItem host) :
    (metre.markRow row).draft = metre.draft ∧
      ((metre.markRow row).saved = metre.saved ∨ (metre.markRow row).MarkedBy row) := by
  unfold markRow
  cases held : row.item.metreScene with
  | none => exact ⟨rfl, Or.inl rfl⟩
  | some scene =>
    simp only [markRetained]
    split
    · rename_i matching
      obtain ⟨draft, drafted, same⟩ := (Option.any_eq_true _ _).mp matching
      exact ⟨rfl, Or.inr ⟨scene, draft, held, drafted, Or.inr same, rfl⟩⟩
    · exact ⟨rfl, Or.inl rfl⟩

theorem MetreState.foldl_markRow (rows : List (RetainedCompositionItem host))
    (metre : MetreState host) :
    (rows.foldl markRow metre).draft = metre.draft ∧
      ((rows.foldl markRow metre).saved = metre.saved ∨
        ∃ row ∈ rows, (rows.foldl markRow metre).MarkedBy row) := by
  induction rows generalizing metre with
  | nil => exact ⟨rfl, Or.inl rfl⟩
  | cons row rest ih =>
    obtain ⟨draft, marked⟩ := ih (metre.markRow row)
    obtain ⟨kept, first⟩ := metre.markRow_cases row
    refine ⟨draft.trans kept, ?_⟩
    rcases marked with same | ⟨other, member, by_⟩
    · rcases first with old | ⟨scene, drafted, held, own, matching, saved⟩
      · exact Or.inl (same.trans old)
      · exact Or.inr ⟨row, List.mem_cons_self, scene, drafted, held, draft.trans own, matching,
          same.trans saved⟩
    · exact Or.inr ⟨other, List.mem_cons_of_mem _ member, by_⟩

theorem RecipeState.markRow_cases (recipe : RecipeState host)
    (row : RetainedCompositionItem host) :
    (recipe.markRow row).material = recipe.material ∧
      (recipe.markRow row = recipe ∨ recipe.MarkedBy row) := by
  unfold markRow
  cases held : row.item.projectionRecipe with
  | none => exact ⟨rfl, Or.inl rfl⟩
  | some material =>
    simp only [markRetained]
    split
    · rename_i matching
      obtain ⟨current, own, same⟩ := (Option.any_eq_true _ _).mp matching
      exact ⟨rfl, Or.inr ⟨material, current, held, own, Or.inr same⟩⟩
    · exact ⟨rfl, Or.inl rfl⟩

theorem RecipeState.MarkedBy.of_material {recipe other : RecipeState host}
    {row : RetainedCompositionItem host} (marked : recipe.MarkedBy row)
    (same : other.material = recipe.material) : other.MarkedBy row := by
  obtain ⟨material, current, held, own, matching⟩ := marked
  exact ⟨material, current, held, same.trans own, matching⟩

theorem RecipeState.foldl_markRow (rows : List (RetainedCompositionItem host))
    (recipe : RecipeState host) :
    (rows.foldl markRow recipe).material = recipe.material ∧
      (rows.foldl markRow recipe = recipe ∨ ∃ row ∈ rows, recipe.MarkedBy row) := by
  induction rows generalizing recipe with
  | nil => exact ⟨rfl, Or.inl rfl⟩
  | cons row rest ih =>
    obtain ⟨material, marked⟩ := ih (recipe.markRow row)
    obtain ⟨kept, first⟩ := recipe.markRow_cases row
    refine ⟨material.trans kept, ?_⟩
    rcases first with same | by_
    · rw [List.foldl_cons]
      rw [same] at marked ⊢
      rcases marked with old | ⟨other, member, by_⟩
      · exact Or.inl old
      · exact Or.inr ⟨other, List.mem_cons_of_mem _ member, by_⟩
    · exact Or.inr ⟨row, List.mem_cons_self, by_⟩

def SameDrafts (before after : CompositionState host) : Prop :=
  after.metre = before.metre ∧ after.recipe = before.recipe

theorem SameDrafts.marksShown {before after : CompositionState host}
    (same : SameDrafts before after) : MarksShown before after :=
  ⟨Or.inl (congrArg MetreState.saved same.1), Or.inl (congrArg RecipeState.marks same.2)⟩

namespace DesktopCollection

theorem sameDrafts_requestOperation (desk : DesktopCollection host) (items : List host.Item)
    (legacy : Bool) (change : Option OrganizeComposition) (starts : Bool) :
    SameDrafts desk.composition
      (desk.requestOperation items legacy change starts).composition := by
  unfold requestOperation
  split
  · exact ⟨rfl, rfl⟩
  · simp only
    split
    · exact ⟨rfl, rfl⟩
    · split
      · exact ⟨rfl, rfl⟩
      · cases starts <;> cases items <;> exact ⟨rfl, rfl⟩

theorem marksShown_press {desk : DesktopCollection host} {place : Nat}
    {act : RetainedCompositionItem host → DesktopCollection host}
    (shown : ∀ row ∈ desk.composition.retained,
      MarksShown desk.composition (act row).composition) :
    MarksShown desk.composition (desk.press place act).composition := by
  unfold press
  split
  · rename_i row pressed
    exact shown row (List.mem_filter.mp (List.mem_of_getElem? pressed)).1
  · exact SameDrafts.marksShown ⟨rfl, rfl⟩

theorem settleRetry_same (state : CompositionState host) :
    state.settleRetry.metre = state.metre ∧ state.settleRetry.recipe = state.recipe ∧
      state.settleRetry.retained = state.retained := by
  unfold CompositionState.settleRetry
  split
  · exact ⟨rfl, rfl, rfl⟩
  · split <;> exact ⟨rfl, rfl, rfl⟩

theorem marksShown_confirm (state : CompositionState host)
    (rows : List (RetainedCompositionItem host)) : MarksShown state (state.confirm rows) := by
  have settled := settleRetry_same { state with
    retained := RetainedCompositionItem.sort rows
    organizationEdit := none
    metre := (RetainedCompositionItem.sort rows).foldl MetreState.markRow state.metre
    recipe := (RetainedCompositionItem.sort rows).foldl RecipeState.markRow state.recipe }
  have metre : (state.confirm rows).metre =
      (RetainedCompositionItem.sort rows).foldl MetreState.markRow state.metre := settled.1
  have recipe : (state.confirm rows).recipe =
      (RetainedCompositionItem.sort rows).foldl RecipeState.markRow state.recipe := settled.2.1
  have shown : (state.confirm rows).retained = RetainedCompositionItem.sort rows := settled.2.2
  constructor
  · rw [metre, shown]
    rcases (MetreState.foldl_markRow (RetainedCompositionItem.sort rows) state.metre).2 with
      same | marked
    · exact Or.inl same
    · exact Or.inr (Or.inr marked)
  · rw [recipe, shown]
    obtain ⟨material, same | ⟨row, member, marked⟩⟩ :=
      RecipeState.foldl_markRow (RetainedCompositionItem.sort rows) state.recipe
    · exact Or.inl (congrArg RecipeState.marks same)
    · exact Or.inr ⟨row, member, marked.of_material material⟩

theorem marksShown_drain (desk : DesktopCollection host) :
    MarksShown desk.composition desk.drain.composition := by
  unfold drain
  split
  case h_1 => exact SameDrafts.marksShown ⟨rfl, rfl⟩
  case h_2 index held =>
    split
    case h_1 => exact SameDrafts.marksShown ⟨rfl, rfl⟩
    case h_2 worker found =>
      split
      case h_1 result sent =>
        simp only
        split
        case isTrue => exact SameDrafts.marksShown ⟨rfl, rfl⟩
        case isFalse =>
          cases result with
          | error error => exact SameDrafts.marksShown ⟨rfl, rfl⟩
          | ok rows =>
            have confirmed := marksShown_confirm
              (desk.receive index worker (.ok rows)).composition rows
            exact ⟨confirmed.metre, confirmed.recipe⟩
      case h_2 => exact SameDrafts.marksShown ⟨rfl, rfl⟩
      case h_3 => exact SameDrafts.marksShown ⟨rfl, rfl⟩

theorem marksShown_openMetre (desk : DesktopCollection host) (row : RetainedCompositionItem host)
    (shown : row ∈ desk.composition.retained) :
    MarksShown desk.composition (desk.openMetre row).composition := by
  unfold openMetre
  split
  · exact SameDrafts.marksShown ⟨rfl, rfl⟩
  · rename_i scene held
    split
    · rename_i metre opened
      have copied := MetreState.openCopy_eq_ok opened
      refine ⟨Or.inr (Or.inr ⟨row, shown, scene, scene, held, ?_, Or.inl rfl, ?_⟩), Or.inl rfl⟩
      · exact congrArg MetreState.draft copied
      · exact congrArg MetreState.saved copied
    · exact SameDrafts.marksShown ⟨rfl, rfl⟩

theorem marksShown_reopenRecipe (desk : DesktopCollection host)
    (row : RetainedCompositionItem host) (shown : row ∈ desk.composition.retained) :
    MarksShown desk.composition (desk.reopenRecipe row).composition := by
  unfold reopenRecipe
  split
  · exact SameDrafts.marksShown ⟨rfl, rfl⟩
  · rename_i material held
    split
    · exact ⟨Or.inl rfl, Or.inr ⟨row, shown, material, material, held, rfl, Or.inl rfl⟩⟩
    · exact SameDrafts.marksShown ⟨rfl, rfl⟩

theorem marks_append (recipe : RecipeState host) (material : Option host.Recipe)
    {calls : List HistoryCall} (unmarked : HistoryCall.markSaved ∉ calls) :
    (⟨material, recipe.history ++ calls⟩ : RecipeState host).marks = recipe.marks := by
  rw [RecipeState.marks, List.count_append, List.count_eq_zero_of_not_mem unmarked]
  rfl

theorem marksShown_step (desk : DesktopCollection host) (action : CollectionAction host) :
    MarksShown desk.composition (desk.step action).composition := by
  cases action with
  | drain => exact desk.marksShown_drain
  | openMetre row => exact marksShown_press desk.marksShown_openMetre
  | reopenRecipe row => exact marksShown_press desk.marksShown_reopenRecipe
  | selectTarget index starts =>
    simp only [step, selectTarget]
    split
    · exact SameDrafts.marksShown ⟨rfl, rfl⟩
    · have same := sameDrafts_requestOperation (desk.withState { desk.composition with
        generation := desk.composition.generation + 1
        selectedTarget := some index
        organizationEdit := none
        retained := [] }) [] false none starts
      exact SameDrafts.marksShown ⟨same.1, same.2⟩
  | collect item starts =>
    exact (desk.sameDrafts_requestOperation [item] false none starts).marksShown
  | retry starts =>
    simp only [step, retry]
    split
    · exact SameDrafts.marksShown ⟨rfl, rfl⟩
    · exact (desk.sameDrafts_requestOperation _ false none starts).marksShown
  | refresh starts => exact (desk.sameDrafts_requestOperation [] false none starts).marksShown
  | importLegacy starts => exact (desk.sameDrafts_requestOperation [] true none starts).marksShown
  | archive place starts =>
    refine marksShown_press ?_
    intro row _
    unfold archive
    split
    · exact SameDrafts.marksShown ⟨rfl, rfl⟩
    · exact (desk.sameDrafts_requestOperation [] false _ starts).marksShown
  | startOrganizationEdit place =>
    refine marksShown_press ?_
    intro row _
    unfold CompositionState.startOrganizationEdit
    split
    · exact SameDrafts.marksShown ⟨rfl, rfl⟩
    · split <;> exact SameDrafts.marksShown ⟨rfl, rfl⟩
  | saveOrganizationEdit starts =>
    simp only [step, saveOrganizationEdit]
    split
    · exact (desk.sameDrafts_requestOperation [] false _ starts).marksShown
    · exact SameDrafts.marksShown ⟨rfl, rfl⟩
    · exact SameDrafts.marksShown ⟨rfl, rfl⟩
  | work index answer =>
    simp only [step, work]
    split <;> exact SameDrafts.marksShown ⟨rfl, rfl⟩
  | startMetre scene =>
    simp only [step]
    split
    · exact SameDrafts.marksShown ⟨rfl, rfl⟩
    · exact ⟨Or.inr (Or.inl rfl), Or.inl rfl⟩
  | bindRecipe material => exact ⟨Or.inl rfl, Or.inl (marks_append _ _ (by decide))⟩
  | recordRecipe material => exact ⟨Or.inl rfl, Or.inl (marks_append _ _ (by decide))⟩
  | stepRecipe material redo =>
    refine ⟨Or.inl rfl, Or.inl (marks_append _ _ ?_)⟩
    cases redo <;> decide
  | discardMetre => exact ⟨Or.inr (Or.inl rfl), Or.inl rfl⟩
  | _ => exact ⟨Or.inl rfl, Or.inl rfl⟩

end DesktopCollection

end KnotEditor.Desktop
