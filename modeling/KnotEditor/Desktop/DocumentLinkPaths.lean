import KnotEditor.Desktop.DocumentLinks
import KnotEditor.Library.Fallible
import KnotEditor.Library.RelativeWalk

/-! What the path functions of the document links come to: walks from one place in the tree of
names to another. -/

namespace KnotEditor.Desktop.DocumentLinks

open RelativeWalk
open FilePath (absolute relative components IsName)

def Portable (name : ByteArray) : Prop :=
  ∃ text, String.fromUTF8? name = some text ∧ '\\' ∉ text.toList ∧
    ∀ character ∈ text.toList, isControl character = false

def componentStep : PathComponent → Option (Step ByteArray)
  | .normal name => some (.down name)
  | .parentDir => some .up
  | _ => none

theorem absolute_append (here : List ByteArray) (name : ByteArray) :
    absolute here ++ [.normal name] = absolute (here ++ [name]) := by
  simp [absolute]

theorem parent_absolute (here : List ByteArray) :
    (absolute here).parent = (step here .up).map absolute := by
  induction here using List.reverseRecOn with
  | nil => rfl
  | append_singleton rest last ih =>
    rw [← absolute_append, FilePath.parent, List.getLast?_concat, List.dropLast_concat]
    simp [step]

theorem absolute_inj {first second : List ByteArray} (same : absolute first = absolute second) :
    first = second := by
  rw [absolute, absolute, List.cons.injEq] at same
  exact List.map_injective_iff.mpr (fun _ _ equal => PathComponent.normal.inj equal) same.2

theorem normalizeComponent_eq_ok {here : List ByteArray} {component : PathComponent}
    {result : FilePath} (placed : component ≠ .rootDir)
    (ran : normalizeComponent (absolute here) component = .ok result) :
    ∃ next, walk here (componentStep component).toList = some next ∧ result = absolute next ∧
      ∀ name, component = .normal name → ∀ text, String.fromUTF8? name = some text →
        '\\' ∉ text.toList := by
  cases component with
  | rootDir => exact absurd rfl placed
  | curDir =>
    cases ran
    exact ⟨here, rfl, rfl, by simp⟩
  | parentDir =>
    rw [normalizeComponent, parent_absolute] at ran
    cases above : step here .up with
    | none =>
      rw [above] at ran
      cases ran
    | some next =>
      rw [above] at ran
      cases ran
      refine ⟨next, ?_, rfl, by simp⟩
      rw [componentStep, Option.toList_some, walk_cons, above]
      rfl
  | normal name =>
    rw [normalizeComponent] at ran
    split at ran
    · cases ran
    next plain =>
      cases ran
      refine ⟨here ++ [name], rfl, absolute_append here name, ?_⟩
      intro other same text decoded member
      cases same
      rw [decoded] at plain
      exact plain (by simpa using member)

theorem normalizeComponents_eq_ok {rest : List PathComponent} {here : List ByteArray}
    {result : FilePath} (placed : .rootDir ∉ rest)
    (ran : rest.foldlM normalizeComponent (absolute here) = .ok result) :
    ∃ there, walk here (rest.filterMap componentStep) = some there ∧ result = absolute there ∧
      ∀ name, .normal name ∈ rest → ∀ text, String.fromUTF8? name = some text →
        '\\' ∉ text.toList := by
  induction rest generalizing here with
  | nil =>
    cases ran
    exact ⟨here, rfl, rfl, by simp⟩
  | cons first rest ih =>
    rw [List.mem_cons, not_or] at placed
    rw [List.foldlM_cons] at ran
    rcases Fallible.bind_eq_ok_iff.mp ran with ⟨middle, began, later⟩
    rcases normalizeComponent_eq_ok (fun same => placed.1 same.symm) began with
      ⟨next, stepped, rfl, plain⟩
    rcases ih placed.2 later with ⟨there, walked, arrived, plainLater⟩
    refine ⟨there, ?_, arrived, ?_⟩
    · have joined : (first :: rest).filterMap componentStep =
          (componentStep first).toList ++ rest.filterMap componentStep := by
        cases called : componentStep first <;> simp [called]
      rw [joined, walk_append, stepped, Option.bind_some, walked]
    · intro name member
      rcases List.mem_cons.mp member with same | later
      · exact plain name same.symm
      · exact plainLater name later

theorem normalizedPath_eq_ok {path result : FilePath} (placed : .rootDir ∉ path.tail)
    (normal : normalizedPath path = .ok result) :
    ∃ there, walk [] (path.filterMap componentStep) = some there ∧ result = absolute there ∧
      ∀ name ∈ there, Portable name ∧ .normal name ∈ path := by
  unfold normalizedPath at normal
  split at normal
  · cases normal
  next texts decoded =>
    split at normal
    · cases normal
    next accepted =>
      simp only [Bool.or_eq_true, Bool.not_eq_true', not_or, Bool.not_eq_false,
        List.any_eq_true, not_exists, not_and] at accepted
      rcases accepted with ⟨rooted, plainTexts⟩
      cases path with
      | nil => cases rooted
      | cons first rest =>
        have root : first = .rootDir := by simpa [FilePath.isAbsolute] using rooted
        subst root
        rw [List.foldlM_cons] at normal
        rcases @normalizeComponents_eq_ok _ [] _ placed normal with
          ⟨there, walked, rfl, plain⟩
        refine ⟨there, walked, rfl, ?_⟩
        intro name member
        have present : .normal name ∈ rest := by
          rcases mem_of_walk walked member with known | below
          · cases known
          · rcases List.mem_filterMap.mp below with ⟨component, inside, called⟩
            cases component <;> cases called
            exact inside
        have named : name ∈ (PathComponent.rootDir :: rest).filterMap FilePath.nameOf :=
          List.mem_filterMap.mpr ⟨.normal name, List.mem_cons_of_mem _ present, rfl⟩
        rcases Fallible.exists_of_mapM_eq_some decoded name named with ⟨text, known, read⟩
        refine ⟨⟨text, read, plain name present text read, ?_⟩,
          List.mem_cons_of_mem _ present⟩
        intro character inside
        exact Bool.eq_false_iff.mpr (plainTexts text known character inside)

theorem normalizedPath_absolute {names : List ByteArray} (portable : ∀ name ∈ names, Portable name) :
    normalizedPath (absolute names) = .ok (absolute names) := by
  have named : (absolute names).filterMap FilePath.nameOf = names := by
    rw [absolute, List.filterMap_cons, List.filterMap_map]
    exact List.filterMap_some
  have read : ∃ texts, nameTexts (absolute names) = some texts ∧
      ∀ text ∈ texts, ∀ character ∈ text.toList, isControl character = false := by
    rw [nameTexts, named]
    refine Fallible.mapM_eq_some_of_forall fun name member => ?_
    rcases portable name member with ⟨text, decoded, -, printable⟩
    exact ⟨text, decoded, printable⟩
  rcases read with ⟨texts, decoded, printable⟩
  have accepted : (!(absolute names).isAbsolute ||
      texts.any fun text => text.toList.any isControl) = false := by
    simpa [absolute, FilePath.isAbsolute] using printable
  have kept : ∀ rest here : List ByteArray, (∀ name ∈ rest, Portable name) →
      (rest.map .normal).foldlM normalizeComponent (absolute here) =
        .ok (absolute (here ++ rest)) := by
    intro rest
    induction rest with
    | nil =>
      intro here _
      rw [List.append_nil]
      rfl
    | cons name others ih =>
      intro here fine
      rw [List.forall_mem_cons] at fine
      rcases fine.1 with ⟨text, decoded, plain, -⟩
      have step : normalizeComponent (absolute here) (.normal name) =
          .ok (absolute (here ++ [name])) := by
        rw [normalizeComponent, decoded, absolute_append]
        simp [plain]
      rw [List.map_cons, List.foldlM_cons, step]
      exact (ih (here ++ [name]) fine.2).trans (by rw [List.append_assoc]; rfl)
  unfold normalizedPath
  rw [decoded]
  dsimp only
  rw [accepted]
  exact kept names [] portable

end KnotEditor.Desktop.DocumentLinks
