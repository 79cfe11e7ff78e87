import KnotEditor.Desktop.Collection

/-! The collection as its requests see it: the rows, the open editor, the destination, what waits to
be confirmed and the workers. Every action of the window is one of a few moves of these. -/

namespace KnotEditor.Desktop

variable {host : CollectionHost}

structure CollectionRequests (host : CollectionHost) where
  shown : List (RetainedCompositionItem host)
  editing : Option (KnotRetainTargetV1 × OrganizeComposition)
  target : Option KnotRetainTargetV1
  generation : UInt64
  receiver : Option Nat
  waiting : List host.Item
  waitingFor : Option KnotRetainTargetV1
  workers : List (CollectionWorker host)
  changes : Nat

def DesktopCollection.requests (desk : DesktopCollection host) : CollectionRequests host where
  shown := desk.composition.retained
  editing := desk.composition.organizationEdit
  target := desk.composition.target
  generation := desk.composition.generation
  receiver := desk.composition.receiver
  waiting := desk.composition.retryItems
  waitingFor := desk.composition.retryTarget
  workers := desk.workers
  changes := desk.changes

def DesktopCollection.pressed (desk : DesktopCollection host) :
    CollectionAction host → Option (RetainedCompositionItem host)
  | .archive row _ | .startOrganizationEdit row => desk.composition.visible[row]?
  | _ => none

def RetainedCompositionItem.ChangedBy (row : RetainedCompositionItem host)
    (change : OrganizeComposition) : Prop :=
  change.author = row.author ∧ change.itemId = row.item.id ∧
    change.expectedRevision = row.organizationRevision

namespace CollectionRequests

variable (requests : CollectionRequests host)

def retarget (target : Option KnotRetainTargetV1) : CollectionRequests host :=
  { requests with
    shown := []
    editing := none
    target := target
    generation := requests.generation + 1 }

def keep (items : List host.Item) (target : KnotRetainTargetV1) : CollectionRequests host :=
  { requests with
    shown := []
    waiting := if items.isEmpty then requests.waiting else items
    waitingFor := if items.isEmpty then requests.waitingFor else some target }

def ask (worker : CollectionWorker host) : CollectionRequests host :=
  { requests with
    receiver := some requests.workers.length
    workers := requests.workers ++ [worker]
    changes := 0 }

def Fits (target : KnotRetainTargetV1) (items : List host.Item) (legacy : Bool) : Prop :=
  (items = [] ∧ legacy = false) ∨ requests.waiting = [] ∨
    (requests.waitingFor = some target ∧ legacy = false ∧
      items.map CollectionItem.id = requests.waiting.map CollectionItem.id)

/-- What a request comes to: it is refused, its worker cannot start, or it is in flight. -/
inductive Requested (items : List host.Item) (legacy : Bool) (change : Option OrganizeComposition) :
    CollectionRequests host → Prop
  | busy (held : requests.receiver ≠ none) : Requested items legacy change requests
  | refused (idle : requests.receiver = none) :
      Requested items legacy change { requests with shown := [] }
  | unstarted (idle : requests.receiver = none) (target : KnotRetainTargetV1)
      (selected : requests.target = some target) (fits : requests.Fits target items legacy) :
      Requested items legacy change (requests.keep items target)
  | started (idle : requests.receiver = none) (target : KnotRetainTargetV1)
      (selected : requests.target = some target) (fits : requests.Fits target items legacy)
      (path : Option String) :
      Requested items legacy change ((requests.keep items target).ask
        { target, generation := requests.generation, items, legacy, path, change
          phase := if legacy then .opens else CollectionWorker.next change items })

def settle (target : KnotRetainTargetV1) : CollectionRequests host :=
  let waiting := requests.waiting.filter fun item =>
    !requests.shown.any (RetainedCompositionItem.confirms target item)
  { requests with
    waiting := waiting
    waitingFor := if waiting.isEmpty then none else requests.waitingFor }

def receive (index : Nat) (worker : CollectionWorker host)
    (result : Except String (List (RetainedCompositionItem host))) : CollectionRequests host :=
  { requests with
    receiver := none
    workers := requests.workers.set index { worker with phase := .received result } }

def confirm (rows : List (RetainedCompositionItem host)) : CollectionRequests host :=
  { requests with shown := RetainedCompositionItem.sort rows, editing := none }

def unconfirmed : CollectionRequests host := { requests with shown := [], editing := none }

inductive Drained : CollectionRequests host → Prop
  | stale {index worker result} (held : requests.receiver = some index)
      (found : requests.workers[index]? = some worker) (sent : worker.phase = .sent result)
      (moved : worker.generation ≠ requests.generation) :
      Drained (requests.receive index worker result)
  | listed {index worker rows} (held : requests.receiver = some index)
      (found : requests.workers[index]? = some worker) (sent : worker.phase = .sent (.ok rows))
      (current : worker.generation = requests.generation)
      (elsewhere : ∀ target, requests.waitingFor = some target → requests.target ≠ some target) :
      Drained ((requests.receive index worker (.ok rows)).confirm rows)
  | settled {index worker rows target} (held : requests.receiver = some index)
      (found : requests.workers[index]? = some worker) (sent : worker.phase = .sent (.ok rows))
      (current : worker.generation = requests.generation)
      (awaited : requests.waitingFor = some target) (selected : requests.target = some target) :
      Drained (((requests.receive index worker (.ok rows)).confirm rows).settle target)
  | failed {index worker error} (held : requests.receiver = some index)
      (found : requests.workers[index]? = some worker)
      (sent : worker.phase = .sent (.error error)) :
      Drained (requests.receive index worker (.error error)).unconfirmed
  | lost {index worker} (held : requests.receiver = some index)
      (found : requests.workers[index]? = some worker) (gone : worker.phase = .gone) :
      Drained { requests with receiver := none }.unconfirmed

end CollectionRequests

open CollectionRequests

namespace DesktopCollection

variable (desk : DesktopCollection host)

inductive Moves : CollectionAction host → CollectionRequests host → Prop
  | still {action} : Moves action desk.requests
  | setTargets {targets} :
      Moves (.setTargets targets)
        { desk.requests.retarget none with changes := desk.changes + 1 }
  | selectTarget {index starts} (idle : desk.requests.receiver = none)
      (target : Option KnotRetainTargetV1) {after}
      (asked : (desk.requests.retarget target).Requested [] false none after) :
      Moves (.selectTarget index starts) after
  | collect {item starts after} (asked : desk.requests.Requested [item] false none after) :
      Moves (.collect item starts) after
  | retry {starts after} (asked : desk.requests.Requested desk.requests.waiting false none after) :
      Moves (.retry starts) after
  | refresh {starts after} (asked : desk.requests.Requested [] false none after) :
      Moves (.refresh starts) after
  | importLegacy {starts after} (asked : desk.requests.Requested [] true none after) :
      Moves (.importLegacy starts) after
  | archive {place starts row change after}
      (pressed : desk.pressed (.archive place starts) = some row) (changed : row.ChangedBy change)
      (asked : desk.requests.Requested [] false (some change) after) :
      Moves (.archive place starts) after
  | begins {place row target} (pressed : desk.pressed (.startOrganizationEdit place) = some row)
      (selected : desk.requests.target = some target) :
      Moves (.startOrganizationEdit place)
        { desk.requests with editing := some (target, row.change) }
  | saves {starts target change typed after}
      (editing : desk.requests.editing = some (target, change))
      (selected : desk.requests.target = some target)
      (asked : desk.requests.Requested [] false
        (some { change with organization := typed }) after) :
      Moves (.saveOrganizationEdit starts) after
  | cancels : Moves .cancelOrganizationEdit { desk.requests with editing := none }
  | drain {after} (drained : desk.requests.Drained after) : Moves .drain after
  | work {index answer worker} (found : desk.requests.workers[index]? = some worker) :
      Moves (.work index answer)
        { desk.requests with workers := desk.requests.workers.set index (worker.answer answer) }

variable {desk}

theorem crosses_eq_false {state : CompositionState host} {target : KnotRetainTargetV1}
    {items : List host.Item} {legacy : Bool} (open_ : state.crosses target items legacy = false) :
    (items = [] ∧ legacy = false) ∨ state.retryItems = [] ∨
      (state.retryTarget = some target ∧ legacy = false ∧
        items.map CollectionItem.id = state.retryItems.map CollectionItem.id) := by
  simp only [CompositionState.crosses, Bool.and_eq_false_iff, Bool.or_eq_false_iff,
    Bool.not_eq_false', List.isEmpty_iff, decide_eq_false_iff_not, Decidable.not_not] at open_
  rcases open_ with (⟨none_, plain⟩ | settled) | ⟨⟨same, plain⟩, ids⟩
  · exact Or.inl ⟨by simpa using none_, plain⟩
  · exact Or.inr (Or.inl settled)
  · exact Or.inr (Or.inr ⟨same, plain, ids⟩)

theorem requested (desk : DesktopCollection host) (items : List host.Item) (legacy : Bool)
    (change : Option OrganizeComposition) (starts : Bool) :
    desk.requests.Requested items legacy change
      (desk.requestOperation items legacy change starts).requests := by
  cases held : desk.composition.busy with
  | true =>
    simp only [requestOperation, held, if_true]
    refine Requested.busy ?_
    exact Option.isSome_iff_ne_none.mp held
  | false =>
    have idle : desk.composition.receiver = none := by
      simpa [CompositionState.busy] using held
    cases selected : ({ desk.composition with retained := [] } :
        CompositionState host).target with
    | none =>
      simp only [requestOperation, held, selected, Bool.false_eq_true, if_false]
      exact Requested.refused idle
    | some target =>
      cases crossed : ({ desk.composition with retained := [] } :
          CompositionState host).crosses target items legacy with
      | true =>
        simp only [requestOperation, held, selected, crossed, Bool.false_eq_true, if_false,
          if_true]
        exact Requested.refused idle
      | false =>
        have fits : desk.requests.Fits target items legacy := crosses_eq_false crossed
        simp only [requestOperation, held, selected, crossed, Bool.false_eq_true, if_false]
        cases starts with
        | true =>
          have asked : desk.requests.Requested items legacy change _ :=
            Requested.started idle target selected fits desk.composition.legacyPath
          cases empty : items.isEmpty <;> simp only [keep, empty] at asked <;> exact asked
        | false =>
          have kept : desk.requests.Requested items legacy change _ :=
            Requested.unstarted idle target selected fits
          have free : desk.requests.keep items target =
              { desk.requests.keep items target with receiver := none } := by
            simp only [keep, requests, idle]
          rw [free] at kept
          cases empty : items.isEmpty <;> simp only [keep, empty] at kept <;> exact kept

theorem confirmed (desk : DesktopCollection host) (rows : List (RetainedCompositionItem host)) :
    ((desk.withState (desk.composition.confirm rows)).requests = desk.requests.confirm rows ∧
      ∀ target, desk.requests.waitingFor = some target → desk.requests.target ≠ some target) ∨
    ∃ target, desk.requests.waitingFor = some target ∧ desk.requests.target = some target ∧
      (desk.withState (desk.composition.confirm rows)).requests =
        (desk.requests.confirm rows).settle target := by
  cases awaited : desk.composition.retryTarget with
  | none =>
    refine Or.inl ⟨?_, ?_⟩
    · simp only [requests, withState, CompositionState.confirm, CompositionState.settleRetry,
        CompositionState.target, CollectionRequests.confirm, awaited]
    · intro target waits
      cases awaited.symm.trans waits
  | some target =>
    by_cases selected : desk.composition.target = some target
    · refine Or.inr ⟨target, awaited, selected, ?_⟩
      have chosen : (desk.composition.selectedTarget.bind fun index =>
          desk.composition.targets[index]?) = some target := selected
      simp only [requests, withState, CompositionState.confirm, CompositionState.settleRetry,
        CompositionState.target, CollectionRequests.confirm, CollectionRequests.settle, awaited,
        chosen, if_true]
    · refine Or.inl ⟨?_, ?_⟩
      · have chosen : ¬(desk.composition.selectedTarget.bind fun index =>
            desk.composition.targets[index]?) = some target := selected
        simp only [requests, withState, CompositionState.confirm, CompositionState.settleRetry,
          CompositionState.target, CollectionRequests.confirm, awaited, chosen, if_false]
      · intro other waits same
        cases awaited.symm.trans waits
        exact selected same

theorem drained (desk : DesktopCollection host) :
    desk.drain.requests = desk.requests ∨ desk.requests.Drained desk.drain.requests := by
  cases held : desk.composition.receiver with
  | none =>
    simp only [drain, held]
    exact Or.inl trivial
  | some index =>
    cases found : desk.workers[index]? with
    | none =>
      simp only [drain, held, found]
      exact Or.inl trivial
    | some worker =>
      cases phase : worker.phase with
      | opens | retains | organizes | lists | received =>
        simp only [drain, held, found, phase]
        exact Or.inl trivial
      | gone =>
        simp only [drain, held, found, phase]
        exact Or.inr (Drained.lost held found phase)
      | sent result =>
        simp only [drain, held, found, phase]
        refine Or.inr ?_
        by_cases moved : worker.generation ≠ desk.composition.generation
        · rw [if_pos moved]
          exact Drained.stale held found phase moved
        · rw [if_neg moved]
          have current := Decidable.not_not.mp moved
          cases result with
          | error error => exact Drained.failed held found phase
          | ok rows =>
            rcases confirmed (desk.receive index worker (.ok rows)) rows with
              ⟨same, elsewhere⟩ | ⟨target, awaited, selected, same⟩
            · rw [same]
              exact Drained.listed held found phase current elsewhere
            · rw [same]
              exact Drained.settled held found phase current awaited selected

theorem requests_openMetre (desk : DesktopCollection host) (row : RetainedCompositionItem host) :
    (desk.openMetre row).requests = desk.requests := by
  unfold openMetre
  split
  · rfl
  · split <;> rfl

theorem requests_reopenRecipe (desk : DesktopCollection host) (row : RetainedCompositionItem host) :
    (desk.reopenRecipe row).requests = desk.requests := by
  unfold reopenRecipe
  split
  · rfl
  · split <;> rfl

theorem requests_press {desk : DesktopCollection host} {place : Nat}
    {act : RetainedCompositionItem host → DesktopCollection host}
    (same : ∀ row, (act row).requests = desk.requests) :
    (desk.press place act).requests = desk.requests := by
  unfold press
  split
  · exact same _
  · rfl

theorem saved_eq_ok {state : CompositionState host} {sent : OrganizeComposition}
    (saved : state.savedOrganization = .ok sent) :
    ∃ target change typed, state.organizationEdit = some (target, change) ∧
      state.target = some target ∧
      sent = { change with organization := typed } := by
  unfold CompositionState.savedOrganization at saved
  split at saved
  case isTrue => cases saved
  case isFalse =>
    split at saved
    case h_1 => cases saved
    case h_2 target change editing =>
      split at saved
      case isTrue => cases saved
      case isFalse selected =>
        split at saved
        case h_1 => cases saved
        case h_2 order parsed =>
          simp only at saved
          split at saved
          case h_1 => cases saved
          case h_2 =>
            cases saved
            exact ⟨target, change, _, editing, Decidable.not_not.mp selected, rfl⟩

theorem saves (desk : DesktopCollection host) (starts : Bool) :
    (desk.saveOrganizationEdit starts).requests = desk.requests ∨
      ∃ target change typed, desk.requests.editing = some (target, change) ∧
        desk.requests.target = some target ∧
        desk.saveOrganizationEdit starts =
          desk.requestOrganization { change with organization := typed } starts := by
  unfold saveOrganizationEdit
  cases saved : desk.composition.savedOrganization with
  | error notice =>
    cases notice with
    | none => exact Or.inl rfl
    | some notice => exact Or.inl rfl
  | ok sent =>
    obtain ⟨target, change, typed, editing, selected, rfl⟩ := saved_eq_ok saved
    exact Or.inr ⟨target, change, typed, editing, selected, rfl⟩

theorem moves (desk : DesktopCollection host) (action : CollectionAction host) :
    desk.Moves action (desk.step action).requests := by
  cases action with
  | setTargets targets => exact Moves.setTargets
  | selectTarget index starts =>
    cases held : desk.composition.busy with
    | true =>
      simp only [step, selectTarget, held, if_true]
      exact Moves.still
    | false =>
      have idle : desk.composition.receiver = none := by
        simpa [CompositionState.busy] using held
      simp only [step, selectTarget, held, Bool.false_eq_true, if_false]
      have asked := requested (desk.withState { desk.composition with
        generation := desk.composition.generation + 1
        selectedTarget := some index
        organizationEdit := none
        retained := [] }) [] false none starts
      exact Moves.selectTarget idle (desk.composition.targets[index]?) asked
  | collect item starts => exact Moves.collect (desk.requested [item] false none starts)
  | retry starts =>
    cases none_ : desk.composition.retryItems.isEmpty with
    | true =>
      simp only [step, retry, none_, if_true]
      exact Moves.still
    | false =>
      simp only [step, retry, none_, Bool.false_eq_true, if_false]
      exact Moves.retry (desk.requested _ false none starts)
  | refresh starts => exact Moves.refresh (desk.requested [] false none starts)
  | importLegacy starts => exact Moves.importLegacy (desk.requested [] true none starts)
  | archive place starts =>
    cases pressed : desk.composition.visible[place]? with
    | none =>
      simp only [step, press, pressed]
      exact Moves.still
    | some row =>
      cases held : desk.composition.busy with
      | true =>
        simp only [step, press, pressed, archive, held, if_true]
        exact Moves.still
      | false =>
        simp only [step, press, pressed, archive, held, Bool.false_eq_true, if_false]
        exact Moves.archive pressed ⟨rfl, rfl, rfl⟩ (desk.requested [] false _ starts)
  | startOrganizationEdit place =>
    cases pressed : desk.composition.visible[place]? with
    | none =>
      simp only [step, press, pressed]
      exact Moves.still
    | some row =>
      cases held : desk.composition.busy with
      | true =>
        simp only [step, press, pressed, CompositionState.startOrganizationEdit, held,
          if_true]
        exact Moves.still
      | false =>
        cases selected : desk.composition.target with
        | none =>
          simp only [step, press, pressed, CompositionState.startOrganizationEdit, held,
            selected, Bool.false_eq_true, if_false]
          exact Moves.still
        | some target =>
          simp only [step, press, pressed, CompositionState.startOrganizationEdit, held,
            selected, Bool.false_eq_true, if_false]
          exact Moves.begins pressed selected
  | saveOrganizationEdit starts =>
    rcases desk.saves starts with same | ⟨target, change, typed, editing, selected, same⟩
    · simp only [step, same]
      exact Moves.still
    · simp only [step, same]
      exact Moves.saves editing selected (desk.requested [] false _ starts)
  | cancelOrganizationEdit => exact Moves.cancels
  | drain =>
    rcases desk.drained with same | drained
    · simp only [step, same]
      exact Moves.still
    · exact Moves.drain drained
  | work index answer =>
    simp only [step, work]
    split
    · exact Moves.still
    · rename_i worker found
      exact Moves.work found
  | startMetre scene =>
    simp only [step]
    split <;> exact Moves.still
  | openMetre row =>
    rw [step, requests_press desk.requests_openMetre]
    exact Moves.still
  | reopenRecipe row =>
    rw [step, requests_press desk.requests_reopenRecipe]
    exact Moves.still
  | _ => exact Moves.still

end DesktopCollection

end KnotEditor.Desktop
