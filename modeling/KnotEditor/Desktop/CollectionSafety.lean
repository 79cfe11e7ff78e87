import KnotEditor.Desktop.CollectionMarks
import KnotEditor.Sync.RetentionSafety

/-! What the collection promises over every run of it, and the three places where it promises less
than it seems to. -/

namespace KnotEditor.Desktop

open CollectionRequests DesktopCollection

variable {host : CollectionHost}

/-- The rows on show are the list the last request brought back, of the destination it was asked of
and with a receipt for each row. -/
structure Listed (desk : DesktopCollection host) (worker : CollectionWorker host)
    (rows : List (RetainedCompositionItem host)) : Prop where
  idle : desk.composition.receiver = none
  last : desk.workers.getLast? = some worker
  heard : worker.phase = .received (.ok rows)
  shown : desk.composition.retained = RetainedCompositionItem.sort rows
  same : desk.composition.retained.Perm rows
  receipted : ∀ row ∈ rows, row.Receipted worker.target
  selected : desk.composition.target = some worker.target ∨
    desk.composition.target = none ∧ 2 ^ 64 ≤ desk.changes

structure Confirms (start : DesktopCollection host) (actions : List (CollectionAction host)) :
    Prop where
  alone : ∀ (first second : Nat) worker other, (start.run actions).workers[first]? = some worker →
    (start.run actions).workers[second]? = some other → worker.inFlight = true →
    other.inFlight = true → first = second
  rows : (start.run actions).composition.retained = [] ∨
    ∃ worker rows, Listed (start.run actions) worker rows
  kept : ∀ (index : Nat) worker, (start.run actions).workers[index]? = some worker →
    ∀ item ∈ worker.items,
      (item ∈ (start.run actions).composition.retryItems ∧
        (start.run actions).composition.retryTarget = some worker.target) ∨
      ConfirmedSince (start.run actions).workers index worker.target item
  only : ∀ worker ∈ (start.run actions).workers, ∀ item rest,
    worker.phase = .retains item rest → (start.run actions).composition.retryItems ≠ [] →
    item ∈ (start.run actions).composition.retryItems ∧
      (start.run actions).composition.retryTarget = some worker.target
  organized : ∀ worker ∈ (start.run actions).workers, ∀ change,
    worker.phase = .organizes change → Began start actions worker.target change
  marked : ∀ before action, before ++ [action] <+: actions →
    MarksShown (start.run before).composition ((start.run before).step action).composition

section Runs

variable {start : DesktopCollection host} {actions : List (CollectionAction host)}

theorem Sound.listed (sound : Sound start actions (start.run actions).requests) :
    (start.run actions).composition.retained = [] ∨
      ∃ worker rows, Listed (start.run actions) worker rows := by
  cases filled : (start.run actions).composition.retained with
  | nil => exact Or.inl rfl
  | cons first rest =>
    have some_ : (start.run actions).requests.shown ≠ [] := by
      rw [requests, filled]
      exact List.cons_ne_nil first rest
    rcases sound.shown with none_ | ⟨worker, rows, last, heard, shown, selected⟩
    · exact absurd none_ some_
    · have idle : (start.run actions).composition.receiver = none := by
        by_contra held
        exact some_ (sound.hidden held)
      have coherent := sound.coherent worker (List.mem_of_getLast? last)
      unfold CollectionWorker.Coherent at coherent
      rw [heard] at coherent
      refine Or.inr ⟨worker, rows, idle, last, heard, shown, ?_, coherent rows rfl, selected⟩
      have sorted : (start.run actions).composition.retained =
        RetainedCompositionItem.sort rows := shown
      rw [sorted]
      exact List.mergeSort_perm _ _

theorem Sound.submits (sound : Sound start actions (start.run actions).requests)
    {worker : CollectionWorker host} (member : worker ∈ (start.run actions).workers)
    {item : host.Item} {rest : List host.Item} (retaining : worker.phase = .retains item rest)
    (waiting : (start.run actions).composition.retryItems ≠ []) :
    item ∈ (start.run actions).composition.retryItems ∧
      (start.run actions).composition.retryTarget = some worker.target := by
  obtain ⟨index, found⟩ := List.mem_iff_getElem?.mp member
  have flies : worker.inFlight = true :=
    CollectionWorker.inFlight_of_calls (by rw [retaining]; rfl)
  have known := sound.current index worker (sound.alone index worker found flies) found
  have coherent := sound.coherent worker member
  unfold CollectionWorker.Coherent at coherent
  rw [retaining] at coherent
  rcases coherent with legacy | own
  · exact absurd (known.legacy legacy) waiting
  · have submitted := own List.mem_cons_self
    obtain ⟨same, target⟩ := known.waiting (List.ne_nil_of_mem submitted)
    have waits : (start.run actions).composition.retryItems = worker.items := same
    rw [waits]
    exact ⟨submitted, target⟩

end Runs

theorem collection_keeps_unconfirmed (legacyPath : Option String)
    (actions : List (CollectionAction host)) (fresh : FreshIds actions) :
    Confirms (CompositionState.configured host legacyPath) actions := by
  have sound := sound_run legacyPath actions fresh
  refine ⟨?_, sound.listed, sound.kept, ?_, ?_, ?_⟩
  · intro first second worker other listed found flies alsoFlies
    have held := sound.alone first worker listed flies
    exact Option.some.inj (held.symm.trans (sound.alone second other found alsoFlies))
  · intro worker member item rest retaining waiting
    exact sound.submits member retaining waiting
  · intro worker member change organizing
    have coherent := sound.coherent worker member
    unfold CollectionWorker.Coherent at coherent
    rw [organizing] at coherent
    exact sound.changing worker member change coherent
  · intro before action _
    exact marksShown_step _ action

section Sample

def CollectionHost.sample : CollectionHost where
  toRetentionHost := .sample []
  sceneRevision _ := "first"
  scenePositions _ := .ok ()
  toLowercase := id

instance : DecidableEq CollectionHost.sample.Item :=
  inferInstanceAs (DecidableEq (CollectionItem Unit Unit))

def note : CollectionHost.sample.Item := noteItem "note"

def garden : KnotRetainTargetV1 where
  persona := { stableId := "persona-1", label := "Gardener" }
  spaceId := .filled 1
  writer := .filled 10
  encryption := .personalVaultV1

def orchard : KnotRetainTargetV1 := { garden with spaceId := .filled 2 }

def noteRow (target : KnotRetainTargetV1) : RetainedCompositionItem .sample where
  item := note
  author := target.writer
  receipt := { target, itemId := "note", operation := .filled 3, alreadyRetained := false }
  organization := .fromItem (noteItem "note")
  organizationRevision := .filled 3

def collectionWindow : DesktopCollection .sample :=
  CompositionState.configured .sample (some "collection.json")

def gardenListed (rows : List (RetainedCompositionItem .sample)) :
    List (CollectionAction .sample) :=
  [.setTargets [garden, orchard], .selectTarget 0 true, .work 0 (.listed (.ok rows))]

def noteUnheard : List (CollectionAction .sample) :=
  gardenListed [] ++ [.drain, .collect note true, .work 1 (.receipt (.error "offline")), .drain,
    .selectTarget 1 true, .work 2 (.listed (.ok [noteRow orchard])), .drain]

theorem collection_keeps_unconfirmed_note :
    (FreshIds noteUnheard ∧ Confirms collectionWindow noteUnheard) ∧
      (collectionWindow.run noteUnheard).composition.retryItems = [note] :=
  ⟨⟨by decide, collection_keeps_unconfirmed (some "collection.json") noteUnheard (by decide)⟩,
    by decide⟩

def noteImported : List (CollectionAction .sample) :=
  gardenListed [] ++ [.drain, .importLegacy true, .work 1 (.opened true (.ok [note]))]

def gardenReplaced : List (CollectionAction .sample) :=
  gardenListed [noteRow garden] ++ List.replicate (2 ^ 64) (.setTargets [orchard])

def WorkerPhase.retaining : WorkerPhase host → Option host.Item
  | retains item _ => some item
  | _ => none

def WorkerPhase.organizing : WorkerPhase host → Bool
  | organizes _ => true
  | _ => false

def WorkerPhase.heard : WorkerPhase host → List (RetainedCompositionItem host)
  | received (.ok rows) => rows
  | _ => []

theorem run_append (desk : DesktopCollection host) (front back : List (CollectionAction host)) :
    desk.run (front ++ back) = (desk.run front).run back :=
  List.foldl_append

theorem run_singleton (desk : DesktopCollection host) (action : CollectionAction host) :
    desk.run [action] = desk.step action := rfl

theorem run_replaced (desk : DesktopCollection host) (targets : List KnotRetainTargetV1)
    (count : Nat) :
    desk.run (List.replicate (count + 1) (.setTargets targets)) =
      { desk with
        composition := { desk.composition.setTargets targets with
          generation := desk.composition.generation + UInt64.ofNat (count + 1) }
        changes := desk.changes + (count + 1) } := by
  induction count with
  | zero => rfl
  | succ count ih =>
    have counted : UInt64.ofNat (count + 1 + 1) = UInt64.ofNat (count + 1) + 1 :=
      UInt64.ofNat_add _ _
    rw [List.replicate_succ', run_append, run_singleton, ih, counted, ← UInt64.add_assoc]
    rfl

theorem run_wrapped (desk : DesktopCollection host) (targets : List KnotRetainTargetV1)
    {count : Nat} (some_ : 0 < count) (wraps : UInt64.ofNat count = 0) :
    desk.run (List.replicate count (.setTargets targets)) =
      { desk with
        composition := { desk.composition.setTargets targets with
          generation := desk.composition.generation }
        changes := desk.changes + count } := by
  obtain ⟨before, rfl⟩ := Nat.exists_eq_succ_of_ne_zero some_.ne'
  rw [run_replaced, wraps, UInt64.add_zero]

/-- Rows can be on show with no destination selected; an imported item does not wait for its
confirmation; and while an item waits a change of the organization goes to another destination. -/
theorem collection_promises_less :
    ((collectionWindow.run (gardenReplaced ++ [.drain])).composition.receiver = none ∧
      (collectionWindow.run (gardenReplaced ++ [.drain])).composition.target = none ∧
      (collectionWindow.run (gardenReplaced ++ [.drain])).composition.retained.map
        RetainedCompositionItem.item = [note]) ∧
    (((collectionWindow.run noteImported).workers.getLast?.bind fun worker =>
        worker.phase.retaining) = some note ∧
      (collectionWindow.run noteImported).composition.retryItems = [] ∧
      ((collectionWindow.run noteImported).workers.flatMap fun worker =>
        worker.phase.heard).isEmpty = true) ∧
    ((collectionWindow.run (noteUnheard ++ [.archive 0 true])).composition.retryItems = [note] ∧
      (collectionWindow.run (noteUnheard ++ [.archive 0 true])).composition.retryTarget =
        some garden ∧
      ((collectionWindow.run (noteUnheard ++ [.archive 0 true])).workers.getLast?.any
        fun worker => worker.phase.organizing && decide (worker.target = orchard)) = true) := by
  refine ⟨?_, by decide +kernel, by decide +kernel⟩
  have wraps : UInt64.ofNat (2 ^ 64) = 0 := by decide +kernel
  rw [gardenReplaced, run_append, run_append, run_singleton,
    run_wrapped _ _ (Nat.two_pow_pos 64) wraps]
  decide +kernel

end Sample

end KnotEditor.Desktop
