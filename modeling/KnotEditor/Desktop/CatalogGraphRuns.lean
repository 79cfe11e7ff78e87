import KnotEditor.Desktop.CatalogGraph
import KnotEditor.Library.Run
import Mathlib.Data.List.Pairwise

/-! The catalog graph over any run of calls and worker steps: what is shown was read for the last
request that was accepted. -/

namespace KnotEditor.Desktop

variable {reader : CatalogReader}

def GraphAction.asks : GraphAction reader → Option (String × KnotFileCatalogSnapshot)
  | .start (some (catalog, records)) maxBytes _ =>
    some (GraphState.signature reader records maxBytes, catalog)
  | _ => none

def SignaturesTell (actions : List (GraphAction reader)) : Prop :=
  ∀ action ∈ actions, ∀ other ∈ actions, ∀ text left right,
    action.asks = some (text, left) → other.asks = some (text, right) → left = right

namespace GraphState

def ReadFrom (catalog : KnotFileCatalogSnapshot) (reading : reader.Reading) : Prop :=
  ∃ maxBytes disk, reading = reader.readCatalog catalog maxBytes disk

structure Consistent (graph : GraphState reader) : Prop where
  oneWorker : graph.receiver.isSome = graph.running.isSome
  queuedBehind : ∀ request, graph.queued = some request →
    graph.receiver.isSome = true ∧ request.generation = graph.desiredGeneration
  spawnedOnce : (graph.spawned.map CatalogRequest.generation).Nodup
  waitedOnce : (graph.waited.map CatalogRequest.generation).Nodup
  ownGeneration : ∀ request ∈ graph.spawned, ∀ other ∈ graph.waited,
    request.generation = other.generation → request = other
  latest : graph.configured = true → graph.receiver = none → ∀ reading,
    graph.reading = some reading →
      ∃ catalog, graph.accepted = some catalog ∧ ReadFrom catalog reading
  exhausted : graph.generationExhausted = true → graph.reading = none

structure Follows (graph : GraphState reader) (action : GraphAction reader) : Prop where
  grows : graph.desiredGeneration ≤ (graph.step action).desiredGeneration
  installs : ∀ reading, (graph.step action).reading = some reading →
    graph.reading = some reading ∨
      graph.reading = none ∧ graph.configured = true ∧ graph.generationExhausted = false ∧
        ∃ completion, graph.receiver = some (.sent completion) ∧ completion.reading = reading ∧
          completion.generation = graph.desiredGeneration ∧
            (graph.step action).desiredGeneration = graph.desiredGeneration
  exhausted : graph.generationExhausted = true →
    (graph.step action).generationExhausted = true ∧ (graph.step action).reading = none

structure Ordered (graph : GraphState reader) : Prop where
  spawnedBelow : ∀ request ∈ graph.spawned, request.generation ≤ graph.desiredGeneration
  waitedBelow : ∀ request ∈ graph.waited, request.generation ≤ graph.desiredGeneration
  spawnedOrder : (graph.spawned.map CatalogRequest.generation).Pairwise (· < ·)
  waitedOrder : (graph.waited.map CatalogRequest.generation).Pairwise (· < ·)
  ownGeneration : ∀ request ∈ graph.spawned, ∀ other ∈ graph.waited,
    request.generation = other.generation → request = other

/-- The invariant of every run; `asked` are the run's signatures with their snapshots. -/
structure Sound (asked : String → KnotFileCatalogSnapshot → Prop) (graph : GraphState reader) :
    Prop where
  ordered : graph.Ordered
  oneWorker : graph.receiver.isSome = graph.running.isSome
  waiting : ∀ request, graph.queued = some request →
    graph.receiver.isSome = true ∧ request.generation = graph.desiredGeneration ∧
      graph.accepted = some request.catalog ∧ request ∈ graph.waited ∧
        ∀ earlier ∈ graph.spawned, earlier.generation < request.generation
  cleared : graph.receiver.isSome = true → graph.reading = none
  exhausted : graph.generationExhausted = true → graph.reading = none
  reads : ∀ request, graph.receiver = some (.reads request) →
    request.generation ≤ graph.desiredGeneration ∧
      (request.generation = graph.desiredGeneration → graph.accepted = some request.catalog)
  sent : ∀ completion, graph.receiver = some (.sent completion) →
    completion.generation ≤ graph.desiredGeneration ∧
      (completion.generation = graph.desiredGeneration →
        ∃ catalog, graph.accepted = some catalog ∧ ReadFrom catalog completion.reading)
  shown : ∀ reading, graph.reading = some reading →
    ∃ catalog, graph.accepted = some catalog ∧ ReadFrom catalog reading
  signed : ∀ text, graph.requestedSignature = some text →
    ∃ catalog, graph.accepted = some catalog ∧ asked text catalog

variable {asked : String → KnotFileCatalogSnapshot → Prop} {graph : GraphState reader}

theorem Ordered.nodup_spawned (ordered : graph.Ordered) :
    (graph.spawned.map CatalogRequest.generation).Nodup :=
  ordered.spawnedOrder.imp Nat.ne_of_lt

theorem Ordered.nodup_waited (ordered : graph.Ordered) :
    (graph.waited.map CatalogRequest.generation).Nodup :=
  ordered.waitedOrder.imp Nat.ne_of_lt

theorem consistent (sound : graph.Sound asked) : graph.Consistent where
  oneWorker := sound.oneWorker
  queuedBehind request waits := ⟨(sound.waiting request waits).1, (sound.waiting request waits).2.1⟩
  spawnedOnce := sound.ordered.nodup_spawned
  waitedOnce := sound.ordered.nodup_waited
  ownGeneration := sound.ordered.ownGeneration
  latest _ _ := sound.shown
  exhausted := sound.exhausted

theorem pairwise_append_last {generations : List Nat} {last : Nat}
    (order : generations.Pairwise (· < ·)) (below : ∀ earlier ∈ generations, earlier < last) :
    (generations ++ [last]).Pairwise (· < ·) := by
  refine List.pairwise_append.mpr ⟨order, List.pairwise_singleton _ _, ?_⟩
  intro earlier member other single
  rw [List.mem_singleton.mp single]
  exact below earlier member

theorem eq_of_waited_generation (ordered : graph.Ordered) {request other : CatalogRequest}
    (member : request ∈ graph.waited) (memberOther : other ∈ graph.waited)
    (same : request.generation = other.generation) : request = other :=
  List.inj_on_of_nodup_map ordered.nodup_waited member memberOther same

theorem advanceGeneration_cases (graph : GraphState reader) :
    graph.generationExhausted = false ∧ graph.advanceGeneration =
        ({ graph with desiredGeneration := graph.desiredGeneration + 1 }, true) ∨
      graph.advanceGeneration =
        ({ graph with
            generationExhausted := true
            queued := none
            reading := none
            installed := none
            requestedSignature := none
            notice := some "The catalog graph request identity is exhausted." }, false) := by
  by_cases left : (!graph.generationExhausted &&
      decide (graph.desiredGeneration + 1 < generationLimit)) = true
  · refine .inl ⟨?_, ?_⟩
    · rw [Bool.and_eq_true, Bool.not_eq_true'] at left
      exact left.1
    · rw [advanceGeneration, if_pos left]
  · refine .inr ?_
    rw [advanceGeneration, if_neg left]
    rfl

theorem sound_exhaust (sound : graph.Sound asked) :
    ({ graph with
        generationExhausted := true
        queued := none
        reading := none
        installed := none
        requestedSignature := none
        notice := some "The catalog graph request identity is exhausted." } :
      GraphState reader).Sound asked where
  ordered := ⟨sound.ordered.spawnedBelow, sound.ordered.waitedBelow, sound.ordered.spawnedOrder,
    sound.ordered.waitedOrder, sound.ordered.ownGeneration⟩
  oneWorker := sound.oneWorker
  waiting := by
    intro request waits
    cases waits
  cleared _ := rfl
  exhausted _ := rfl
  reads := sound.reads
  sent := sound.sent
  shown := by
    intro reading shows
    cases shows
  signed := by
    intro text signs
    cases signs

theorem sound_spawn (sound : graph.Sound asked) (request : CatalogRequest) (starts : Bool)
    (current : request.generation = graph.desiredGeneration)
    (accepted : graph.accepted = some request.catalog)
    (newest : ∀ earlier ∈ graph.spawned, earlier.generation < request.generation)
    (own : ∀ other ∈ graph.waited, request.generation = other.generation → request = other)
    (alone : graph.queued = none) : (graph.spawn request starts).Sound asked := by
  have ordered : ({ graph with spawned := graph.spawned ++ [request] } :
      GraphState reader).Ordered := by
    refine ⟨?_, sound.ordered.waitedBelow, ?_, sound.ordered.waitedOrder, ?_⟩
    · intro member held
      rcases List.mem_append.mp held with earlier | single
      · exact sound.ordered.spawnedBelow member earlier
      · rw [List.mem_singleton.mp single]
        exact current.le
    · rw [List.map_append]
      refine pairwise_append_last sound.ordered.spawnedOrder ?_
      intro generation member
      rcases List.mem_map.mp member with ⟨earlier, held, rfl⟩
      exact newest earlier held
    · intro member held other waits same
      rcases List.mem_append.mp held with earlier | single
      · exact sound.ordered.ownGeneration member earlier other waits same
      · rw [List.mem_singleton.mp single] at same ⊢
        exact own other waits same
  have unqueued : ∀ waits, graph.queued = some waits → False := by
    intro waits queued
    rw [alone] at queued
    cases queued
  cases starts with
  | true =>
    refine ⟨⟨ordered.1, ordered.2, ordered.3, ordered.4, ordered.5⟩, rfl, ?_, fun _ => rfl,
      fun _ => rfl, ?_, ?_, ?_, sound.signed⟩
    · intro waits queued
      exact (unqueued waits queued).elim
    · intro flying started
      cases started
      exact ⟨current.le, fun _ => accepted⟩
    · intro completion sent
      cases sent
    · intro reading shows
      cases shows
  | false =>
    refine ⟨⟨ordered.1, ordered.2, ordered.3, ordered.4, ordered.5⟩, rfl, ?_, fun _ => rfl,
      fun _ => rfl, ?_, ?_, ?_, sound.signed⟩
    · intro waits queued
      exact (unqueued waits queued).elim
    · intro flying started
      cases started
    · intro completion sent
      cases sent
    · intro reading shows
      cases shows

theorem sound_ask (sound : graph.Sound asked) (catalog : KnotFileCatalogSnapshot) (maxBytes : Nat)
    (text : String) (starts : Bool) (asks : asked text catalog) :
    let request : CatalogRequest := ⟨catalog, maxBytes, graph.desiredGeneration + 1⟩
    let asking := { graph with
      invalidated := false
      desiredGeneration := graph.desiredGeneration + 1
      requestedSignature := some text
      accepted := some catalog }
    (if asking.receiver.isSome then
        { asking.discardQueued with queued := some request, waited := asking.waited ++ [request] }
      else asking.spawn request starts).Sound asked := by
  intro request asking
  have newest : ∀ earlier ∈ graph.spawned, earlier.generation < request.generation :=
    fun earlier member => Nat.lt_succ_of_le (sound.ordered.spawnedBelow earlier member)
  have unwaited : ∀ earlier ∈ graph.waited, earlier.generation < request.generation :=
    fun earlier member => Nat.lt_succ_of_le (sound.ordered.waitedBelow earlier member)
  have signed : ∀ other, some text = some other →
      ∃ catalog', some catalog = some catalog' ∧ asked other catalog' := by
    intro other same
    cases same
    exact ⟨catalog, rfl, asks⟩
  have reads : ∀ flying, graph.receiver = some (.reads flying) →
      flying.generation ≤ graph.desiredGeneration + 1 ∧
        (flying.generation = graph.desiredGeneration + 1 →
          some catalog = some flying.catalog) := by
    intro flying flies
    have old := (sound.reads flying flies).1
    exact ⟨by omega, by omega⟩
  have sent : ∀ completion, graph.receiver = some (.sent completion) →
      completion.generation ≤ graph.desiredGeneration + 1 ∧
        (completion.generation = graph.desiredGeneration + 1 →
          ∃ other, some catalog = some other ∧ ReadFrom other completion.reading) := by
    intro completion answered
    have old := (sound.sent completion answered).1
    exact ⟨by omega, by omega⟩
  by_cases busy : graph.receiver.isSome = true
  · rw [if_pos busy]
    refine ⟨⟨?_, ?_, sound.ordered.spawnedOrder, ?_, ?_⟩, sound.oneWorker, ?_, sound.cleared,
      sound.exhausted, reads, sent, ?_, signed⟩
    · intro earlier member
      exact (newest earlier member).le
    · intro earlier member
      rcases List.mem_append.mp member with old | single
      · exact (unwaited earlier old).le
      · rw [List.mem_singleton.mp single]
        exact Nat.le_refl (graph.desiredGeneration + 1)
    · rw [List.map_append]
      refine pairwise_append_last sound.ordered.waitedOrder ?_
      intro generation member
      rcases List.mem_map.mp member with ⟨earlier, held, rfl⟩
      exact unwaited earlier held
    · intro earlier member other waits same
      rcases List.mem_append.mp waits with old | single
      · exact sound.ordered.ownGeneration earlier member other old same
      · rw [List.mem_singleton.mp single] at same
        exact absurd same (newest earlier member).ne
    · intro waits queued
      cases queued
      exact ⟨busy, rfl, rfl, List.mem_append_right _ (List.mem_singleton_self _), newest⟩
    · intro reading shows
      exact absurd ((sound.cleared busy).symm.trans shows) (by simp)
  · rw [if_neg busy]
    have idle : graph.queued = none := by
      cases queued : graph.queued with
      | none => rfl
      | some waits => exact absurd (sound.waiting waits queued).1 busy
    have prepared : ({ asking with reading := none } : GraphState reader).Sound asked := by
      refine ⟨⟨fun earlier member => (newest earlier member).le,
        fun earlier member => (unwaited earlier member).le, sound.ordered.spawnedOrder,
        sound.ordered.waitedOrder, sound.ordered.ownGeneration⟩, sound.oneWorker, ?_,
        fun _ => rfl, fun _ => rfl, reads, sent, ?_, signed⟩
      · intro waits queued
        rw [show graph.queued = some waits from queued] at idle
        cases idle
      · intro reading shows
        cases shows
    refine sound_spawn prepared request starts rfl rfl newest ?_ idle
    intro other member same
    exact absurd same.symm (unwaited other member).ne

theorem sound_request (sound : graph.Sound asked) (catalog : KnotFileCatalogSnapshot)
    (maxBytes : Nat) (text : String) (starts : Bool) (asks : asked text catalog)
    (tells : ∀ left right, asked text left → asked text right → left = right) :
    (graph.request catalog maxBytes text starts).Sound asked := by
  rw [request]
  split
  · rename_i known
    simp only [Bool.and_eq_true, decide_eq_true_eq] at known
    rcases sound.signed text known.1.2 with ⟨before, accepted, askedBefore⟩
    have same : ({ graph with accepted := some catalog } : GraphState reader) = graph := by
      rw [tells catalog before asks askedBefore, ← accepted]
    rw [same]
    exact sound
  · have uninvalidated : ({ graph with invalidated := false } : GraphState reader).Sound asked :=
      ⟨⟨sound.1.1, sound.1.2, sound.1.3, sound.1.4, sound.1.5⟩, sound.2, sound.3, sound.4, sound.5,
        sound.6, sound.7, sound.8, sound.9⟩
    rcases advanceGeneration_cases { graph with invalidated := false } with
      ⟨_, advanced⟩ | exhausted
    · rw [advanced]
      exact sound_ask sound catalog maxBytes text starts asks
    · rw [exhausted]
      exact sound_exhaust uninvalidated

theorem Sound.congr (sound : graph.Sound asked) (configured wake invalidated : Bool)
    (notice : Option String) :
    ({ graph with
        configured := configured
        wake := wake
        invalidated := invalidated
        notice := notice } : GraphState reader).Sound asked :=
  ⟨⟨sound.1.1, sound.1.2, sound.1.3, sound.1.4, sound.1.5⟩, sound.2, sound.3, sound.4, sound.5,
    sound.6, sound.7, sound.8, sound.9⟩

theorem sound_unsigned (sound : graph.Sound asked) :
    ({ graph with requestedSignature := none } : GraphState reader).Sound asked := by
  refine ⟨⟨sound.1.1, sound.1.2, sound.1.3, sound.1.4, sound.1.5⟩, sound.2, sound.3, sound.4,
    sound.5, sound.6, sound.7, sound.8, ?_⟩
  intro text signs
  cases signs

theorem sound_advanceGeneration (sound : graph.Sound asked)
    (spent : graph.generationExhausted = true) : graph.advanceGeneration.1.Sound asked := by
  rcases advanceGeneration_cases graph with ⟨remains, _⟩ | exhausted
  · rw [spent] at remains
    cases remains
  · rw [exhausted]
    exact sound_exhaust sound

theorem sound_withdraw (sound : graph.Sound asked) : graph.withdraw.Sound asked := by
  rw [withdraw]
  have configured := sound.congr false graph.wake graph.invalidated none
  rcases advanceGeneration_cases { graph with configured := false, notice := none } with
    ⟨_, advanced⟩ | exhausted
  · rw [advanced]
    refine ⟨⟨?_, ?_, sound.ordered.spawnedOrder, sound.ordered.waitedOrder,
      sound.ordered.ownGeneration⟩, sound.oneWorker, ?_, fun _ => rfl, fun _ => rfl, ?_, ?_, ?_,
      ?_⟩
    · intro request member
      exact (sound.ordered.spawnedBelow request member).trans (Nat.le_succ _)
    · intro request member
      exact (sound.ordered.waitedBelow request member).trans (Nat.le_succ _)
    · intro request queued
      cases queued
    · intro request flies
      have old := (sound.reads request flies).1
      exact ⟨old.trans (Nat.le_succ _), fun same => absurd same (Nat.lt_succ_of_le old).ne⟩
    · intro completion answered
      have old := (sound.sent completion answered).1
      exact ⟨old.trans (Nat.le_succ _), fun same => absurd same (Nat.lt_succ_of_le old).ne⟩
    · intro reading shows
      cases shows
    · intro text signs
      cases signs
  · rw [exhausted]
    exact sound_exhaust configured

theorem sound_startWithCause (sound : graph.Sound asked)
    (catalog : Option (KnotFileCatalogSnapshot × List KnotFileCatalogRecord)) (maxBytes : Nat)
    (starts : Bool)
    (asks : ∀ text snapshot,
      (GraphAction.start catalog maxBytes starts : GraphAction reader).asks = some (text, snapshot) →
        asked text snapshot)
    (tells : ∀ text left right, asked text left → asked text right → left = right) :
    (graph.startWithCause catalog maxBytes starts).Sound asked := by
  cases catalog with
  | none => exact sound_withdraw sound
  | some given =>
    rw [startWithCause]
    have configured := sound.congr true graph.wake graph.invalidated none
    by_cases spent : graph.generationExhausted = true
    · rw [if_pos spent]
      exact sound_advanceGeneration configured spent
    · rw [if_neg spent]
      split
      · exact sound_unsigned configured
      · exact sound_request configured given.1 maxBytes _ starts (asks _ _ rfl) (tells _)

theorem sound_drained (sound : graph.Sound asked) (reading : Option reader.Reading)
    (installed : Option Nat) (notice : Option String)
    (shown : ∀ found, reading = some found →
      ∃ catalog, graph.accepted = some catalog ∧ ReadFrom catalog found)
    (exhausted : graph.generationExhausted = true → reading = none) :
    ({ graph with
        receiver := none
        running := none
        queued := none
        reading := reading
        installed := installed
        notice := notice } : GraphState reader).Sound asked := by
  refine ⟨⟨sound.1.1, sound.1.2, sound.1.3, sound.1.4, sound.1.5⟩, rfl, ?_, ?_, exhausted,
    ?_, ?_, shown, sound.signed⟩
  · intro request queued
    cases queued
  · intro busy
    cases busy
  · intro other flies
    cases flies
  · intro completion answered
    cases answered

theorem sound_next (sound : graph.Sound asked) (request : CatalogRequest) (starts : Bool)
    (queued : graph.queued = some request) :
    (({ graph with receiver := none, running := none, queued := none } :
      GraphState reader).spawn request starts).Sound asked := by
  have waits := sound.waiting request queued
  have idle := sound_drained sound graph.reading graph.installed graph.notice sound.shown
    sound.exhausted
  refine sound_spawn idle request starts waits.2.1 waits.2.2.1 waits.2.2.2.2 ?_ rfl
  intro other member same
  exact eq_of_waited_generation sound.ordered waits.2.2.2.1 member same

theorem sound_drainCatalog (sound : graph.Sound asked) (starts : Bool) :
    (graph.drainCatalog starts).Sound asked := by
  rw [drainCatalog]
  cases worker : graph.receiver with
  | none => exact sound
  | some state =>
    have unshown : graph.reading = none := sound.cleared (by rw [worker]; rfl)
    cases state with
    | reads request => exact sound
    | sent completion =>
      cases queued : graph.queued with
      | some request => exact sound_next sound request starts queued
      | none =>
        simp only
        split
        · rename_i current
          simp only [Bool.and_eq_true, Bool.not_eq_true', decide_eq_true_eq] at current
          refine sound_drained sound _ _ graph.notice ?_ ?_
          · intro found installs
            cases installs
            exact (sound.sent completion worker).2 current.2
          · intro spent
            rw [current.1.2] at spent
            cases spent
        · exact sound_drained sound _ _ graph.notice sound.shown sound.exhausted
    | gone =>
      cases queued : graph.queued with
      | some request => exact sound_next sound request starts queued
      | none => exact sound_drained sound _ _ _ sound.shown sound.exhausted

theorem sound_complete (sound : graph.Sound asked) (disk : reader.Disk) :
    (graph.complete disk).Sound asked := by
  rw [complete]
  split
  · rename_i request worker
    have flying := sound.reads request worker
    have busy : graph.receiver.isSome = true := by rw [worker]; rfl
    refine ⟨⟨sound.1.1, sound.1.2, sound.1.3, sound.1.4, sound.1.5⟩, ?_, ?_, ?_, sound.exhausted,
      ?_, ?_, sound.shown, sound.signed⟩
    · exact busy.symm.trans sound.oneWorker
    · intro waits queued
      exact ⟨rfl, (sound.waiting waits queued).2⟩
    · intro _
      exact sound.cleared busy
    · intro other flies
      cases flies
    · intro completion answered
      cases answered
      refine ⟨flying.1, ?_⟩
      intro same
      exact ⟨request.catalog, flying.2 same, request.maxBytes, disk, rfl⟩
  · exact sound

theorem sound_disconnect (sound : graph.Sound asked) : graph.disconnect.Sound asked := by
  rw [disconnect]
  split
  · rename_i request worker
    have busy : graph.receiver.isSome = true := by rw [worker]; rfl
    refine ⟨⟨sound.1.1, sound.1.2, sound.1.3, sound.1.4, sound.1.5⟩, ?_, ?_, ?_, sound.exhausted,
      ?_, ?_, sound.shown, sound.signed⟩
    · exact busy.symm.trans sound.oneWorker
    · intro waits queued
      exact ⟨rfl, (sound.waiting waits queued).2⟩
    · intro _
      exact sound.cleared busy
    · intro other flies
      cases flies
    · intro completion answered
      cases answered
  · exact sound

theorem sound_step (sound : graph.Sound asked) (action : GraphAction reader)
    (asks : ∀ text snapshot, action.asks = some (text, snapshot) → asked text snapshot)
    (tells : ∀ text left right, asked text left → asked text right → left = right) :
    (graph.step action).Sound asked := by
  cases action with
  | setWake => exact sound.congr graph.configured true graph.invalidated graph.notice
  | invalidateCatalog => exact sound.congr graph.configured graph.wake true graph.notice
  | start catalog maxBytes starts =>
    exact sound_startWithCause sound catalog maxBytes starts asks tells
  | drain starts => exact sound_drainCatalog sound starts
  | complete disk => exact sound_complete sound disk
  | disconnect => exact sound_disconnect sound

structure Quiet (graph after : GraphState reader) : Prop where
  grows : graph.desiredGeneration ≤ after.desiredGeneration
  reading : after.reading = graph.reading ∨ after.reading = none
  exhausted : graph.generationExhausted = true → after.generationExhausted = true

theorem quiet_spawn (graph : GraphState reader) (request : CatalogRequest) (starts : Bool) :
    Quiet graph (graph.spawn request starts) := by
  cases starts <;> exact ⟨Nat.le_refl _, .inr rfl, id⟩

theorem quiet_advanceGeneration (graph : GraphState reader) :
    Quiet graph graph.advanceGeneration.1 := by
  rcases advanceGeneration_cases graph with ⟨_, advanced⟩ | exhausted
  · rw [advanced]
    exact ⟨Nat.le_succ _, .inl rfl, id⟩
  · rw [exhausted]
    exact ⟨Nat.le_refl _, .inr rfl, fun _ => rfl⟩

theorem quiet_request (graph : GraphState reader) (catalog : KnotFileCatalogSnapshot)
    (maxBytes : Nat) (text : String)
    (starts : Bool) : Quiet graph (graph.request catalog maxBytes text starts) := by
  rw [request]
  split
  · exact ⟨Nat.le_refl _, .inl rfl, id⟩
  · rcases advanceGeneration_cases { graph with invalidated := false } with
      ⟨_, advanced⟩ | exhausted
    · rw [advanced]
      by_cases busy : graph.receiver.isSome = true
      · simp only [busy, if_true]
        exact ⟨Nat.le_succ _, .inl rfl, id⟩
      · simp only [busy]
        have spawned := quiet_spawn { graph with
          invalidated := false
          desiredGeneration := graph.desiredGeneration + 1
          requestedSignature := some text
          accepted := some catalog }
          ⟨catalog, maxBytes, graph.desiredGeneration + 1⟩ starts
        exact ⟨(Nat.le_succ _).trans spawned.grows, spawned.reading, spawned.exhausted⟩
    · rw [exhausted]
      exact ⟨Nat.le_refl _, .inr rfl, fun _ => rfl⟩

theorem quiet_startWithCause
    (catalog : Option (KnotFileCatalogSnapshot × List KnotFileCatalogRecord)) (maxBytes : Nat)
    (starts : Bool) : Quiet graph (graph.startWithCause catalog maxBytes starts) := by
  cases catalog with
  | none =>
    rw [startWithCause, withdraw]
    rcases advanceGeneration_cases { graph with configured := false, notice := none } with
      ⟨_, advanced⟩ | exhausted
    · rw [advanced]
      exact ⟨Nat.le_succ _, .inr rfl, id⟩
    · rw [exhausted]
      exact ⟨Nat.le_refl _, .inr rfl, fun _ => rfl⟩
  | some given =>
    rw [startWithCause]
    by_cases spent : graph.generationExhausted = true
    · rw [if_pos spent]
      have advanced := quiet_advanceGeneration { graph with configured := true, notice := none }
      exact ⟨advanced.grows, advanced.reading, advanced.exhausted⟩
    · rw [if_neg spent]
      split
      · exact ⟨Nat.le_refl _, .inl rfl, id⟩
      · have asked := quiet_request { graph with configured := true, notice := none }
          given.1 maxBytes (signature reader given.2 maxBytes) starts
        exact ⟨asked.grows, asked.reading, asked.exhausted⟩

theorem follows_of_quiet (action : GraphAction reader)
    (stays : (graph.step action).Sound asked) (quiet : Quiet graph (graph.step action)) :
    graph.Follows action where
  grows := quiet.grows
  installs reading shows := by
    rcases quiet.reading with same | none
    · exact .inl (same ▸ shows)
    · rw [none] at shows
      cases shows
  exhausted spent := ⟨quiet.exhausted spent, stays.exhausted (quiet.exhausted spent)⟩

theorem follows_drain (sound : graph.Sound asked) (starts : Bool)
    (stays : (graph.step (.drain starts)).Sound asked) :
    graph.Follows (.drain starts) := by
  have quietly : Quiet graph (graph.drainCatalog starts) → graph.Follows (.drain starts) :=
    follows_of_quiet (.drain starts) stays
  cases worker : graph.receiver with
  | none =>
    refine quietly ?_
    rw [drainCatalog, worker]
    exact ⟨Nat.le_refl _, .inl rfl, id⟩
  | some state =>
    have unshown : graph.reading = none := sound.cleared (by rw [worker]; rfl)
    have next : ∀ request, Quiet graph
        (({ graph with receiver := none, running := none, queued := none } :
          GraphState reader).spawn request starts) := by
      intro request
      have spawned := quiet_spawn { graph with
        receiver := none, running := none, queued := none } request starts
      exact ⟨spawned.grows, spawned.reading, spawned.exhausted⟩
    cases state with
    | reads request =>
      refine quietly ?_
      rw [drainCatalog, worker]
      exact ⟨Nat.le_refl _, .inl rfl, id⟩
    | gone =>
      refine quietly ?_
      rw [drainCatalog, worker]
      cases queued : graph.queued with
      | some request => exact next request
      | none => exact ⟨Nat.le_refl _, .inl rfl, id⟩
    | sent completion =>
      cases queued : graph.queued with
      | some request =>
        refine quietly ?_
        rw [drainCatalog, worker]
        simp only [queued]
        exact next request
      | none =>
        by_cases current : (graph.configured && !graph.generationExhausted &&
            decide (completion.generation = graph.desiredGeneration)) = true
        · have installed : graph.step (.drain starts) =
              { graph with
                receiver := none
                running := none
                installed := some completion.generation
                reading := some completion.reading } := by
            rw [step, drainCatalog, worker]
            simp only [queued, current, if_true]
          simp only [Bool.and_eq_true, Bool.not_eq_true', decide_eq_true_eq] at current
          refine ⟨?_, ?_, ?_⟩
          · rw [installed]
          · intro reading shows
            rw [installed] at shows ⊢
            cases shows
            exact .inr ⟨unshown, current.1.1, current.1.2, completion, worker, rfl,
              current.2, rfl⟩
          · intro spent
            rw [current.1.2] at spent
            cases spent
        · refine quietly ?_
          rw [drainCatalog, worker]
          simp only [queued, current]
          exact ⟨Nat.le_refl _, .inl rfl, id⟩

theorem follows (sound : graph.Sound asked) (action : GraphAction reader)
    (asks : ∀ text snapshot, action.asks = some (text, snapshot) → asked text snapshot)
    (tells : ∀ text left right, asked text left → asked text right → left = right) :
    graph.Follows action := by
  have stays := sound_step sound action asks tells
  cases action with
  | setWake => exact follows_of_quiet _ stays ⟨Nat.le_refl _, .inl rfl, id⟩
  | invalidateCatalog => exact follows_of_quiet _ stays ⟨Nat.le_refl _, .inl rfl, id⟩
  | start catalog maxBytes starts =>
    exact follows_of_quiet _ stays (quiet_startWithCause catalog maxBytes starts)
  | drain starts => exact follows_drain sound starts stays
  | complete disk =>
    refine follows_of_quiet _ stays ?_
    rw [step, complete]
    split <;> exact ⟨Nat.le_refl _, .inl rfl, id⟩
  | disconnect =>
    refine follows_of_quiet _ stays ?_
    rw [step, disconnect]
    split <;> exact ⟨Nat.le_refl _, .inl rfl, id⟩

theorem sound_initial : ({} : GraphState reader).Sound asked where
  ordered := ⟨by simp, by simp, List.Pairwise.nil, List.Pairwise.nil, by simp⟩
  oneWorker := rfl
  waiting := by simp
  cleared _ := rfl
  exhausted _ := rfl
  reads := by simp
  sent := by simp
  shown := by simp
  signed := by simp

abbrev listingReader : CatalogReader where
  Disk := Unit
  Reading := List String
  decideReading := inferInstance
  blake3 bytes := String.ofList (bytes.map fun byte => Char.ofNat byte.toNat)
  toStringLossy path := String.ofList (path.flatMap fun component =>
    match component with
    | .normal name => name.data.toList.map fun byte => Char.ofNat byte.toNat
    | _ => ['/'])
  readCatalog catalog _ _ := catalog.bindings.map StoredBinding.id

def shoreCatalog (name : String) : KnotFileCatalogSnapshot where
  root := [.rootDir, .normal "notes".toUTF8]
  bindings := [⟨"knot:document:" ++ name, [.normal name.toUTF8]⟩]

def asksShore (name : String) : GraphAction listingReader :=
  .start (some (shoreCatalog name, (shoreCatalog name).records fun _ => .available)) 64 true

def shoreActions : List (GraphAction listingReader) :=
  [.setWake, asksShore "dune", asksShore "reef", .complete (), .drain true, .complete (),
    .drain true]

theorem shore_signaturesTell : SignaturesTell shoreActions := by
  have asked : ∀ action ∈ shoreActions, ∀ text snapshot, action.asks = some (text, snapshot) →
      (text, snapshot) ∈ shoreActions.filterMap GraphAction.asks :=
    fun action member text snapshot asks => List.mem_filterMap.mpr ⟨action, member, asks⟩
  have listed : shoreActions.filterMap GraphAction.asks =
      ["dune", "reef"].map fun name =>
        (signature listingReader ((shoreCatalog name).records fun _ => .available) 64,
          shoreCatalog name) := rfl
  have differ : signature listingReader ((shoreCatalog "dune").records fun _ => .available) 64 ≠
      signature listingReader ((shoreCatalog "reef").records fun _ => .available) 64 := by
    decide
  intro action member other memberOther text left right asks asksOther
  have first := asked action member text left asks
  have second := asked other memberOther text right asksOther
  rw [listed] at first second
  simp only [List.map_cons, List.map_nil, List.mem_cons, List.not_mem_nil, or_false,
    Prod.mk.injEq] at first second
  rcases first with ⟨textOne, rfl⟩ | ⟨textOne, rfl⟩ <;>
    rcases second with ⟨textTwo, rfl⟩ | ⟨textTwo, rfl⟩
  · rfl
  · exact absurd (textOne.symm.trans textTwo) differ
  · exact absurd (textTwo.symm.trans textOne) differ
  · rfl

end GraphState

end KnotEditor.Desktop
