import KnotEditor.Desktop.MetreEditor
import KnotEditor.Readings.MetreExport

/-! Runs of the metre editor: what its draft and history hold, when it counts as retained, and what
a drag may do to it. -/

namespace KnotEditor.Readings.MetreDraft

variable {host : AlignmentHost}

def scenes (draft : MetreDraft host) : List (AlignedScene host.Facts) :=
  draft.scene :: (draft.undone ++ draft.redone)

/-- The scene a draft began with, or one whose revision is that of the origin and its own facts. -/
def Authored (first scene : AlignedScene host.Facts) : Prop :=
  scene = first ∨ host.revision first.revision scene.facts = .ok scene.revision

structure Began (first : AlignedScene host.Facts) (draft : MetreDraft host) : Prop where
  origin : draft.origin = first.revision
  authored : ∀ scene ∈ draft.scenes, Authored first scene
  bounded : draft.undone.length + draft.redone.length ≤ 32

inductive Steps (draft : MetreDraft host) : MetreDraft host → Prop
  | same : Steps draft draft
  | commit (proposal : Proposal) : Steps draft (draft.commit proposal).1
  | undo : Steps draft draft.undo
  | redo : Steps draft draft.redo

variable {first : AlignedScene host.Facts} {draft later : MetreDraft host}

theorem Began.undo (began : Began first draft) : Began first draft.undo := by
  obtain ⟨origin, authored, bounded⟩ := began
  obtain ⟨scene, _, undone, redone⟩ := draft
  cases undone with
  | nil => exact ⟨origin, authored, bounded⟩
  | cons previous rest =>
    refine ⟨origin, fun other member => authored other ?_, ?_⟩
    · simp only [scenes, MetreDraft.undo, List.mem_cons, List.mem_append] at member ⊢
      grind
    · simp only [MetreDraft.undo, List.length_cons] at bounded ⊢
      omega

theorem Began.redo (began : Began first draft) : Began first draft.redo := by
  obtain ⟨origin, authored, bounded⟩ := began
  obtain ⟨scene, _, undone, redone⟩ := draft
  cases redone with
  | nil => exact ⟨origin, authored, bounded⟩
  | cons next rest =>
    refine ⟨origin, fun other member => authored other ?_, ?_⟩
    · simp only [scenes, MetreDraft.redo, List.mem_cons, List.mem_append] at member ⊢
      grind
    · simp only [MetreDraft.redo, List.length_cons] at bounded ⊢
      omega

theorem Began.commit (began : Began first draft) (proposal : Proposal) :
    Began first (draft.commit proposal).1 := by
  rcases commit_cases draft proposal with ⟨error, same⟩ | ⟨_, same⟩ | ⟨next, _, hashed, step⟩
  · rw [same]
    exact began
  · rw [same]
    exact began
  · rw [step]
    refine ⟨began.origin, fun scene member => ?_, ?_⟩
    · rcases List.mem_cons.mp member with rfl | earlier
      · refine .inr ?_
        rw [← began.origin]
        exact hashed
      · rw [List.append_nil] at earlier
        apply began.authored
        rcases mem_pushUndo earlier with rfl | older
        · exact List.mem_cons_self
        · exact List.mem_cons_of_mem _ (List.mem_append_left _ older)
    · have room := began.bounded
      exact length_pushUndo (by omega)

theorem Began.step (began : Began first draft) (step : Steps draft later) : Began first later := by
  cases step with
  | same => exact began
  | commit proposal => exact began.commit proposal
  | undo => exact began.undo
  | redo => exact began.redo

theorem began_new {scene : AlignedScene host.Facts} (opened : MetreDraft.new scene = .ok draft) :
    draft.scene = scene ∧ Began scene draft := by
  simp only [MetreDraft.new, Fallible.bind_eq_ok_iff, Fallible.refuse_eq_ok_iff] at opened
  obtain ⟨_, _, _, found⟩ := opened
  obtain rfl := Except.ok.inj found
  refine ⟨rfl, rfl, fun other member => ?_, Nat.zero_le 32⟩
  exact .inl (List.mem_singleton.mp member)

theorem Authored.facts_eq (free : CollisionFree host) {left right : AlignedScene host.Facts}
    (one : Authored first left) (other : Authored first right)
    (same : left.revision = right.revision) : left.facts = right.facts := by
  rcases one with rfl | one
  · rcases other with rfl | other
    · rfl
    · rw [← same] at other
      exact absurd other free.origin
  · rcases other with rfl | other
    · rw [same] at one
      exact absurd one free.origin
    · rw [same] at one
      exact free.facts one other

end KnotEditor.Readings.MetreDraft

namespace KnotEditor.Desktop.Metre

open KnotEditor.Readings KnotEditor.Readings.MetreDraft

variable {host : MetreHost}

/-- What a run remembers: the scene its draft began with, the one last retained or opened as a
retained copy, and the one under the pointer when it last went down. -/
structure Memory (host : MetreHost) where
  opened : Option (Scene host) := none
  retained : Option (Scene host) := none
  grabbed : Option (Scene host) := none

def Memory.after (desk : Desk) (metre : MetreState host) (memory : Memory host) :
    MetreEvent host → Memory host
  | .start key =>
    if metre.dirty then memory
    else match metre.startDraft desk key with
      | .error _ => memory
      | .ok (draft, _) => { opened := some draft.scene }
  | .openCopy scene _ =>
    if metre.dirty then memory
    else match (MetreDraft.new scene : Except String (Draft host)) with
      | .error _ => memory
      | .ok _ => { opened := some scene, retained := some scene }
  | .markRetained scene =>
    if metre.draft.any fun draft => decide (draft.scene = scene) then
      { memory with retained := some scene }
    else memory
  | .discard => {}
  | .pointer _ event =>
    if event.primary && decide (event.phase = .down) then
      { memory with grabbed := metre.draft.map MetreDraft.scene }
    else memory
  | _ => memory

def runFrom (world : MetreState host × Memory host) (events : List (Desk × MetreEvent host)) :
    MetreState host × Memory host :=
  events.foldl (fun world event =>
    (world.1.step event.1 event.2, world.2.after event.1 world.1 event.2)) world

def run (events : List (Desk × MetreEvent host)) : MetreState host × Memory host :=
  runFrom ({}, {}) events

structure Sound (metre : MetreState host) (memory : Memory host) : Prop where
  began : ∀ draft, metre.draft = some draft →
    ∃ first, memory.opened = some first ∧ MetreDraft.Began first draft
  kept : ∀ first revision, memory.opened = some first → metre.saved = some revision →
    ∃ scene, memory.retained = some scene ∧ scene.revision = revision ∧
      MetreDraft.Authored first scene
  grabbed : ∀ drag, metre.drag = some drag → memory.grabbed = some drag.baseline

/-- A step that opens and retains nothing: the draft takes one step or none, and a drag goes on
from its own scene or ends. -/
structure Follows (metre later : MetreState host) : Prop where
  draft : metre.draft = none ∧ later.draft = none ∨
    ∃ draft next, metre.draft = some draft ∧ later.draft = some next ∧ MetreDraft.Steps draft next
  saved : later.saved = metre.saved
  drag : ∀ drag, later.drag = some drag →
    ∃ earlier, metre.drag = some earlier ∧ earlier.baseline = drag.baseline

theorem Sound.follows {metre later : MetreState host} {memory : Memory host}
    (sound : Sound metre memory) (follows : Follows metre later) : Sound later memory := by
  refine ⟨fun next there => ?_, fun first revision opened saved => ?_, fun drag dragged => ?_⟩
  · rcases follows.draft with ⟨_, gone⟩ | ⟨draft, after, here, later_, step⟩
    · rw [gone] at there
      cases there
    · obtain ⟨first, opened, began⟩ := sound.began draft here
      rw [later_, Option.some.injEq] at there
      exact ⟨first, opened, there ▸ began.step step⟩
  · exact sound.kept first revision opened (follows.saved ▸ saved)
  · obtain ⟨earlier, dragging, same⟩ := follows.drag drag dragged
    rw [← same]
    exact sound.grabbed earlier dragging

/-- A step of a drag: it goes on from its own scene, or ends, with one commit at most and that over
the scene it began on. -/
inductive Drags (metre later : MetreState host) : Prop
  | kept (draft : later.draft = metre.draft) (saved : later.saved = metre.saved)
      (drag : ∀ drag, later.drag = some drag →
        ∃ earlier, metre.drag = some earlier ∧ earlier.baseline = drag.baseline)
  | committed (drag : Drag host) (draft : Draft host) (proposal : Proposal)
      (dragging : metre.drag = some drag) (held : metre.draft = some draft)
      (same : draft.scene = drag.baseline) (step : later.draft = some (draft.commit proposal).1)
      (saved : later.saved = metre.saved) (ended : later.drag = none)

theorem Drags.follows {metre later : MetreState host} (drags : Drags metre later) :
    Follows metre later := by
  cases drags with
  | kept draft saved drag =>
    refine ⟨?_, saved, drag⟩
    cases held : metre.draft with
    | none => exact .inl ⟨rfl, draft.trans held⟩
    | some one => exact .inr ⟨one, one, rfl, draft.trans held, .same⟩
  | committed drag draft proposal dragging held same step saved ended =>
    refine ⟨.inr ⟨draft, _, held, step, .commit proposal⟩, saved, fun dragged there => ?_⟩
    rw [ended] at there
    cases there

namespace MetreState

variable {metre : MetreState host} {desk : Desk} {key : DocKey}

theorem refresh_same (metre : MetreState host) : metre.refresh.1.draft = metre.draft ∧
    metre.refresh.1.saved = metre.saved ∧ metre.refresh.1.drag = metre.drag := by
  rw [refresh]
  split
  · exact ⟨rfl, rfl, rfl⟩
  · exact ⟨rfl, rfl, rfl⟩
  · dsimp only
    split <;> exact ⟨rfl, rfl, rfl⟩

theorem cancel_same (metre : MetreState host) : metre.cancel.draft = metre.draft ∧
    metre.cancel.saved = metre.saved ∧ metre.cancel.drag = none :=
  refresh_same { metre with drag := none }

theorem drags_refresh {later : MetreState host} (drags : Drags metre later) :
    Drags metre later.refresh.1 := by
  obtain ⟨draft, saved, drag⟩ := refresh_same later
  cases drags with
  | kept keptDraft keptSaved keptDrag =>
    exact .kept (draft.trans keptDraft) (saved.trans keptSaved) fun dragged there =>
      keptDrag dragged (drag.symm.trans there)
  | committed dragged one proposal dragging held same step keptSaved ended =>
    exact .committed dragged one proposal dragging held same (draft.trans step)
      (saved.trans keptSaved) (drag.trans ended)

theorem drags_same (metre : MetreState host) : Drags metre metre :=
  .kept rfl rfl fun drag there => ⟨drag, there, rfl⟩

theorem drags_of_ended {later : MetreState host} (draft : later.draft = metre.draft)
    (saved : later.saved = metre.saved) (ended : later.drag = none) : Drags metre later := by
  refine .kept draft saved fun drag there => ?_
  rw [ended] at there
  cases there

theorem cancel_drags (metre : MetreState host) : Drags metre metre.cancel :=
  drags_of_ended (cancel_same metre).1 (cancel_same metre).2.1 (cancel_same metre).2.2

theorem commit_drags (metre : MetreState host) : Drags metre metre.commit := by
  rw [commit]
  split
  next drag draft dragging held =>
    apply drags_refresh
    by_cases same : draft.scene = drag.baseline
    · simp only [if_pos same]
      split <;> exact .committed drag draft drag.proposal dragging held same rfl rfl rfl
    · simp only [if_neg same]
      exact drags_of_ended rfl rfl rfl
  next => exact drags_refresh (drags_of_ended rfl rfl rfl)

theorem dragged_baseline {drag next : Drag host} {event : PointerEvent}
    (dragged : metre.dragged drag key event = some next) : next.baseline = drag.baseline := by
  rw [MetreState.dragged] at dragged
  split at dragged
  · split at dragged
    · cases dragged
    · split at dragged
      · dsimp only at dragged
        split at dragged
        · cases dragged
        · cases dragged
          rfl
      · cases dragged
  · cases dragged

theorem pointerMove_drags (metre : MetreState host) (key : DocKey) (event : PointerEvent) :
    Drags metre (metre.pointerMove key event) := by
  rw [pointerMove]
  split
  next => exact drags_refresh (drags_same metre)
  next drag dragging =>
    split
    · exact drags_same metre
    · split
      next => exact drags_refresh (drags_of_ended rfl rfl rfl)
      next next_ dragged =>
        have baseline := dragged_baseline dragged
        apply drags_refresh
        split
        · -- The commit is of the new proposal, over the scene that the drag began on.
          cases commit_drags { metre with drag := some next_ } with
          | kept draft saved drag_ =>
            refine .kept draft saved fun later there => ?_
            obtain ⟨earlier, same, base⟩ := drag_ later there
            cases same
            exact ⟨drag, dragging, baseline.symm.trans base⟩
          | committed later draft proposal same held scene step saved ended =>
            cases same
            exact .committed drag draft proposal dragging held (scene.trans baseline) step saved
              ended
        · refine .kept rfl rfl fun later there => ?_
          cases there
          exact ⟨drag, dragging, baseline.symm⟩

theorem selection_drags (metre : MetreState host) (event : SceneSelection) :
    Drags metre (metre.selection event) := by
  obtain ⟨draft, saved, drag⟩ := cancel_same metre
  exact drags_of_ended draft saved drag

theorem change_follows (metre : MetreState host) (desk : Desk) (key : DocKey) (edit : Edit)
    (delta : Float32) : Follows metre (metre.change desk key edit delta) := by
  obtain ⟨draft, saved, drag⟩ := cancel_same metre
  rw [change]
  split
  · exact (cancel_drags metre).follows
  · dsimp only
    split
    next chosen one _ held =>
      split
      next => exact Drags.follows (drags_of_ended draft saved drag)
      next proposal _ =>
        have stepped : ∀ later : MetreState host, later.draft = some (one.commit proposal).1 →
            later.saved = metre.cancel.saved → later.drag = metre.cancel.drag →
            Follows metre later := by
          intro later step same ended
          refine ⟨.inr ⟨one, _, draft ▸ held, step, .commit proposal⟩, same.trans saved,
            fun dragged there => ?_⟩
          rw [ended, drag] at there
          cases there
        split
        · exact stepped _ rfl rfl rfl
        · obtain ⟨draft, saved, drag⟩ := refresh_same
            { metre.cancel with draft := some (one.commit proposal).1 }
          exact stepped _ draft saved drag
    next => exact (cancel_drags metre).follows

theorem stepDraft_follows (metre : MetreState host) (desk : Desk) (key : DocKey)
    {step : Draft host → Draft host} (steps : ∀ draft, MetreDraft.Steps draft (step draft)) :
    Follows metre (metre.stepDraft desk key step) := by
  obtain ⟨draft, saved, drag⟩ := cancel_same metre
  rw [stepDraft]
  split
  · exact (drags_same metre).follows
  · obtain ⟨newDraft, newSaved, newDrag⟩ := refresh_same
      { metre.cancel with draft := metre.cancel.draft.map step }
    have stepped := newDraft.trans (congrArg (Option.map step) draft)
    refine ⟨?_, newSaved.trans saved, fun dragged there => ?_⟩
    · cases held : metre.draft with
      | none =>
        rw [held] at stepped
        exact .inl ⟨rfl, stepped⟩
      | some one =>
        rw [held] at stepped
        exact .inr ⟨one, _, rfl, stepped, steps one⟩
    · rw [newDrag.trans drag] at there
      cases there

theorem keypress_follows (metre : MetreState host) (desk : Desk) (key : DocKey) (event : KeyPress) :
    Follows metre (metre.keypress desk key event) := by
  rw [keypress]
  split
  · exact (cancel_drags metre).follows
  · dsimp only
    split
    · split
      · exact (cancel_drags metre).follows
      · exact (drags_same metre).follows
    · split
      · exact (commit_drags metre).follows
      · exact (drags_same metre).follows
    · split
      · exact (drags_same metre).follows
      · exact change_follows metre desk key _ _
    · split
      · exact (drags_same metre).follows
      · exact change_follows metre desk key _ _
    · exact (drags_same metre).follows

theorem enter_drags (metre : MetreState host) (desk : Desk) (key : DocKey) {event : KeyPress}
    (enter : event.key = .enter) : Drags metre (metre.keypress desk key event) := by
  rw [keypress]
  split
  · exact cancel_drags metre
  · simp only [enter]
    split
    · exact commit_drags metre
    · exact drags_same metre

end MetreState

/-- A pointer that goes down: a drag begins on the scene of the draft, or there is none. -/
structure Grabs (metre later : MetreState host) : Prop where
  draft : later.draft = metre.draft
  saved : later.saved = metre.saved
  drag : ∀ drag, later.drag = some drag → metre.draft.map MetreDraft.scene = some drag.baseline

namespace MetreState

theorem grabs_refresh {metre later : MetreState host} (grabs : Grabs metre later) :
    Grabs metre later.refresh.1 := by
  obtain ⟨draft, saved, drag⟩ := refresh_same later
  exact ⟨draft.trans grabs.draft, saved.trans grabs.saved, fun dragged there =>
    grabs.drag dragged (drag.symm.trans there)⟩

theorem grabs_of_ended {metre later : MetreState host} (draft : later.draft = metre.draft)
    (saved : later.saved = metre.saved) (ended : later.drag = none) : Grabs metre later := by
  refine ⟨draft, saved, fun drag there => ?_⟩
  rw [ended] at there
  cases there

theorem cancel_grabs (metre : MetreState host) : Grabs metre metre.cancel :=
  grabs_of_ended (cancel_same metre).1 (cancel_same metre).2.1 (cancel_same metre).2.2

theorem pointerDown_grabs (metre : MetreState host) (key : DocKey) (event : PointerEvent) :
    Grabs metre (metre.pointerDown key event) := by
  obtain ⟨draft, saved, ended⟩ := cancel_same metre
  rw [pointerDown]
  dsimp only
  split
  · exact cancel_grabs metre
  · apply grabs_refresh
    split
    next one _ held =>
      split
      · exact grabs_of_ended draft saved ended
      · refine ⟨draft, saved, fun drag there => ?_⟩
        cases there
        rw [← draft, held]
        rfl
    next => exact grabs_of_ended draft saved ended

theorem pointer_grabs (metre : MetreState host) (desk : Desk) (key : DocKey) {event : PointerEvent}
    (down : (event.primary && decide (event.phase = .down)) = true) :
    Grabs metre (metre.pointer desk key event) := by
  obtain ⟨primary, down⟩ := (Bool.and_eq_true _ _).mp down
  rw [pointer, if_neg (by simp [primary])]
  split
  · exact cancel_grabs metre
  · split
    · exact cancel_grabs metre
    · split
      · exact cancel_grabs metre
      · rw [if_pos (of_decide_eq_true down)]
        exact pointerDown_grabs metre key event

theorem pointer_drags (metre : MetreState host) (desk : Desk) (key : DocKey) {event : PointerEvent}
    (down : (event.primary && decide (event.phase = .down)) = false) :
    Drags metre (metre.pointer desk key event) := by
  rw [pointer]
  split
  · exact drags_same metre
  next primary =>
    rw [Bool.not_eq_false] at primary
    rw [primary, Bool.true_and] at down
    split
    · exact cancel_drags metre
    · split
      · exact cancel_drags metre
      · split
        · exact cancel_drags metre
        · rw [if_neg (of_decide_eq_false down)]
          exact pointerMove_drags metre key event

theorem startDraft_began {metre : MetreState host} {desk : Desk} {key : DocKey}
    {opened : Draft host × SelectionSnapshot × DocumentAnchor × SoundReading}
    (started : metre.startDraft desk key = .ok opened) : MetreDraft.Began opened.1.scene opened.1 := by
  rw [startDraft] at started
  split at started
  · simp only [Fallible.refuse_eq_ok_iff] at started
    obtain ⟨_, started⟩ := started
    split at started
    · have found : ∀ {scene : Scene host} {source anchor reading},
          (MetreDraft.new scene >>= fun draft => pure (draft, source, anchor, reading) :
            Except String (Draft host × SelectionSnapshot × DocumentAnchor × SoundReading)) =
            .ok opened → MetreDraft.Began opened.1.scene opened.1 := by
        intro scene source anchor reading created
        simp only [Fallible.bind_eq_ok_iff] at created
        obtain ⟨draft, created, found⟩ := created
        obtain rfl := Except.ok.inj found
        obtain ⟨rfl, began⟩ := began_new created
        exact began
      cases paired : metre.pairedRhyme
      · simp only [paired, Bool.false_eq_true, if_false, Fallible.bind_eq_ok_iff] at started
        obtain ⟨_, _, _, _, _, _, started⟩ := started
        exact found (Fallible.bind_eq_ok_iff.mpr started)
      · simp only [paired, if_true, Fallible.bind_eq_ok_iff] at started
        obtain ⟨_, _, _, _, _, _, started⟩ := started
        exact found (Fallible.bind_eq_ok_iff.mpr started)
    · cases started
  · cases started

end MetreState

variable {metre : MetreState host} {memory : Memory host} {desk : Desk}

theorem Sound.same {later : MetreState host} (sound : Sound metre memory)
    (draft : later.draft = metre.draft) (saved : later.saved = metre.saved)
    (drag : later.drag = metre.drag) : Sound later memory := by
  obtain ⟨began, kept, grabbed⟩ := sound
  rw [← draft] at began
  rw [← saved] at kept
  rw [← drag] at grabbed
  exact ⟨began, kept, grabbed⟩

theorem Sound.start (sound : Sound metre memory) (key : DocKey) :
    Sound (metre.step desk (.start key)) (memory.after desk metre (.start key)) := by
  simp only [MetreState.step, MetreState.start, Memory.after]
  split
  · exact sound.same rfl rfl rfl
  · cases started : metre.startDraft desk key with
    | error error => exact sound.same rfl rfl rfl
    | ok opened =>
      have began := MetreState.startDraft_began started
      dsimp only
      obtain ⟨held, saved, ended⟩ := MetreState.refresh_same
        { metre with
          draft := some opened.1
          source := some opened.2.1
          reading := some opened.2.2.2
          anchor := some opened.2.2.1
          saved := none
          drag := none
          notice := none }
      refine ⟨fun draft there => ⟨_, rfl, ?_⟩, fun _ revision _ there => ?_, fun drag there => ?_⟩
      · rw [held, Option.some.injEq] at there
        exact there ▸ began
      · rw [saved] at there
        cases there
      · rw [ended] at there
        cases there

theorem Sound.openCopy (sound : Sound metre memory) (scene : Scene host)
    (anchor : Option DocumentAnchor) :
    Sound (metre.step desk (.openCopy scene anchor))
      (memory.after desk metre (.openCopy scene anchor)) := by
  simp only [MetreState.step, MetreState.openCopy, Memory.after]
  split
  · exact sound
  · cases created : (MetreDraft.new scene : Except String (Draft host)) with
    | error error => exact sound
    | ok draft =>
      obtain ⟨_, began⟩ := began_new created
      obtain ⟨held, saved, ended⟩ := MetreState.refresh_same
        { metre with
          draft := some draft
          source := none
          reading := none
          anchor
          saved := some scene.revision
          drag := none
          notice := none }
      refine ⟨fun next there => ⟨scene, rfl, ?_⟩, fun first revision opened there => ?_,
        fun drag there => ?_⟩
      · rw [held, Option.some.injEq] at there
        exact there ▸ began
      · rw [saved, Option.some.injEq] at there
        rw [Option.some.injEq] at opened
        exact ⟨scene, rfl, there, .inl opened⟩
      · rw [ended] at there
        cases there

theorem Sound.markRetained (sound : Sound metre memory) (scene : Scene host) :
    Sound (metre.step desk (.markRetained scene))
      (memory.after desk metre (.markRetained scene)) := by
  simp only [MetreState.step, MetreState.markRetained, Memory.after]
  split
  next retained =>
    rw [Option.any_eq_true] at retained
    obtain ⟨draft, held, same⟩ := retained
    obtain ⟨first, opened, began⟩ := sound.began draft held
    refine ⟨sound.began, fun other revision there saved => ?_, sound.grabbed⟩
    rw [opened, Option.some.injEq] at there
    rw [Option.some.injEq] at saved
    refine ⟨scene, rfl, saved, there ▸ began.authored scene ?_⟩
    rw [← of_decide_eq_true same]
    exact List.mem_cons_self
  next => exact sound

theorem Sound.discard (metre : MetreState host) (desk : Desk) :
    Sound (metre.step desk .discard) {} := by
  obtain ⟨held, saved, ended⟩ := MetreState.refresh_same
    { metre with
      draft := none
      source := none
      reading := none
      anchor := none
      drag := none
      saved := none
      closePending := false
      notice := none }
  refine ⟨fun draft there => ?_, fun _ _ there => ?_, fun drag there => ?_⟩
  · cases held.symm.trans there
  · cases there
  · cases ended.symm.trans there

theorem Sound.pointer (sound : Sound metre memory) (key : DocKey) (event : PointerEvent) :
    Sound (metre.step desk (.pointer key event))
      (memory.after desk metre (.pointer key event)) := by
  simp only [MetreState.step, Memory.after]
  split
  next down =>
    obtain ⟨draft, saved, drag⟩ := MetreState.pointer_grabs metre desk key down
    refine ⟨fun one there => sound.began one (draft ▸ there), fun first revision opened there =>
      sound.kept first revision opened (saved ▸ there), drag⟩
  next other =>
    rw [Bool.not_eq_true] at other
    exact sound.follows (MetreState.pointer_drags metre desk key other).follows

theorem Sound.step (sound : Sound metre memory) (event : MetreEvent host) :
    Sound (metre.step desk event) (memory.after desk metre event) := by
  cases event with
  | start key => exact sound.start key
  | openCopy scene anchor => exact sound.openCopy scene anchor
  | markRetained scene => exact sound.markRetained scene
  | retain => exact sound.follows (MetreState.cancel_drags metre).follows
  | discard => exact .discard metre desk
  | cancel => exact sound.follows (MetreState.cancel_drags metre).follows
  | selection event => exact sound.follows (MetreState.selection_drags metre event).follows
  | pointer key event => exact sound.pointer key event
  | keypress key event => exact sound.follows (MetreState.keypress_follows metre desk key event)
  | change key edit delta =>
    exact sound.follows (MetreState.change_follows metre desk key edit delta)
  | undo key => exact sound.follows (MetreState.stepDraft_follows metre desk key fun _ => .undo)
  | redo key => exact sound.follows (MetreState.stepDraft_follows metre desk key fun _ => .redo)
  | template feet positions pairedRhyme => exact sound.same rfl rfl rfl
  | closePending pending => exact sound.same rfl rfl rfl

theorem sound_runFrom {world : MetreState host × Memory host} (sound : Sound world.1 world.2)
    (events : List (Desk × MetreEvent host)) :
    Sound (runFrom world events).1 (runFrom world events).2 := by
  induction events generalizing world with
  | nil => exact sound
  | cons event rest ih => exact ih (sound.step event.2)

theorem sound_run (events : List (Desk × MetreEvent host)) :
    Sound (run events).1 (run events).2 := by
  apply sound_runFrom
  refine ⟨fun _ there => ?_, fun _ _ there => ?_, fun _ there => ?_⟩ <;> cases there

structure Guarded (metre : MetreState host) (desk : Desk) : Prop where
  down : ∀ key event, (event.primary && decide (event.phase = .down)) = true →
    Grabs metre (metre.step desk (.pointer key event))
  start : metre.dirty = true → ∀ key, (metre.step desk (.start key)).draft = metre.draft
  openCopy : metre.dirty = true → ∀ scene anchor,
    (metre.step desk (.openCopy scene anchor)).draft = metre.draft
  kept : metre.dirty = true → ∀ event, event ≠ .discard →
    (metre.step desk event).draft.isSome = true
  pointer : ∀ key event, (event.primary && decide (event.phase = .down)) = false →
    Drags metre (metre.step desk (.pointer key event))
  enter : ∀ key event, event.key = .enter → Drags metre (metre.step desk (.keypress key event))

theorem Follows.isSome {later : MetreState host} (follows : Follows metre later)
    (held : metre.draft.isSome = true) : later.draft.isSome = true := by
  rcases follows.draft with ⟨gone, _⟩ | ⟨_, _, _, there, _⟩
  · rw [gone] at held
    cases held
  · rw [there]
    rfl

theorem guarded (metre : MetreState host) (desk : Desk) : Guarded metre desk := by
  have start : metre.dirty = true → ∀ key,
      (metre.step desk (.start key)).draft = metre.draft := by
    intro dirty key
    simp only [MetreState.step, MetreState.start, dirty, if_true]
  have openCopy : metre.dirty = true → ∀ scene anchor,
      (metre.step desk (.openCopy scene anchor)).draft = metre.draft := by
    intro dirty scene anchor
    simp only [MetreState.step, MetreState.openCopy, dirty, if_true]
  refine ⟨fun key event => MetreState.pointer_grabs metre desk key, start, openCopy,
    fun dirty event other => ?_, fun key event => MetreState.pointer_drags metre desk key,
    fun key event => MetreState.enter_drags metre desk key⟩
  have held : metre.draft.isSome = true := by
    rw [MetreState.dirty, Option.any_eq_true] at dirty
    obtain ⟨draft, held, _⟩ := dirty
    rw [held]
    rfl
  cases event with
  | start key => exact start dirty key ▸ held
  | openCopy scene anchor => exact openCopy dirty scene anchor ▸ held
  | markRetained scene =>
    simp only [MetreState.step, MetreState.markRetained]
    split <;> exact held
  | retain => exact (MetreState.cancel_drags metre).follows.isSome held
  | discard => exact absurd rfl other
  | cancel => exact (MetreState.cancel_drags metre).follows.isSome held
  | selection event => exact (MetreState.selection_drags metre event).follows.isSome held
  | pointer key event =>
    cases down : event.primary && decide (event.phase = .down) with
    | true => exact (MetreState.pointer_grabs metre desk key down).draft ▸ held
    | false => exact (MetreState.pointer_drags metre desk key down).follows.isSome held
  | keypress key event => exact (MetreState.keypress_follows metre desk key event).isSome held
  | change key edit delta =>
    exact (MetreState.change_follows metre desk key edit delta).isSome held
  | undo key => exact (MetreState.stepDraft_follows metre desk key fun _ => .undo).isSome held
  | redo key => exact (MetreState.stepDraft_follows metre desk key fun _ => .redo).isSome held
  | template feet positions pairedRhyme => exact held
  | closePending pending => exact held

/-- The history of a draft is exact, and in every run the draft is what it began with or of the
revision it is said to have, counts as retained only if its facts are, outlives every event but
discarding, and takes one step of a drag at most, over the scene that was grabbed. -/
theorem metre_drafts_are_kept (edits : SpanEdits host.toAlignmentHost)
    (free : CollisionFree host.toAlignmentHost) :
    (∀ draft : Draft host,
      (draft.undone ≠ [] → draft.undo.redo = draft) ∧
      (draft.redone ≠ [] → draft.redo.undo = draft) ∧
      ∀ proposal,
        (proposal.before = proposal.after → (draft.commit proposal).1 = draft) ∧
        (Foreign host.toAlignmentHost draft.scene proposal →
          ∃ error, draft.commit proposal = (draft, .error error)) ∧
        ∀ error, (draft.commit proposal).2 = .error error → (draft.commit proposal).1 = draft) ∧
      ∀ events : List (Desk × MetreEvent host),
        (∀ draft, (run events).1.draft = some draft →
          draft.undone.length + draft.redone.length ≤ 32 ∧
          (∃ first, (run events).2.opened = some first ∧
            ∀ scene ∈ draft.scenes, scene = first ∨
              host.revision first.revision scene.facts = .ok scene.revision) ∧
          ((run events).1.dirty = false → ∃ retained, (run events).2.retained = some retained ∧
            draft.scene.facts = retained.facts)) ∧
        (∀ drag, (run events).1.drag = some drag →
          (run events).2.grabbed = some drag.baseline) ∧
        ∀ desk, Guarded (run events).1 desk := by
  refine ⟨fun draft => ⟨redo_undo, undo_redo, fun proposal => ⟨fun same => ?_,
    commit_foreign edits, fun error failed => ?_⟩⟩, fun events => ?_⟩
  · rcases commit_cases draft proposal with ⟨_, step⟩ | ⟨_, step⟩ | ⟨_, differs, _⟩
    · rw [step]
    · rw [step]
    · exact absurd same differs
  · rcases commit_cases draft proposal with ⟨_, step⟩ | ⟨_, step⟩ | ⟨_, _, _, step⟩
    · rw [step]
    · rw [step]
    · rw [step] at failed
      cases failed
  · have sound := sound_run events
    refine ⟨fun draft held => ?_, sound.grabbed, fun desk => guarded _ desk⟩
    obtain ⟨first, opened, began⟩ := sound.began draft held
    refine ⟨began.bounded, ⟨first, opened, began.authored⟩, fun clean => ?_⟩
    have saved : (run events).1.saved = some draft.scene.revision := by
      simpa [MetreState.dirty, held] using clean
    obtain ⟨retained, kept, same, authored⟩ := sound.kept first _ opened saved
    exact ⟨retained, kept,
      (began.authored _ List.mem_cons_self).facts_eq free authored same.symm⟩

def syllableHost : AlignmentHost where
  Facts := Bool
  decidableFacts := inferInstance
  metreGrid _ := false
  isMetreGrid _ := true
  placement moved occurrence := if occurrence = "w0.s0" then some ⟨moved.toNat.toUInt32, 1⟩ else none
  fits _ span := decide (span.length = 1 ∧ span.start ≤ 1)
  validate _ := .ok ()
  propose _ _ _ _ _ := .error "nothing to propose"
  proposedFacts proposal scene :=
    if proposal.revision = scene.revision ∧ proposal.source = scene.source ∧
        proposal.occurrence = "w0.s0" ∧
        proposal.before = ⟨scene.facts.toNat.toUInt32, 1⟩ ∧
        (proposal.after.length = 1 ∧ proposal.after.start ≤ 1) then
      .ok (decide (proposal.after.start = 1))
    else .error "stale"
  revision origin moved := .ok (origin ++ if moved then "b" else "a")

theorem spanEdits_syllableHost : SpanEdits syllableHost := by
  constructor <;> intro proposal scene facts taken <;>
    simp only [syllableHost] at taken <;> split at taken
  all_goals try cases taken
  next checks => exact checks.1
  next checks => exact checks.2.1
  next checks => simp only [syllableHost, checks.2.2.1, if_true, checks.2.2.2.1]
  next checks => exact decide_eq_true checks.2.2.2.2

theorem collisionFree_syllableHost : CollisionFree syllableHost := by
  constructor
  · intro origin moved other revision one same
    have equal := Except.ok.inj (one.trans same.symm)
    have letters := congrArg String.toList equal
    cases moved <;> cases other <;> first | rfl | simp [String.toList_append] at letters
  · intro origin moved equal
    have letters := congrArg String.length (Except.ok.inj equal)
    cases moved <;> simp [String.length_append] at letters

def syllableMetre : MetreHost where
  toAlignmentHost := syllableHost
  alphabet := asciiAlphabet
  dictionary := nightly
  scenes := anyScene
  hash text := text
  Surface := Unit
  create _ := .ok ()
  replace _ _ := .ok ()
  select _ _ := ()
  selected _ := none
  dismissRetained _ := ()
  pick _ _ _ _ _ := none
  occurrenceRect _ _ _ _ := none
  scenePoint _ _ _ _ _ := none

def movedDraft : Draft syllableMetre where
  scene := ⟨1, ⟨"knot.document", "a"⟩, "0b", "Meter", true⟩
  origin := "0"
  undone := [⟨1, ⟨"knot.document", "a"⟩, "0", "Meter", false⟩]
  redone := []

theorem metre_drafts_are_kept_moved : movedDraft.undone ≠ [] ∧ movedDraft.undo.redo = movedDraft :=
  ⟨List.cons_ne_nil _ _,
    ((metre_drafts_are_kept spanEdits_syllableHost collisionFree_syllableHost).1 movedDraft).1
      (List.cons_ne_nil _ _)⟩

end KnotEditor.Desktop.Metre
