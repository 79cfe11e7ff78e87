import KnotEditor.Readings.MetreScene

/-! Authored metrical positions over a copied, resolved lexical reading, with the scenes that came
before the current one and those undone. -/

namespace KnotEditor.Readings

/-- `SpanEdit`. -/
inductive Edit
  | move
  | start
  | finish
  deriving DecidableEq

structure Span where
  start : UInt32
  length : UInt32
  deriving DecidableEq

/-- `SpanEditIntent`: the span of one syllable before and after an edit. -/
structure Proposal where
  revision : String
  source : SceneSource
  occurrence : String
  before : Span
  after : Span
  deriving DecidableEq

structure AlignedScene (Facts : Type) where
  version : Nat
  source : SceneSource
  revision : String
  title : String
  facts : Facts
  deriving DecidableEq

/-- The facts of the scene compiler, its span edits and its checks, and the hash of an origin and
facts that revisions are. -/
structure AlignmentHost where
  Facts : Type
  decidableFacts : DecidableEq Facts
  metreGrid : MetreGrid → Facts
  isMetreGrid : Facts → Bool
  placement : Facts → String → Option Span
  fits : Facts → Span → Bool
  validate : AlignedScene Facts → Except String Unit
  propose : AlignedScene Facts → String → Edit → Float32 → Nat → Except String Proposal
  proposedFacts : Proposal → AlignedScene Facts → Except String Facts
  revision : String → Facts → Except String String

instance (host : AlignmentHost) : DecidableEq host.Facts := host.decidableFacts

variable {host : AlignmentHost}

structure MetreDraft (host : AlignmentHost) where
  scene : AlignedScene host.Facts
  origin : String
  undone : List (AlignedScene host.Facts)
  redone : List (AlignedScene host.Facts)

namespace MetreDraft

def «new» (scene : AlignedScene host.Facts) : Except String (MetreDraft host) := do
  host.validate scene
  if !host.isMetreGrid scene.facts then
    .error "A metre reading is required"
  return ⟨scene, scene.revision, [], []⟩

variable (draft : MetreDraft host)

def propose (key : String) (edit : Edit) (delta : Float32) : Except String Proposal :=
  host.propose draft.scene key edit delta 1

def preview (proposal : Proposal) : Except String (AlignedScene host.Facts) := do
  let facts ← host.proposedFacts proposal draft.scene
  if proposal.before = proposal.after then
    .ok draft.scene
  else
    let revision ← host.revision draft.origin facts
    let next := { draft.scene with facts, revision }
    host.validate next
    .ok next

def pushUndo : List (AlignedScene host.Facts) :=
  let undo := draft.scene :: draft.undone
  if 32 < undo.length then undo.dropLast else undo

def commit (proposal : Proposal) : MetreDraft host × Except String Unit :=
  match draft.preview proposal with
  | .error error => (draft, .error error)
  | .ok next =>
    if proposal.before ≠ proposal.after then
      ({ draft with scene := next, undone := draft.pushUndo, redone := [] }, .ok ())
    else (draft, .ok ())

def undo : MetreDraft host :=
  match draft.undone with
  | [] => draft
  | previous :: rest =>
    { draft with scene := previous, undone := rest, redone := draft.scene :: draft.redone }

def redo : MetreDraft host :=
  match draft.redone with
  | [] => draft
  | next :: rest =>
    { draft with scene := next, undone := draft.scene :: draft.undone, redone := rest }

variable {draft : MetreDraft host} {proposal : Proposal}

theorem redo_undo (step : draft.undone ≠ []) : draft.undo.redo = draft := by
  obtain ⟨scene, origin, undone, redone⟩ := draft
  cases undone with
  | nil => exact absurd rfl step
  | cons previous rest => rfl

theorem undo_redo (step : draft.redone ≠ []) : draft.redo.undo = draft := by
  obtain ⟨scene, origin, undone, redone⟩ := draft
  cases redone with
  | nil => exact absurd rfl step
  | cons next rest => rfl

theorem mem_pushUndo {scene : AlignedScene host.Facts} (member : scene ∈ draft.pushUndo) :
    scene = draft.scene ∨ scene ∈ draft.undone := by
  rw [pushUndo] at member
  apply List.mem_cons.mp
  split at member
  · exact (List.dropLast_sublist _).subset member
  · exact member

theorem length_pushUndo (bounded : draft.undone.length ≤ 32) : draft.pushUndo.length ≤ 32 := by
  rw [pushUndo]
  split
  · rw [List.length_dropLast, List.length_cons]
    omega
  · omega

/-- A commit is refused, changes nothing, or takes one step to a scene whose revision is computed. -/
theorem commit_cases (draft : MetreDraft host) (proposal : Proposal) :
    (∃ error, draft.commit proposal = (draft, .error error)) ∨
      (proposal.before = proposal.after ∧ draft.commit proposal = (draft, .ok ())) ∨
      ∃ next, proposal.before ≠ proposal.after ∧
        host.revision draft.origin next.facts = .ok next.revision ∧ draft.commit proposal =
          ({ draft with scene := next, undone := draft.pushUndo, redone := [] }, .ok ()) := by
  rw [commit]
  cases seen : draft.preview proposal with
  | error error => exact .inl ⟨error, rfl⟩
  | ok next =>
    by_cases same : proposal.before = proposal.after
    · simp only [same, ne_eq, not_true_eq_false, if_false]
      exact .inr (.inl ⟨trivial, trivial⟩)
    · simp only [preview, Fallible.bind_eq_ok_iff, if_neg same] at seen
      obtain ⟨facts, _, revision, hashed, _, _, found⟩ := seen
      refine .inr (.inr ⟨next, same, ?_, if_pos same⟩)
      rw [← Except.ok.inj found]
      exact hashed

end MetreDraft

/-- What the span edits of the scene compiler are relied on for: an edit that is taken is one of
the scene it was proposed for, and moves the span of one syllable only. -/
structure SpanEdits (host : AlignmentHost) : Prop where
  revision : ∀ {proposal scene facts}, host.proposedFacts proposal scene = .ok facts →
    proposal.revision = scene.revision
  source : ∀ {proposal scene facts}, host.proposedFacts proposal scene = .ok facts →
    proposal.source = scene.source
  occurrence : ∀ {proposal scene facts}, host.proposedFacts proposal scene = .ok facts →
    host.placement scene.facts proposal.occurrence = some proposal.before
  span : ∀ {proposal scene facts}, host.proposedFacts proposal scene = .ok facts →
    host.fits scene.facts proposal.after = true

structure CollisionFree (host : AlignmentHost) : Prop where
  facts : ∀ {origin facts other revision}, host.revision origin facts = .ok revision →
    host.revision origin other = .ok revision → facts = other
  origin : ∀ {origin facts}, host.revision origin facts ≠ .ok origin

/-- The proposal is stale, of another source, of no syllable of the scene, or of no valid span. -/
def Foreign (host : AlignmentHost) (scene : AlignedScene host.Facts) (proposal : Proposal) : Prop :=
  proposal.revision ≠ scene.revision ∨ proposal.source ≠ scene.source ∨
    host.placement scene.facts proposal.occurrence = none ∨
    host.fits scene.facts proposal.after = false

theorem MetreDraft.commit_foreign (edits : SpanEdits host) {draft : MetreDraft host}
    {proposal : Proposal} (foreign : Foreign host draft.scene proposal) :
    ∃ error, draft.commit proposal = (draft, .error error) := by
  have refused : ∃ error, host.proposedFacts proposal draft.scene = .error error := by
    cases taken : host.proposedFacts proposal draft.scene with
    | error error => exact ⟨error, rfl⟩
    | ok facts =>
      rcases foreign with stale | other | missing | invalid
      · exact absurd (edits.revision taken) stale
      · exact absurd (edits.source taken) other
      · rw [edits.occurrence taken] at missing
        cases missing
      · rw [edits.span taken] at invalid
        cases invalid
  obtain ⟨error, refused⟩ := refused
  refine ⟨error, ?_⟩
  rw [commit, preview, refused]
  rfl

end KnotEditor.Readings
