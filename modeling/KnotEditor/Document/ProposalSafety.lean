import KnotEditor.Document.Session
import KnotEditor.Library.Fallible
import KnotEditor.Library.VersionStamp

/-! A proposal applies only to the session it was captured from, and only while nothing has changed
its source since. -/

namespace KnotEditor.Document

open Fallible

variable {host : TextHost} {files : EditorHost} {disk : Disk}

/-! What the file operations leave alone. -/

theorem address_saveGuarded (editor : Editor) (faults : EditorFaults) :
    (editor.saveGuarded files disk faults).2.1.address = editor.address := by
  unfold Editor.saveGuarded
  split
  · rfl
  · rfl
  · simp only
    split
    · rfl
    · split
      · rfl
      · split
        · rfl
        · rfl

theorem saveAs_error {editor : Editor} {target : FilePath} {faults : EditorFaults}
    {error : KnotEditorSaveError} (failed : (editor.saveAs files disk target faults).1 = .error error) :
    (editor.saveAs files disk target faults).2.1.address = editor.address := by
  unfold Editor.saveAs at failed ⊢
  split
  · rfl
  · split
    · exact address_saveGuarded editor faults
    · split
      · rfl
      · split
        · rfl
        · simp_all

structure Versioned (before : KnotDocumentSession host) (after : Performed host) : Prop where
  instanceNumber : after.session.sourceVersion.instanceNumber = before.sourceVersion.instanceNumber
  revision : before.sourceVersion.revision ≤ after.session.sourceVersion.revision
  marked : sourceChanged before after = true →
    before.sourceVersion.revision < after.session.sourceVersion.revision

theorem versioned_of_same {before after : KnotDocumentSession host} {later : Disk}
    (version : after.sourceVersion = before.sourceVersion)
    (source : after.editor.source = before.editor.source)
    (address : after.editor.address = before.editor.address) :
    Versioned before ⟨after, later, false⟩ := by
  refine ⟨by rw [version], by rw [version], ?_⟩
  intro changed
  simp [sourceChanged, source, address] at changed

theorem versioned_of_next {before after : KnotDocumentSession host} {later : Disk} {counts : Bool}
    (instanceNumber : after.sourceVersion.instanceNumber = before.sourceVersion.instanceNumber)
    (next : after.sourceVersion.revision = before.sourceVersion.revision + 1) :
    Versioned before ⟨after, later, counts⟩ := by
  refine ⟨instanceNumber, ?_, fun _ => ?_⟩
  · rw [next]
    exact Nat.le_succ _
  · rw [next]
    exact Nat.lt_succ_self _

theorem advance_eq_some {before after : KnotDocumentSession host}
    (advanced : before.advance = some after) :
    after.editor = before.editor ∧ after.writePosture = before.writePosture ∧
      after.sourceVersion.instanceNumber = before.sourceVersion.instanceNumber ∧
      after.sourceVersion.revision = before.sourceVersion.revision + 1 := by
  rcases Option.map_eq_some_iff.mp advanced with ⟨version, raised, rfl⟩
  unfold SourceVersion.advance at raised
  split at raised
  · cases raised
    exact ⟨rfl, rfl, rfl, rfl⟩
  · cases raised

variable {session : KnotDocumentSession host}

theorem edit_cases {command : host.Command} {outcome : Except KnotDocumentRefusal Unit}
    {after : KnotDocumentSession host} (edited : session.edit command = some (outcome, after)) :
    (session.writePosture = .readOnly ∧ outcome = .error .readOnly ∧
      after = session.refuseReadOnlyEdit) ∨
    (session.writePosture ≠ .readOnly ∧ outcome = .ok () ∧
      after.editor = (session.editor.apply command).1 ∧
      after.sourceVersion.instanceNumber = session.sourceVersion.instanceNumber ∧
      ((session.editor.apply command).2 = false ∧ after.sourceVersion = session.sourceVersion ∨
        after.sourceVersion.revision = session.sourceVersion.revision + 1)) := by
  unfold KnotDocumentSession.edit at edited
  split at edited
  · rename_i posture
    cases edited
    exact .inl ⟨posture, rfl, rfl⟩
  · rename_i posture
    rcases Option.map_eq_some_iff.mp edited with ⟨middle, raised, same⟩
    cases same
    refine .inr ⟨posture, rfl, ?_⟩
    split at raised
    · rcases advance_eq_some raised with ⟨editor, _, number, revision⟩
      exact ⟨editor, number, .inr revision⟩
    · rename_i unchanged
      cases raised
      exact ⟨rfl, rfl, .inl ⟨Bool.not_eq_true _ ▸ unchanged, rfl⟩⟩

theorem versioned_edit (documented : host.Documented) {session : KnotDocumentSession host}
    {command : host.Command} {outcome : Except KnotDocumentRefusal Unit}
    {after : KnotDocumentSession host} {later : Disk}
    (edited : session.edit command = some (outcome, after)) :
    Versioned session ⟨after, later, false⟩ := by
  rcases edit_cases edited with ⟨_, _, rfl⟩ | ⟨_, _, editor, number, ⟨quiet, version⟩ | next⟩
  · exact versioned_of_same rfl rfl rfl
  · refine versioned_of_same version ?_ (by rw [editor]; rfl)
    rw [editor]
    exact documented.changeReported command session.editor.input quiet
  · exact versioned_of_next number next

theorem versioned_save (session : KnotDocumentSession host) (faults : EditorFaults)
    (fault : Option IoError) (later : Disk) :
    Versioned session ⟨(session.save files disk faults fault).2.1, later, false⟩ := by
  have address : (session.editor.saveGuarded files disk faults).2.1.address =
      session.editor.address := address_saveGuarded session.editor.plain faults
  unfold KnotDocumentSession.save
  split
  · exact versioned_of_same rfl rfl rfl
  · split
    · exact versioned_of_same rfl rfl rfl
    · simp only
      split
      · exact versioned_of_same rfl rfl address
      · rename_i error _
        cases error with
        | externalChange => exact versioned_of_same rfl rfl address
        | failed message => exact versioned_of_same rfl rfl address

theorem versioned_saveAs {path : FilePath} {faults : EditorFaults}
    {applied : KnotDocumentSession.Applied host} {later : Disk}
    (saved : session.saveAs files disk path faults = some applied) :
    Versioned session ⟨applied.2.1, later, false⟩ := by
  unfold KnotDocumentSession.saveAs at saved
  split at saved
  · cases saved
    exact versioned_of_same rfl rfl rfl
  · simp only at saved
    split at saved
    · rcases Option.map_eq_some_iff.mp saved with ⟨middle, raised, rfl⟩
      split at raised
      · rcases advance_eq_some raised with ⟨_, _, number, revision⟩
        exact versioned_of_next number revision
      · rename_i address
        cases raised
        exact versioned_of_same rfl rfl (not_not.mp address)
    · rename_i error failed
      have address := saveAs_error failed
      cases saved
      cases error with
      | externalChange => exact versioned_of_same rfl rfl address
      | failed message => exact versioned_of_same rfl rfl address

theorem versioned_reload {faults : EditorFaults} {applied : KnotDocumentSession.Applied host}
    {later : Disk} (reloaded : session.reload files disk faults = some applied) :
    Versioned session ⟨applied.2.1, later, applied.1.isOk⟩ := by
  unfold KnotDocumentSession.reload at reloaded
  split at reloaded
  · cases reloaded
    exact versioned_of_same rfl rfl rfl
  · split at reloaded
    · cases reloaded
      exact versioned_of_same rfl rfl rfl
    · simp only at reloaded
      split at reloaded
      · rcases Option.map_eq_some_iff.mp reloaded with ⟨middle, raised, rfl⟩
        rcases advance_eq_some raised with ⟨_, _, number, revision⟩
        exact versioned_of_next number revision
      · rename_i message failed
        cases reloaded
        have kept : (session.editor.reload files disk faults).2 = session.editor := by
          unfold InputEditor.reload at failed ⊢
          split at failed
          · rfl
          · cases failed
        exact versioned_of_same rfl (by simp [KnotDocumentSession.recordSaveFailure, kept])
          (by simp [KnotDocumentSession.recordSaveFailure, kept])

theorem versioned_borrow {change : host.Input → host.Input}
    {lent : Except KnotDocumentRefusal Unit × KnotDocumentSession host} {later : Disk}
    (borrowed : session.borrowInput change = some lent) :
    Versioned session ⟨lent.2, later, lent.1.isOk⟩ := by
  unfold KnotDocumentSession.borrowInput at borrowed
  split at borrowed
  · cases borrowed
    exact versioned_of_same rfl rfl rfl
  · rcases Option.map_eq_some_iff.mp borrowed with ⟨middle, raised, rfl⟩
    rcases advance_eq_some raised with ⟨_, _, number, revision⟩
    exact versioned_of_next number revision

theorem versioned_view {session handled : KnotDocumentSession host} {earlier : Option String}
    {change : Option (host.Input → host.Input)} {later : Disk}
    (viewed : session.viewMessage earlier change = some handled) :
    Versioned session ⟨handled, later, false⟩ := by
  unfold KnotDocumentSession.viewMessage at viewed
  split at viewed
  · cases viewed
    exact versioned_of_same rfl rfl rfl
  · cases change with
    | none =>
      simp only at viewed
      split at viewed
      · rcases advance_eq_some viewed with ⟨_, _, number, revision⟩
        exact versioned_of_next number revision
      · cases viewed
        exact versioned_of_same rfl rfl rfl
    | some change =>
      simp only [Option.any_some, decide_eq_true_eq] at viewed
      split at viewed
      · rcases advance_eq_some viewed with ⟨_, _, number, revision⟩
        exact versioned_of_next number revision
      · rename_i same
        cases viewed
        exact versioned_of_same rfl (not_not.mp same).symm rfl

theorem versioned_selectRange (documented : host.Documented) (session : KnotDocumentSession host)
    (address sourceText : String) (start finish : Nat) (itemKind : String) (later : Disk) :
    Versioned session ⟨(session.selectSourceRange address sourceText start finish
      itemKind).toOption.getD session, later, false⟩ := by
  unfold KnotDocumentSession.selectSourceRange
  split
  · exact versioned_of_same rfl rfl rfl
  · split
    · exact versioned_of_same rfl rfl rfl
    · exact versioned_of_same rfl (documented.selectionOnly _ _) rfl

structure Accepted (session : KnotDocumentSession host) (proposal : Proposal)
    (selection : CaretSelection) (edit : TextEdit) (application : EditApplication) : Prop where
  writable : session.writePosture ≠ .readOnly
  settled : host.composing session.editor.input = false
  selected : session.editor.selection = selection
  single : proposal.edits = [edit]
  range : selectionRange selection = (edit.start, edit.finish)
  valid : (sourceRange session.editor.source edit.start edit.finish).isSome = true
  applied : host.application proposal session.sourceStamp session.editor.source = .ok application

theorem accepted_of_checkProposal {proposal : Proposal} {selection : CaretSelection}
    {fault : Option IoError} {edit : TextEdit} {application : EditApplication}
    (checked : session.checkProposal disk proposal selection fault = .ok (edit, application)) :
    Accepted session proposal selection edit application := by
  rcases bind_eq_ok_iff.mp checked with ⟨range, selectable, afterRange⟩
  rcases then_eq_ok_iff.mp selectable with ⟨authority, afterAuthority⟩
  rcases refuse_eq_ok_iff.mp afterAuthority with ⟨selected, afterSelected⟩
  rcases refuse_eq_ok_iff.mp afterSelected with ⟨valid, found⟩
  cases found
  unfold KnotDocumentSession.checkProposalAuthority at authority
  split at authority
  · cases authority
  · rename_i writable
    split at authority
    · cases authority
    · rename_i settled
      split at afterRange
      · rename_i only single
        rcases refuse_eq_ok_iff.mp afterRange with ⟨within, afterWithin⟩
        rcases bind_eq_ok_iff.mp afterWithin with ⟨found, applied, done⟩
        cases done
        simp only [Bool.or_eq_true, decide_eq_true_eq, not_or] at writable
        simp only [ne_eq, not_or, not_not] at within
        refine ⟨writable.1, by simpa using settled, not_not.mp selected, single, ?_, ?_, applied⟩
        · rw [within.1, within.2]
        · rw [within.1, within.2, Option.isSome_iff_ne_none]
          simpa using valid
      · cases afterRange

theorem applySourceProposal_cases (documented : host.Documented)
    {session after : KnotDocumentSession host} {proposal : Proposal} {selection : CaretSelection}
    {fault : Option IoError} {outcome : Except String EditReceipt}
    (performed : session.applySourceProposal disk proposal selection fault =
      some (outcome, after)) :
    ((∃ error, outcome = .error error) ∧ after = session) ∨
    ∃ edit application range, Accepted session proposal selection edit application ∧
      outcome = .ok application.receipt ∧
      sourceRange session.editor.source edit.start edit.finish = some range ∧
      after.editor.source = replacedBy range edit.text ∧
      after.editor.address = session.editor.address ∧
      after.sourceVersion = { session.sourceVersion with
        revision := application.receipt.result.revision } := by
  unfold KnotDocumentSession.applySourceProposal at performed
  split at performed
  · cases performed
    exact .inl ⟨⟨_, rfl⟩, rfl⟩
  · rename_i edit application checked
    have accepted := accepted_of_checkProposal checked
    rcases Option.map_eq_some_iff.mp performed with ⟨⟨result, edited⟩, typed, same⟩
    rcases edit_cases typed with
      ⟨readOnly, _, _⟩ | ⟨_, rfl, editor, number, _⟩
    · exact absurd readOnly accepted.writable
    · cases same
      rcases Option.isSome_iff_exists.mp accepted.valid with ⟨range, located⟩
      refine .inr ⟨edit, application, range, accepted, rfl, located, ?_, ?_, ?_⟩
      · -- The insertion meets the selection that was checked, over the text that was checked.
        have again := documented.reselected session.editor.input
        have inserted := documented.inserted edit.text
          (host.apply (host.setSelection (host.selection session.editor.input))
            session.editor.input).1 range
        rw [documented.selectionOnly, again.1, again.2] at inserted
        have ranges := accepted.range
        rw [← accepted.selected] at ranges
        have replaced := inserted accepted.settled (by
          rw [show host.selection session.editor.input = session.editor.selection from rfl, ranges]
          exact located)
        change host.text (host.apply (host.setSelection _) edited.editor.input).1 = _
        rw [documented.selectionOnly, editor, ← replaced, ← accepted.selected]
        rfl
      · change edited.editor.address = _
        rw [editor]
        rfl
      · simp only [number]

theorem versioned_propose (documented : host.Documented) {session : KnotDocumentSession host}
    {proposal : Proposal} {selection : CaretSelection} {fault : Option IoError}
    {applied : Except String EditReceipt × KnotDocumentSession host} {later : Disk}
    (performed : session.applySourceProposal disk proposal selection fault = some applied) :
    Versioned session ⟨applied.2, later, applied.1.isOk⟩ := by
  rcases applied with ⟨outcome, after⟩
  rcases applySourceProposal_cases documented performed with
    ⟨⟨error, rfl⟩, rfl⟩ | ⟨edit, application, range, accepted, _, _, _, _, version⟩
  · exact versioned_of_same rfl rfl rfl
  · have checked := documented.checked _ _ _ _ accepted.applied
    exact versioned_of_next (by rw [version]) (by rw [version, checked.2.2]; rfl)

theorem versioned_perform (documented : host.Documented) {session : KnotDocumentSession host}
    {call : SessionCall host} {after : Performed host}
    (performed : session.perform files disk call = some after) : Versioned session after := by
  cases call with
  | apply intent =>
    rcases Option.map_eq_some_iff.mp performed with ⟨applied, done, rfl⟩
    cases intent with
    | edit command =>
      rcases Option.map_eq_some_iff.mp done with ⟨⟨outcome, edited⟩, typed, rfl⟩
      exact versioned_edit documented typed
    | save faults fault =>
      cases done
      exact versioned_save session faults fault _
    | saveAs path faults => exact versioned_saveAs done
    | reload faults => exact versioned_reload done
  | borrow change =>
    rcases Option.map_eq_some_iff.mp performed with ⟨lent, borrowed, rfl⟩
    exact versioned_borrow borrowed
  | view earlier change =>
    rcases Option.map_eq_some_iff.mp performed with ⟨handled, viewed, rfl⟩
    exact versioned_view viewed
  | selectRange address sourceText start finish itemKind =>
    cases performed
    exact versioned_selectRange documented session address sourceText start finish itemKind _
  | propose proposal selection fault =>
    rcases Option.map_eq_some_iff.mp performed with ⟨applied, done, rfl⟩
    exact versioned_propose documented done

/-! The sessions of a world are cells of a register, and their captures are stamps taken there. -/

def OpenSession.cell (opened : OpenSession host) : VersionStamp.Cell :=
  ⟨opened.session.sourceVersion.instanceNumber, opened.session.sourceVersion.revision,
    opened.changes⟩

def Capture.taken (capture : Capture) : VersionStamp.Taken :=
  ⟨capture.index, capture.snapshot.stamp.instanceNumber, capture.snapshot.stamp.revision,
    capture.changes⟩

def SessionWorld.register (world : SessionWorld host) : VersionStamp.Register :=
  ⟨world.sessions.map OpenSession.cell, world.captures.map Capture.taken, world.nextInstance⟩

theorem SourceVersion.new_eq_some {next later : Nat} {version : SourceVersion}
    (made : SourceVersion.new next = some (version, later)) :
    version = ⟨next, 0⟩ ∧ later = next + 1 := by
  unfold SourceVersion.new at made
  split at made
  · cases made
    exact ⟨rfl, rfl⟩
  · cases made

theorem register_step (documented : host.Documented) {world after : SessionWorld host}
    {action : WorldAction host} (stepped : world.step files action = some after) :
    VersionStamp.Step world.register after.register := by
  have idle : VersionStamp.Step world.register world.register := .skip _ (Nat.le_refl _)
  cases action with
  | «open» opening =>
    simp only [SessionWorld.step, SessionWorld.open] at stepped
    split at stepped
    · cases stepped
      exact idle
    · rcases Option.map_eq_some_iff.mp stepped with ⟨⟨version, next⟩, made, rfl⟩
      rcases SourceVersion.new_eq_some made with ⟨rfl, rfl⟩
      simp only
      split
      · simp only [SessionWorld.register, List.map_append]
        exact .create world.register (Nat.le_refl _) (Nat.lt_succ_self _)
      · exact .skip world.register (Nat.le_succ _)
  | call index call =>
    simp only [SessionWorld.step, SessionWorld.call] at stepped
    split at stepped
    · cases stepped
      exact idle
    · rename_i before found
      rcases Option.map_eq_some_iff.mp stepped with ⟨performed, done, rfl⟩
      have versioned := versioned_perform documented done
      simp only [SessionWorld.register, List.map_set]
      have held : world.register.cells[index]? = some before.cell := by
        rw [SessionWorld.register, List.getElem?_map, found, Option.map_some]
      refine .update world.register held
        ⟨versioned.instanceNumber, versioned.revision, Nat.le_add_right _ _, ?_⟩
      intro raised
      refine versioned.marked ?_
      by_contra same
      simp [OpenSession.cell, same] at raised
  | capture index =>
    cases stepped
    unfold SessionWorld.capture
    split
    · exact idle
    · rename_i opened found
      simp only [SessionWorld.register, List.map_append]
      have held : world.register.cells[index]? = some opened.cell := by
        rw [SessionWorld.register, List.getElem?_map, found, Option.map_some]
      exact .take world.register held
  | elsewhere disk =>
    cases stepped
    exact idle

theorem sound_run (documented : host.Documented) (actions : List (WorldAction host))
    {world : SessionWorld host} (reached : SessionWorld.run files disk actions = some world) :
    VersionStamp.Sound world.register := by
  induction actions using List.reverseRecOn generalizing world with
  | nil =>
    cases reached
    exact VersionStamp.sound_empty 1
  | append_singleton actions action ih =>
    rw [SessionWorld.run, List.foldlM_append, Option.bind_eq_bind, Option.bind_eq_some_iff]
      at reached
    rcases reached with ⟨before, earlier, stepped⟩
    simp only [List.foldlM_cons, List.foldlM_nil, bind_pure] at stepped
    exact VersionStamp.sound_step (ih earlier) (register_step documented stepped)

/-- What a proposal from `capture` that session `index` accepts says, and what it leaves there. -/
structure AppliedOnce (capture : Capture) (proposal : Proposal) (selection : CaretSelection)
    (index : Nat) (opened : OpenSession host) (receipt : EditReceipt)
    (after : KnotDocumentSession host) : Prop where
  own : index = capture.index
  current : opened.changes = capture.changes
  replaced : ∃ edit range, proposal.edits = [edit] ∧
    selectionRange selection = (edit.start, edit.finish) ∧
    sourceRange capture.snapshot.source edit.start edit.finish = some range ∧
    after.editor.source = replacedBy range edit.text
  receipt : receipt.base = capture.snapshot.stamp ∧ receipt.result = after.sourceStamp

theorem no_stale_proposal_is_applied (documented : host.Documented)
    (actions : List (WorldAction host)) {world : SessionWorld host}
    (reached : SessionWorld.run files disk actions = some world) {index : Nat}
    {opened : OpenSession host} (found : world.sessions[index]? = some opened) :
    (∀ capture ∈ world.captures, ∀ proposal selection fault receipt after,
      proposal.base = capture.snapshot →
      opened.session.applySourceProposal world.disk proposal selection fault =
        some (.ok receipt, after) →
      AppliedOnce capture proposal selection index opened receipt after) ∧
    (∀ proposal selection fault error after,
      opened.session.applySourceProposal world.disk proposal selection fault =
        some (.error error, after) →
      after.editor.source = opened.session.editor.source ∧
        after.editor.selection = opened.session.editor.selection ∧
        after.sourceStamp = opened.session.sourceStamp) ∧
    ∀ call after, opened.session.perform files world.disk call = some after →
      Versioned opened.session after := by
  have sound := sound_run documented actions reached
  refine ⟨?_, ?_, fun call after performed => versioned_perform documented performed⟩
  · intro capture member proposal selection fault receipt after base applied
    rcases applySourceProposal_cases documented applied with
      ⟨⟨error, impossible⟩, _⟩ |
        ⟨edit, application, range, accepted, same, located, source, address, version⟩
    · cases impossible
    · cases same
      have checked := documented.checked _ _ _ _ accepted.applied
      rw [base] at checked
      have cell : world.register.cells[index]? = some opened.cell := by
        rw [SessionWorld.register, List.getElem?_map, found, Option.map_some]
      have taken : capture.taken ∈ world.register.taken := List.mem_map_of_mem member
      rcases VersionStamp.taken_current sound taken cell
        (by rw [Capture.taken, checked.1]; rfl) (by rw [Capture.taken, checked.1]; rfl) with
        ⟨own, current⟩
      refine ⟨own, current, ⟨edit, range, accepted.single, accepted.range, ?_, source⟩, ?_⟩
      · rw [checked.1]
        exact located
      · refine ⟨by rw [checked.2.1, checked.1], ?_⟩
        rw [KnotDocumentSession.sourceStamp, address, version, checked.2.2]
        rfl
  · intro proposal selection fault error after refused
    rcases applySourceProposal_cases documented refused with
      ⟨_, rfl⟩ | ⟨_, _, _, _, impossible, _⟩
    · exact ⟨rfl, rfl, rfl⟩
    · cases impossible

structure ReefInput where
  text : String
  selection : CaretSelection := {}
  past : List (String × CaretSelection) := []

inductive ReefCommand
  | insert (text : String)
  | setSelection (selection : CaretSelection)
  | undo

def reefApply (command : ReefCommand) (input : ReefInput) : ReefInput × Bool :=
  match command with
  | .setSelection selection => ({ input with selection := selection }, false)
  | .undo =>
    match input.past with
    | [] => (input, false)
    | (text, selection) :: past => (⟨text, selection, past⟩, decide (text ≠ input.text))
  | .insert text =>
    let range := selectionRange input.selection
    match sourceRange input.text range.1 range.2 with
    | none => (input, false)
    | some found =>
      let caret : CaretPosition := ⟨range.1 + text.utf8ByteSize, .downstream⟩
      (⟨replacedBy found text, ⟨caret, caret⟩, (input.text, input.selection) :: input.past⟩,
        decide (replacedBy found text ≠ input.text))

def reefHost : TextHost where
  Input := ReefInput
  Command := ReefCommand
  scratch _ source := { text := source }
  text := ReefInput.text
  selection := ReefInput.selection
  composing _ := false
  insert := .insert
  setSelection := .setSelection
  apply := reefApply
  application proposal stamp source :=
    if proposal.base = ⟨stamp, source⟩ then
      .ok ⟨source, ⟨stamp, { stamp with revision := stamp.revision + 1 }⟩⟩
    else .error "the proposal is stale"

theorem reefHost_documented : reefHost.Documented where
  changeReported := by
    intro command input quiet
    cases command with
    | setSelection selection => rfl
    | undo =>
      simp only [reefHost, reefApply] at quiet ⊢
      split at quiet
      · rfl
      · simpa using quiet
    | insert text =>
      simp only [reefHost, reefApply] at quiet ⊢
      split at quiet
      · rfl
      · simpa using quiet
  selectionOnly _ _ := rfl
  reselected _ := ⟨rfl, rfl⟩
  inserted := by
    intro text input range _ located
    simp only [reefHost, reefApply] at located ⊢
    rw [located]
  checked := by
    intro proposal stamp source application applied
    simp only [reefHost] at applied
    split at applied
    · rename_i base
      cases applied
      exact ⟨base, rfl, rfl⟩
    · cases applied

def reefSelection : CaretSelection := ⟨⟨9, .upstream⟩, ⟨0, .downstream⟩⟩

def reefActions : List (WorldAction reefHost) := [
  .open (.scratch "memory:reef" "日本語 tail"),
  .call 0 (.apply (.edit (.setSelection reefSelection))),
  .capture 0,
  .call 0 (.apply (.edit (.insert "link"))),
  .call 0 (.apply (.edit .undo))]

def reefFiles : EditorHost where
  display _ := "/notes/reef.djot"
  toStringLossy _ := "/notes/reef.djot"
  utf8Error _ := "invalid utf-8 sequence"
  processId := 7

def reefDisk : Disk where
  place := id
  entry _ := none
  file _ := ⟨.empty, false⟩
  next := 0
  numbered spot inode held := by cases held

def reefWorld : SessionWorld reefHost :=
  (SessionWorld.run reefFiles reefDisk reefActions).getD (.start reefDisk)

theorem reefWorld_reached : SessionWorld.run reefFiles reefDisk reefActions = some reefWorld := by
  have finishes : (SessionWorld.run reefFiles reefDisk reefActions).isSome = true := by
    decide
  rcases Option.isSome_iff_exists.mp finishes with ⟨world, reached⟩
  rw [reefWorld, reached, Option.getD_some]

theorem no_stale_proposal_is_applied_reef :
    ∃ opened, reefWorld.sessions[0]? = some opened ∧
      reefWorld.captures.map (fun capture => capture.snapshot.source) =
        [opened.session.editor.source] ∧
      ∀ capture ∈ reefWorld.captures, ∀ proposal selection fault receipt after,
        proposal.base = capture.snapshot →
        opened.session.applySourceProposal reefWorld.disk proposal selection fault ≠
          some (.ok receipt, after) := by
  have changed : reefWorld.sessions[0]?.map OpenSession.changes = some 2 := by decide
  have text : reefWorld.sessions[0]?.map (fun opened => opened.session.editor.source) =
      some "日本語 tail" := by decide
  have captured : reefWorld.captures.map (fun capture => (capture.changes,
      capture.snapshot.source)) = [(0, "日本語 tail")] := by decide
  rcases Option.map_eq_some_iff.mp changed with ⟨opened, found, changes⟩
  rw [found, Option.map_some, Option.some_inj] at text
  refine ⟨opened, found, ?_, ?_⟩
  · rw [text]
    exact congrArg (List.map Prod.snd) captured
  · intro capture member proposal selection fault receipt after base applied
    have once := (no_stale_proposal_is_applied reefHost_documented reefActions reefWorld_reached
      found).1 capture member proposal selection fault receipt after base applied
    have early : (capture.changes, capture.snapshot.source) ∈ [(0, "日本語 tail")] := by
      rw [← captured]
      exact List.mem_map_of_mem member
    have none : capture.changes = 0 := congrArg Prod.fst (List.mem_singleton.mp early)
    have current := once.current
    omega

end KnotEditor.Document
