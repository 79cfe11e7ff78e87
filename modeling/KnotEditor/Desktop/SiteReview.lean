import KnotEditor.Desktop.SiteSubmission
import KnotEditor.Library.Run
import KnotEditor.Library.Fallible

/-! What stands reviewed on a document's site, and what is in flight from it. The log of a run says
which review a send may go by; each operation keeps the site in step with it. -/

namespace KnotEditor.SiteSubmission

open EventLog

variable {host : SiteHost}

namespace SiteEvent

def review : SiteEvent host → Effect host.Prepared
  | prepared value => .issues value
  | promptSelected | discarded | sent _ _ => .ends
  | _ => .keeps

def token : SiteEvent host → Effect String
  | tokenTyped token => .issues token
  | promptSelected | discarded | tokenCleared | sent _ _ => .ends
  | _ => .keeps

def opening : SiteEvent host → Effect (String × String)
  | formOpened source address _ => .issues (source, address)
  | formClosed => .ends
  | _ => .keeps

def inputs : SiteEvent host → Effect (List String)
  | formOpened _ _ inputs => .issues inputs
  | fieldTyped inputs => .issues inputs
  | formClosed => .ends
  | _ => .keeps

def micronReview : SiteEvent host → Effect MicronPreparedRequest
  | micronPrepared request => .issues request
  | formOpened _ _ _ | formClosed | fieldChecked | micronDiscarded | micronSent _ => .ends
  | _ => .keeps

def outstanding : SiteEvent host → Effect MicronSend
  | micronSent send => .issues send
  | micronCancelled | micronFinished => .ends
  | _ => .keeps

end SiteEvent

def Mail.Answered (letter : Mail) : Prop :=
  (∃ id outcome, letter = .micron id outcome) ∨ letter = .disconnected

namespace SiteWorld

variable (world : SiteWorld host)

def InFlight (channel : Nat) : Prop :=
  channel < world.workers.length ∧ world.mail channel = .empty

structure ComposerKept : Prop where
  review : standing SiteEvent.review world.log = world.site.submission.prepared
  token : (standing SiteEvent.token world.log).getD "" = world.site.submission.token

structure FormKept : Prop where
  opening : standing SiteEvent.opening world.log =
    world.site.micron.form.map fun editor => (editor.source, editor.address)
  inputs : standing SiteEvent.inputs world.log =
    world.site.micron.form.map MicronFormEditor.inputs
  review : standing SiteEvent.micronReview world.log =
    world.site.micron.form.bind MicronFormEditor.prepared

def Awaited : Option (UInt64 × String × String) → Option MicronSend → Prop
  | none, send => send = none
  | some (id, source, address), send => ∃ sent, send = some sent ∧ sent.source = source ∧
      sent.address = address ∧ world.site.micron.receiver = some sent.channel ∧
      ∃ request interface config,
        world.workers[sent.channel]? = some (.micron id request interface config)

structure FlightKept : Prop where
  single : world.site.submission.receiver = none ∨ world.site.micron.receiver = none
  awaited : ∀ channel, world.InFlight channel →
    world.site.submission.receiver = some channel ∨ world.site.micron.receiver = some channel
  unopened : ∀ channel, world.workers.length ≤ channel → world.mail channel = .empty
  answers : ∀ channel id outcome, world.mail channel = .micron id outcome →
    ∃ request interface config,
      world.workers[channel]? = some (.micron id request interface config)
  cancel : world.site.micron.cancel.isSome = world.site.micron.active.isSome
  outstanding : world.Awaited world.site.micron.active (standing SiteEvent.outstanding world.log)

structure Kept : Prop where
  composer : world.ComposerKept
  form : world.FormKept
  flight : world.FlightKept

variable {world}

theorem Kept.say (kept : world.Kept) (text : String) : (world.say text).Kept where
  composer := ⟨kept.composer.review, kept.composer.token⟩
  form := ⟨kept.form.opening, kept.form.inputs, kept.form.review⟩
  flight := ⟨kept.flight.single, kept.flight.awaited, kept.flight.unopened, kept.flight.answers,
    kept.flight.cancel, kept.flight.outstanding⟩

theorem fresh_kept (surroundings : Surroundings host) : (SiteWorld.fresh surroundings).Kept where
  composer := ⟨rfl, rfl⟩
  form := ⟨rfl, rfl, rfl⟩
  flight := by
    refine ⟨Or.inl rfl, ?_, fun _ _ => rfl, ?_, rfl, rfl⟩
    · intro channel flying
      exact absurd flying.1 (Nat.not_lt_zero channel)
    · intro channel id outcome found
      cases found

theorem FormKept.observe (kept : world.FormKept) {event : SiteEvent host}
    (opening : event.opening = .keeps) (inputs : event.inputs = .keeps)
    (review : event.micronReview = .keeps) : (world.observe [event]).FormKept where
  opening := by
    rw [SiteWorld.observe, standing_append_singleton, opening]
    exact kept.opening
  inputs := by
    rw [SiteWorld.observe, standing_append_singleton, inputs]
    exact kept.inputs
  review := by
    rw [SiteWorld.observe, standing_append_singleton, review]
    exact kept.review

theorem ComposerKept.observe (kept : world.ComposerKept) {event : SiteEvent host}
    (review : event.review = .keeps) (token : event.token = .keeps) :
    (world.observe [event]).ComposerKept where
  review := by
    rw [SiteWorld.observe, standing_append_singleton, review]
    exact kept.review
  token := by
    rw [SiteWorld.observe, standing_append_singleton, token]
    exact kept.token

theorem FlightKept.observe (kept : world.FlightKept) {event : SiteEvent host}
    (outstanding : event.outstanding = .keeps) : (world.observe [event]).FlightKept where
  single := kept.single
  awaited := kept.awaited
  unopened := kept.unopened
  answers := kept.answers
  cancel := kept.cancel
  outstanding := by
    rw [SiteWorld.observe, standing_append_singleton, outstanding]
    exact kept.outstanding

theorem FlightKept.withSubmission (kept : world.FlightKept) {submission : Submission host}
    (receiver : submission.receiver = world.site.submission.receiver) :
    (world.withSubmission submission).FlightKept where
  single := by simpa only [SiteWorld.withSubmission, receiver] using kept.single
  awaited := by
    intro channel flying
    simpa only [SiteWorld.withSubmission, receiver] using kept.awaited channel flying
  unopened := kept.unopened
  answers := kept.answers
  cancel := kept.cancel
  outstanding := kept.outstanding

theorem FlightKept.compose (kept : world.FlightKept) {submission : Submission host}
    {event : SiteEvent host} (receiver : submission.receiver = world.site.submission.receiver)
    (outstanding : event.outstanding = .keeps) :
    ((world.withSubmission submission).observe [event]).FlightKept :=
  (kept.withSubmission receiver).observe outstanding

theorem FormKept.withSubmission (kept : world.FormKept) (submission : Submission host) :
    (world.withSubmission submission).FormKept := ⟨kept.opening, kept.inputs, kept.review⟩

theorem ComposerKept.withMicron (kept : world.ComposerKept) (micron : MicronRequest host) :
    (world.withMicron micron).ComposerKept := ⟨kept.review, kept.token⟩

theorem FlightKept.withMicron (kept : world.FlightKept) {micron : MicronRequest host}
    (receiver : micron.receiver = world.site.micron.receiver)
    (active : micron.active = world.site.micron.active)
    (cancel : micron.cancel = world.site.micron.cancel) :
    (world.withMicron micron).FlightKept where
  single := by simpa only [SiteWorld.withMicron, receiver] using kept.single
  awaited := by
    intro channel flying
    simpa only [SiteWorld.withMicron, receiver] using kept.awaited channel flying
  unopened := kept.unopened
  answers := kept.answers
  cancel := by simpa only [SiteWorld.withMicron, active, cancel] using kept.cancel
  outstanding := by
    have outstanding := kept.outstanding
    simp only [SiteWorld.withMicron, active]
    unfold Awaited at outstanding ⊢
    simpa only [receiver] using outstanding

theorem FlightKept.composeMicron (kept : world.FlightKept) {micron : MicronRequest host}
    {event : SiteEvent host} (receiver : micron.receiver = world.site.micron.receiver)
    (active : micron.active = world.site.micron.active)
    (cancel : micron.cancel = world.site.micron.cancel) (outstanding : event.outstanding = .keeps) :
    ((world.withMicron micron).observe [event]).FlightKept :=
  (kept.withMicron receiver active cancel).observe outstanding

theorem ComposerKept.spawn (kept : world.ComposerKept) (worker : Worker host) :
    (world.spawn worker).ComposerKept := ⟨kept.review, kept.token⟩

theorem ComposerKept.withdraw {event : SiteEvent host} {submission : Submission host}
    (review : event.review = .ends) (token : event.token = .ends)
    (prepared : submission.prepared = none) (cleared : submission.token = "") :
    ((world.withSubmission submission).observe [event]).ComposerKept where
  review := by
    rw [SiteWorld.observe, standing_append_singleton, review]
    exact prepared.symm
  token := by
    rw [SiteWorld.observe, standing_append_singleton, token]
    exact cleared.symm

theorem selectSpartanPrompt_kept (kept : world.Kept) (target : String) :
    (world.selectSpartanPrompt target).Kept where
  composer := .withdraw rfl rfl rfl rfl
  form := (kept.form.withSubmission _).observe rfl rfl rfl
  flight := kept.flight.compose (by rfl) (by rfl)

theorem discard_kept (kept : world.Kept) : world.discard.Kept where
  composer := .withdraw rfl rfl rfl rfl
  form := (kept.form.withSubmission _).observe rfl rfl rfl
  flight := kept.flight.compose (by rfl) (by rfl)

theorem keepPrepared_kept (kept : world.Kept) (prepared : host.Prepared) :
    (world.keepPrepared prepared).Kept where
  composer := by
    constructor
    · rw [SiteWorld.keepPrepared, SiteWorld.observe, standing_append_singleton]
      rfl
    · rw [SiteWorld.keepPrepared, SiteWorld.observe, standing_append_singleton]
      exact kept.composer.token
  form := (kept.form.withSubmission _).observe rfl rfl rfl
  flight := kept.flight.compose (by rfl) (by rfl)

theorem clearToken_kept (kept : world.Kept) : world.clearToken.Kept where
  composer := by
    constructor
    · rw [SiteWorld.clearToken, SiteWorld.observe, standing_append_singleton]
      exact kept.composer.review
    · rw [SiteWorld.clearToken, SiteWorld.observe, standing_append_singleton]
      rfl
  form := (kept.form.withSubmission _).observe rfl rfl rfl
  flight := kept.flight.compose (by rfl) (by rfl)

theorem typeToken_kept (kept : world.Kept) (token : String) :
    ((world.withSubmission { world.site.submission with token }).observe
      [.tokenTyped token]).Kept where
  composer := by
    constructor
    · rw [SiteWorld.observe, standing_append_singleton]
      exact kept.composer.review
    · rw [SiteWorld.observe, standing_append_singleton]
      rfl
  form := (kept.form.withSubmission _).observe rfl rfl rfl
  flight := kept.flight.compose (by rfl) (by rfl)

theorem typed_kept (kept : world.Kept) {submission : Submission host}
    (prepared : submission.prepared = world.site.submission.prepared)
    (token : submission.token = world.site.submission.token)
    (receiver : submission.receiver = world.site.submission.receiver) :
    (world.withSubmission submission).Kept where
  composer := ⟨kept.composer.review.trans prepared.symm, kept.composer.token.trans token.symm⟩
  form := kept.form.withSubmission _
  flight := kept.flight.withSubmission receiver

theorem prepareTitan_kept (kept : world.Kept) (saved : Except String ByteArray) :
    (world.prepareTitan saved).Kept := by
  unfold SiteWorld.prepareTitan
  split
  · exact kept.say _
  · split
    · exact kept.say _
    · split
      · exact kept.say _
      · split
        · exact kept.say _
        · simp only
          split
          · exact kept.say _
          · split
            · exact keepPrepared_kept kept _
            · exact kept.say _

theorem prepareSpartan_kept (kept : world.Kept) : world.prepareSpartan.Kept := by
  unfold SiteWorld.prepareSpartan
  split
  · exact kept.say _
  · have cleared := clearToken_kept kept
    simp only
    split
    · exact cleared.say _
    · split
      · exact keepPrepared_kept cleared _
      · exact cleared.say _

theorem not_busy_iff {site : DocumentSite host} :
    site.busy = false ↔ site.submission.receiver = none ∧ site.micron.receiver = none := by
  simp [DocumentSite.busy]

theorem FlightKept.idle (kept : world.FlightKept) (idle : world.site.busy = false) :
    (∀ channel, ¬ world.InFlight channel) ∧ world.site.micron.active = none ∧
      standing SiteEvent.outstanding world.log = none := by
  obtain ⟨submission, micron⟩ := not_busy_iff.mp idle
  refine ⟨?_, ?_⟩
  · intro channel flying
    rcases kept.awaited channel flying with awaited | awaited
    · rw [submission] at awaited
      cases awaited
    · rw [micron] at awaited
      cases awaited
  · have outstanding := kept.outstanding
    cases active : world.site.micron.active with
    | none =>
      rw [active] at outstanding
      exact ⟨rfl, outstanding⟩
    | some held =>
      rw [active] at outstanding
      obtain ⟨sent, _, _, _, awaited, _⟩ := outstanding
      rw [micron] at awaited
      cases awaited

theorem inFlight_spawn {worker : Worker host} {channel : Nat}
    (flying : (world.spawn worker).InFlight channel) :
    world.InFlight channel ∨ channel = world.workers.length := by
  obtain ⟨bound, empty⟩ := flying
  simp only [SiteWorld.spawn, List.length_append, List.length_singleton] at bound
  rcases Nat.lt_succ_iff_lt_or_eq.mp bound with earlier | new
  · exact Or.inl ⟨earlier, empty⟩
  · exact Or.inr new

theorem answers_spawn (kept : world.FlightKept) (worker : Worker host) (channel : Nat)
    (id : UInt64) (outcome : Except String MicronResponse)
    (found : world.mail channel = .micron id outcome) :
    ∃ request interface config,
      (world.workers ++ [worker])[channel]? = some (.micron id request interface config) := by
  obtain ⟨request, interface, config, held⟩ := kept.answers channel id outcome found
  refine ⟨request, interface, config, ?_⟩
  rw [List.getElem?_append_left (List.getElem?_eq_some_iff.mp held).1]
  exact held

theorem takeForSend_eq_ok {submission left : Submission host} {prepared : host.Prepared}
    {token : Option String} (taken : submission.takeForSend = .ok ((prepared, token), left)) :
    submission.prepared = some prepared ∧ left.prepared = none ∧ left.token = "" ∧
      ∀ text, token = some text →
        (host.target prepared).startsWith "titan://" = true ∧ submission.token = text ∧
          text ≠ "" := by
  unfold Submission.takeForSend at taken
  split at taken
  · cases taken
  next found =>
    cases taken
    refine ⟨found, rfl, rfl, ?_⟩
    intro text given
    split at given
    next both =>
      cases given
      exact ⟨both.1, rfl, both.2⟩
    · cases given

theorem sendSubmission_kept (kept : world.Kept) : world.sendSubmission.Kept := by
  unfold SiteWorld.sendSubmission
  split
  · exact kept.say _
  next idle =>
    rw [Bool.not_eq_true] at idle
    have quiet := kept.flight.idle idle
    have receivers := not_busy_iff.mp idle
    split
    · exact kept.say _
    · split
      · exact kept.say _
      next prepared token submission taken =>
        obtain ⟨_, emptied, cleared, _⟩ := takeForSend_eq_ok taken
        refine ⟨?_, ?_, ?_⟩
        · constructor
          · rw [SiteWorld.observe, standing_append_singleton]
            exact emptied.symm
          · rw [SiteWorld.observe, standing_append_singleton]
            exact cleared.symm
        · have form : ((world.withSubmission { submission with
              result := some "Sending reviewed bytes…"
              receiver := some world.workers.length }).spawn
                (.submission prepared token)).FormKept :=
            ⟨kept.form.opening, kept.form.inputs, kept.form.review⟩
          exact form.observe rfl rfl rfl
        · refine FlightKept.observe ?_ rfl
          refine ⟨Or.inr receivers.2, ?_, ?_, ?_, kept.flight.cancel, ?_⟩
          · intro channel flying
            rcases inFlight_spawn flying with earlier | rfl
            · exact absurd earlier (quiet.1 channel)
            · exact Or.inl rfl
          · intro channel bound
            refine kept.flight.unopened channel ?_
            simp only [SiteWorld.spawn, SiteWorld.withSubmission, List.length_append] at bound
            omega
          · exact answers_spawn kept.flight _
          · have inactive : world.site.micron.active = none := quiet.2.1
            simp only [SiteWorld.spawn, SiteWorld.withSubmission, inactive]
            exact quiet.2.2

theorem form_kept (kept : world.Kept) {form : Option (MicronFormEditor host)}
    {event : SiteEvent host} (review : event.review = .keeps) (token : event.token = .keeps)
    (outstanding : event.outstanding = .keeps)
    (opening : event.opening.apply (world.site.micron.form.map fun editor =>
      (editor.source, editor.address)) = form.map fun editor => (editor.source, editor.address))
    (inputs : event.inputs.apply (world.site.micron.form.map MicronFormEditor.inputs) =
      form.map MicronFormEditor.inputs)
    (reviewed : event.micronReview.apply (world.site.micron.form.bind MicronFormEditor.prepared) =
      form.bind MicronFormEditor.prepared) :
    ((world.withMicron { world.site.micron with form }).observe [event]).Kept where
  composer := (kept.composer.withMicron _).observe review token
  form := by
    refine ⟨?_, ?_, ?_⟩
    · rw [SiteWorld.observe, standing_append_singleton]
      simp only [SiteWorld.withMicron, kept.form.opening]
      exact opening
    · rw [SiteWorld.observe, standing_append_singleton]
      simp only [SiteWorld.withMicron, kept.form.inputs]
      exact inputs
    · rw [SiteWorld.observe, standing_append_singleton]
      simp only [SiteWorld.withMicron, kept.form.review]
      exact reviewed
  flight := kept.flight.composeMicron rfl rfl rfl outstanding

theorem formTouched_kept (kept : world.Kept) {editor : MicronFormEditor host}
    (held : world.site.micron.form = some editor) (form : host.Form) :
    (world.withMicron { world.site.micron with form := some { editor with form } }).Kept where
  composer := kept.composer.withMicron _
  form := by
    refine ⟨?_, ?_, ?_⟩
    · exact kept.form.opening.trans (by rw [held]; rfl)
    · exact kept.form.inputs.trans (by rw [held]; rfl)
    · exact kept.form.review.trans (by rw [held]; rfl)
  flight := kept.flight.withMicron rfl rfl rfl

theorem openMicronForm_kept (kept : world.Kept) : world.openMicronForm.Kept := by
  unfold SiteWorld.openMicronForm
  simp only
  split
  · exact kept.say _
  · split
    · exact kept.say _
    next micron opened =>
      obtain ⟨form, _, rest⟩ := Fallible.bind_eq_ok_iff.mp opened
      split at rest
      · cases rest
      · cases rest
        have said := kept.say ("Form values are local and temporary. Prepare an action " ++
          "before any request can be considered.")
        exact form_kept said rfl rfl rfl rfl rfl rfl

theorem typeField_kept (kept : world.Kept) (index : Nat) (text : String) :
    (world.typeField index text).Kept := by
  unfold SiteWorld.typeField
  split
  · exact kept
  next editor held => exact form_kept kept rfl rfl rfl (by rw [held]; rfl) rfl (by rw [held]; rfl)

theorem discardPrepared_kept (kept : world.Kept) : world.discardPrepared.Kept := by
  unfold SiteWorld.discardPrepared
  split
  · exact kept
  next editor held =>
    exact form_kept kept rfl rfl rfl (by rw [held]; rfl) (by rw [held]; rfl) rfl

theorem setChecked_kept (kept : world.Kept) (index : Nat) (checked : Bool) :
    (world.setChecked index checked).Kept := by
  unfold SiteWorld.setChecked MicronRequest.setChecked
  cases held : world.site.micron.form with
  | none => exact kept.say _
  | some editor =>
    simp only
    rcases host.setChecked editor.form index checked with ⟨form, error | ⟨⟩⟩
    · exact (formTouched_kept kept held form).say _
    · exact form_kept kept rfl rfl rfl (by rw [held]; rfl) (by rw [held]; rfl) rfl

theorem prepareMicronForm_kept (kept : world.Kept) (action : Nat) :
    (world.prepareMicronForm action).Kept := by
  unfold SiteWorld.prepareMicronForm MicronRequest.prepare
  cases held : world.site.micron.form with
  | none => exact kept.say _
  | some editor =>
    simp only
    split
    next found =>
      split at found
      · cases found
        exact kept.say _
      · split at found
        · cases found
          exact (formTouched_kept kept held _).say _
        · split at found
          · cases found
            exact (formTouched_kept kept held _).say _
          · cases found
    next found =>
      split at found
      · cases found
      · split at found
        · cases found
        · split at found
          · cases found
          · cases found
            have said := kept.say ("Request prepared locally. Knot's static preview does " ++
              "not execute Micron request handlers.")
            exact form_kept said rfl rfl rfl (by rw [SiteWorld.say, held]; rfl)
              (by rw [SiteWorld.say, held]; rfl) rfl

theorem closeMicronForm_kept (kept : world.Kept) : world.closeMicronForm.Kept := by
  unfold SiteWorld.closeMicronForm MicronRequest.closeForm
  split
  · refine ⟨(kept.composer.withMicron _).observe rfl rfl, ?_,
      kept.flight.composeMicron (by rfl) (by rfl) (by rfl) (by rfl)⟩
    refine ⟨?_, ?_, ?_⟩ <;> · rw [SiteWorld.observe, standing_append_singleton]; rfl
  · exact form_kept kept rfl rfl rfl rfl rfl rfl

theorem cancelMicron_kept (kept : world.Kept) : world.cancelMicron.Kept := by
  unfold SiteWorld.cancelMicron MicronRequest.cancelRequest
  cases held : world.site.micron.cancel with
  | none =>
    simp only [Option.isSome_none, Bool.false_eq_true, if_false, SiteWorld.observe,
      List.append_nil]
    exact ⟨kept.composer.withMicron _, ⟨kept.form.opening, kept.form.inputs, kept.form.review⟩,
      kept.flight.withMicron rfl rfl rfl⟩
  | some channel =>
    simp only [Option.isSome_some, if_true]
    have form : (world.withMicron { world.site.micron with
        cancel := none
        active := none
        result := some MicronRequest.cancelledText
        response := none }).FormKept :=
      ⟨kept.form.opening, kept.form.inputs, kept.form.review⟩
    refine ⟨(kept.composer.withMicron _).observe rfl rfl, form.observe rfl rfl rfl, ?_⟩
    refine ⟨kept.flight.single, kept.flight.awaited, kept.flight.unopened, kept.flight.answers,
      rfl, ?_⟩
    rw [SiteWorld.observe, standing_append_singleton]
    rfl

theorem sendReviewed_kept (kept : world.Kept) (idle : world.site.busy = false)
    (interface : host.Interface) : (world.sendReviewed interface).Kept := by
  have quiet := kept.flight.idle idle
  have receivers := not_busy_iff.mp idle
  unfold SiteWorld.sendReviewed
  simp only
  split
  · exact kept.say _
  next editor held =>
    split
    · exact kept.say _
    · split
      · exact kept.say _
      next prepared _ =>
        split
        · exact kept.say _
        · split
          · exact kept.say _
          · next request _ =>
            refine ⟨((kept.composer.withMicron _).spawn _).observe rfl rfl, ?_, ?_⟩
            · refine ⟨?_, ?_, ?_⟩
              · rw [SiteWorld.observe, standing_append_singleton]
                exact kept.form.opening.trans (by rw [held]; rfl)
              · rw [SiteWorld.observe, standing_append_singleton]
                exact kept.form.inputs.trans (by rw [held]; rfl)
              · rw [SiteWorld.observe, standing_append_singleton]
                rfl
            · refine ⟨Or.inl receivers.1, ?_, ?_, answers_spawn kept.flight _, rfl, ?_⟩
              · intro channel flying
                rcases inFlight_spawn flying with earlier | rfl
                · exact absurd earlier (quiet.1 channel)
                · exact Or.inr rfl
              · intro channel bound
                refine kept.flight.unopened channel ?_
                simp only [SiteWorld.observe, SiteWorld.spawn, SiteWorld.withMicron,
                  List.length_append] at bound
                omega
              · rw [SiteWorld.observe, standing_append_singleton]
                refine ⟨_, rfl, rfl, rfl, rfl, request, interface,
                  micronSubmissionConfig world.surroundings.timeoutSecs
                    world.surroundings.maxResponseBytes, ?_⟩
                simp only [SiteWorld.spawn, SiteWorld.withMicron]
                exact List.getElem?_concat_length

theorem sendMicronForm_kept (kept : world.Kept) : world.sendMicronForm.Kept := by
  unfold SiteWorld.sendMicronForm
  split
  · exact kept.say _
  next idle =>
    rw [Bool.not_eq_true] at idle
    split
    · exact kept.say _
    · split
      · exact kept.say _
      · split
        · exact kept.say _
        · exact sendReviewed_kept kept idle _

theorem FlightKept.report (kept : world.FlightKept) {channel : Nat} {letter : Mail}
    (known : channel < world.workers.length) (report : letter ≠ .empty)
    (answers : ∀ id outcome, letter = .micron id outcome → ∃ request interface config,
      world.workers[channel]? = some (.micron id request interface config)) :
    ({ world with mail := Function.update world.mail channel letter } :
      SiteWorld host).FlightKept where
  single := kept.single
  awaited := by
    intro other flying
    have empty : Function.update world.mail channel letter other = .empty := flying.2
    by_cases own : other = channel
    · rw [own, Function.update_self] at empty
      exact absurd empty report
    · rw [Function.update_of_ne own] at empty
      exact kept.awaited other ⟨flying.1, empty⟩
  unopened := by
    intro other bound
    have apart : other ≠ channel := (Nat.lt_of_lt_of_le known bound).ne'
    exact (Function.update_of_ne apart letter world.mail).trans (kept.unopened other bound)
  answers := by
    intro other id outcome found
    have letters : Function.update world.mail channel letter other = .micron id outcome := found
    by_cases own : other = channel
    · rw [own, Function.update_self] at letters
      rw [own]
      exact answers id outcome letters
    · rw [Function.update_of_ne own] at letters
      exact kept.answers other id outcome letters
  cancel := kept.cancel
  outstanding := kept.outstanding

theorem finish_kept (kept : world.Kept) (channel : Nat) (outcome : WorkerOutcome) :
    (world.finish channel outcome).Kept := by
  unfold SiteWorld.finish
  have elsewhere : ∀ letter : Mail, ({ world with mail := Function.update world.mail channel letter } :
      SiteWorld host).ComposerKept ∧ ({ world with
        mail := Function.update world.mail channel letter } : SiteWorld host).FormKept := by
    intro letter
    exact ⟨⟨kept.composer.review, kept.composer.token⟩,
      ⟨kept.form.opening, kept.form.inputs, kept.form.review⟩⟩
  split
  next worker _ =>
    have known := (List.getElem?_eq_some_iff.mp worker).1
    refine ⟨(elsewhere _).1, (elsewhere _).2, kept.flight.report known (by simp) ?_⟩
    intro id outcome impossible
    cases impossible
  next worker _ =>
    have known := (List.getElem?_eq_some_iff.mp worker).1
    refine ⟨(elsewhere _).1, (elsewhere _).2, kept.flight.report known (by simp) ?_⟩
    intro id outcome same
    cases same
    exact ⟨_, _, _, worker⟩
  next worker _ =>
    have known := (List.getElem?_eq_some_iff.mp worker).1
    refine ⟨(elsewhere _).1, (elsewhere _).2, kept.flight.report known (by simp) ?_⟩
    intro id outcome impossible
    cases impossible
  · exact kept

theorem mem_drained {event : SiteEvent host} (member : event ∈ world.drained) :
    event = .micronFinished ∨ ∃ outcome, event = .micronShown outcome := by
  unfold SiteWorld.drained at member
  simp only at member
  split at member
  · split at member
    · simp only [List.mem_cons, List.not_mem_nil, or_false] at member
      exact member.symm.imp id fun shown => ⟨_, shown⟩
    · exact Or.inl (List.mem_singleton.mp member)
  · split at member
    · simp only [List.mem_cons, List.not_mem_nil, or_false] at member
      exact member.symm.imp id fun shown => ⟨_, shown⟩
    · exact Or.inl (List.mem_singleton.mp member)
  · cases member

theorem standing_drained {π : Type} {effect : SiteEvent host → Effect π}
    (finished : effect .micronFinished = .keeps)
    (shown : ∀ outcome, effect (.micronShown outcome) = .keeps) :
    standing effect (world.log ++ world.drained) = standing effect world.log := by
  refine standing_append_of_keeps ?_
  intro event member
  rcases mem_drained member with rfl | ⟨outcome, rfl⟩
  · exact finished
  · exact shown outcome

theorem submission_drain_keeps (submission : Submission host) (mail : Nat → Mail) :
    (submission.drain mail).prepared = submission.prepared ∧
      (submission.drain mail).token = submission.token ∧
      ((submission.drain mail).receiver = submission.receiver ∨
        (submission.drain mail).receiver = none ∧
          ∀ channel, submission.receiver = some channel → mail channel ≠ .empty) := by
  unfold Submission.drain
  split
  · exact ⟨rfl, rfl, Or.inl rfl⟩
  next channel awaited =>
    have reported : ∀ letter, mail channel = letter → letter ≠ .empty →
        ∀ other, submission.receiver = some other → mail other ≠ .empty := by
      rintro letter found full other same
      cases awaited.symm.trans same
      rw [found]
      exact full
    split
    next found => exact ⟨rfl, rfl, Or.inr ⟨rfl, reported _ found (by simp)⟩⟩
    next found => exact ⟨rfl, rfl, Or.inr ⟨rfl, reported _ found (by simp)⟩⟩
    next found => exact ⟨rfl, rfl, Or.inr ⟨rfl, reported _ found (by simp)⟩⟩
    · exact ⟨rfl, rfl, Or.inl rfl⟩
    · exact ⟨rfl, rfl, Or.inl rfl⟩

theorem not_answered_empty : ¬ Mail.Answered .empty := by
  rintro (⟨id, outcome, found⟩ | found) <;> cases found

theorem not_answered_submission {outcome : Except String SubmissionReceipt} :
    ¬ Mail.Answered (.submission outcome) := by
  rintro (⟨id, other, found⟩ | found) <;> cases found

theorem micron_drain_keeps (micron : MicronRequest host) (mail : Nat → Mail)
    (source address : String) :
    (micron.drain mail source address).form = micron.form ∧
      ((micron.drain mail source address) = micron ∧
          (∀ channel, micron.receiver = some channel → ¬ (mail channel).Answered) ∨
        (micron.drain mail source address).receiver = none ∧
          (micron.drain mail source address).active = none ∧
          (micron.drain mail source address).cancel = none ∧
          ∃ channel, micron.receiver = some channel ∧ (mail channel).Answered) := by
  unfold MicronRequest.drain
  split
  next idle =>
    refine ⟨rfl, Or.inl ⟨rfl, ?_⟩⟩
    intro channel awaited
    cases idle.symm.trans awaited
  next channel awaited =>
    simp only
    split
    next id outcome found =>
      have ended : ∃ channel, micron.receiver = some channel ∧ (mail channel).Answered :=
        ⟨channel, awaited, Or.inl ⟨id, outcome, found⟩⟩
      split
      · exact ⟨rfl, Or.inr ⟨rfl, rfl, rfl, ended⟩⟩
      · split
        · exact ⟨rfl, Or.inr ⟨rfl, rfl, rfl, ended⟩⟩
        · exact ⟨rfl, Or.inr ⟨rfl, rfl, rfl, ended⟩⟩
    next found =>
      have ended : ∃ channel, micron.receiver = some channel ∧ (mail channel).Answered :=
        ⟨channel, awaited, Or.inr found⟩
      split
      · exact ⟨rfl, Or.inr ⟨rfl, rfl, rfl, ended⟩⟩
      · exact ⟨rfl, Or.inr ⟨rfl, rfl, rfl, ended⟩⟩
    next found =>
      refine ⟨rfl, Or.inl ⟨rfl, ?_⟩⟩
      intro other same answered
      cases awaited.symm.trans same
      rw [found] at answered
      exact not_answered_empty answered
    next found =>
      refine ⟨rfl, Or.inl ⟨rfl, ?_⟩⟩
      intro other same answered
      cases awaited.symm.trans same
      rw [found] at answered
      exact not_answered_submission answered

theorem standing_outstanding_drained (awaited : ∃ channel, world.site.micron.receiver = some channel ∧
    (world.mail channel).Answered) :
    standing SiteEvent.outstanding (world.log ++ world.drained) = none := by
  obtain ⟨channel, receiver, answered⟩ := awaited
  have last : ∃ front, world.drained = front ++ [.micronFinished] := by
    unfold SiteWorld.drained
    simp only [receiver, Option.map_some]
    rcases answered with ⟨id, outcome, found⟩ | found
    · simp only [found]
      split
      · exact ⟨[_], rfl⟩
      · exact ⟨[], rfl⟩
    · simp only [found]
      split
      · exact ⟨[_], rfl⟩
      · exact ⟨[], rfl⟩
  obtain ⟨front, same⟩ := last
  rw [same, ← List.append_assoc, standing_append_singleton]
  rfl

theorem drained_eq_nil (silent : ∀ channel, world.site.micron.receiver = some channel →
    ¬ (world.mail channel).Answered) : world.drained = [] := by
  unfold SiteWorld.drained
  cases receiver : world.site.micron.receiver with
  | none => simp only [receiver, Option.map_none]
  | some channel =>
    have unanswered := silent channel receiver
    simp only [receiver, Option.map_some]
    split
    next id outcome found =>
      exact absurd (Or.inl ⟨id, outcome, Option.some.inj found⟩) unanswered
    next found => exact absurd (Or.inr (Option.some.inj found)) unanswered
    · rfl

theorem drain_flight (kept : world.FlightKept) {site : DocumentSite host}
    (submission : site.submission.receiver = world.site.submission.receiver ∨
      site.submission.receiver = none ∧
        ∀ channel, world.site.submission.receiver = some channel → world.mail channel ≠ .empty)
    (micron : site.micron = world.site.micron ∧
        (∀ channel, world.site.micron.receiver = some channel → ¬ (world.mail channel).Answered) ∨
      site.micron.receiver = none ∧ site.micron.active = none ∧ site.micron.cancel = none ∧
        ∃ channel, world.site.micron.receiver = some channel ∧ (world.mail channel).Answered) :
    ({ world with site, log := world.log ++ world.drained } : SiteWorld host).FlightKept where
  single := by
    rcases submission with same | ⟨ended, _⟩
    · rcases micron with ⟨stays, _⟩ | ⟨ended, _⟩
      · simpa only [same, stays] using kept.single
      · exact Or.inr ended
    · exact Or.inl ended
  awaited := by
    intro channel flying
    rcases kept.awaited channel flying with awaited | awaited
    · left
      rcases submission with same | ⟨_, reported⟩
      · exact same.trans awaited
      · exact absurd flying.2 (reported channel awaited)
    · right
      rcases micron with ⟨stays, _⟩ | ⟨_, _, _, other, same, answered⟩
      · exact (congrArg MicronRequest.receiver stays).trans awaited
      · cases same.symm.trans awaited
        have empty : world.mail channel = .empty := flying.2
        rw [empty] at answered
        exact absurd answered not_answered_empty
  unopened := kept.unopened
  answers := kept.answers
  cancel := by
    rcases micron with ⟨stays, _⟩ | ⟨_, inactive, uncancelled, _⟩
    · simpa only [stays] using kept.cancel
    · simp only [inactive, uncancelled, Option.isSome_none]
  outstanding := by
    rcases micron with ⟨stays, silent⟩ | ⟨_, inactive, _, awaited⟩
    · simp only [stays, drained_eq_nil silent, List.append_nil]
      have outstanding := kept.outstanding
      unfold Awaited at outstanding ⊢
      simpa only [stays] using outstanding
    · simp only [inactive]
      exact standing_outstanding_drained awaited

theorem drain_kept (kept : world.Kept) : world.drain.Kept := by
  unfold SiteWorld.drain
  split
  · obtain ⟨prepared, token, submission⟩ := submission_drain_keeps world.site.submission world.mail
    obtain ⟨form, micron⟩ := micron_drain_keeps world.site.micron world.mail
      world.surroundings.source world.surroundings.address
    refine ⟨⟨?_, ?_⟩, ⟨?_, ?_, ?_⟩, ?_⟩
    · exact (standing_drained rfl fun _ => rfl).trans (kept.composer.review.trans prepared.symm)
    · have same : standing SiteEvent.token (world.log ++ world.drained) =
          standing SiteEvent.token world.log := standing_drained rfl fun _ => rfl
      simp only [same, token]
      exact kept.composer.token
    · simp only [form]
      exact (standing_drained rfl fun _ => rfl).trans kept.form.opening
    · simp only [form]
      exact (standing_drained rfl fun _ => rfl).trans kept.form.inputs
    · simp only [form]
      exact (standing_drained rfl fun _ => rfl).trans kept.form.review
    · exact drain_flight kept.flight submission micron
  · exact kept

theorem step_kept (kept : world.Kept) (action : SiteAction host) : (world.step action).Kept := by
  cases action with
  | selectSpartanPrompt target => exact selectSpartanPrompt_kept kept target
  | prepareTitan saved => exact prepareTitan_kept kept saved
  | prepareSpartan => exact prepareSpartan_kept kept
  | sendSubmission => exact sendSubmission_kept kept
  | discard => exact discard_kept kept
  | typeTarget text => exact typed_kept kept rfl rfl rfl
  | typeMime text => exact typed_kept kept rfl rfl rfl
  | typeBody text => exact typed_kept kept rfl rfl rfl
  | typeToken text => exact typeToken_kept kept text
  | openMicronForm => exact openMicronForm_kept kept
  | typeField index text => exact typeField_kept kept index text
  | setChecked index checked => exact setChecked_kept kept index checked
  | prepareMicronForm action => exact prepareMicronForm_kept kept action
  | discardPrepared => exact discardPrepared_kept kept
  | sendMicronForm => exact sendMicronForm_kept kept
  | cancelMicron => exact cancelMicron_kept kept
  | closeMicronForm => exact closeMicronForm_kept kept
  | change surroundings =>
    exact ⟨⟨kept.composer.review, kept.composer.token⟩,
      ⟨kept.form.opening, kept.form.inputs, kept.form.review⟩,
      ⟨kept.flight.single, kept.flight.awaited, kept.flight.unopened, kept.flight.answers,
        kept.flight.cancel, kept.flight.outstanding⟩⟩
  | finish channel outcome => exact finish_kept kept channel outcome
  | drain => exact drain_kept kept

end SiteWorld

end KnotEditor.SiteSubmission
