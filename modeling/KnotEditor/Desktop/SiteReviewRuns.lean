import KnotEditor.Desktop.SiteReview

/-! Over every run of a document's site, what goes out was reviewed and what is shown was awaited. -/

namespace KnotEditor.SiteSubmission

open EventLog

variable {host : SiteHost}

namespace SiteWorld

variable (world : SiteWorld host)

/-- What an event has to rest on in the world before it. A review stands until it is sent,
withdrawn or replaced; a token until it is sent or cleared; a request until it is over or
cancelled. -/
def Right : SiteEvent host → Prop
  | .sent value token => Stands SiteEvent.review world.log (.prepared value) ∧
      ∀ text, token = some text → (host.target value).startsWith "titan://" = true ∧
        Stands SiteEvent.token world.log (.tokenTyped text)
  | .micronPrepared request =>
    standing SiteEvent.inputs world.log = some request.inputSnapshot
  | .micronSent send => ∃ review inputs,
      Stands SiteEvent.micronReview world.log (.micronPrepared review) ∧
      send.target = review.target ∧ send.values = review.values ∧
      send.inputs = review.inputSnapshot ∧
      standing SiteEvent.inputs world.log = some send.inputs ∧
      Stands SiteEvent.opening world.log
        (.formOpened world.surroundings.source world.surroundings.address inputs) ∧
      send.source = world.surroundings.source ∧ send.address = world.surroundings.address
  | .micronShown outcome => ∃ send, Stands SiteEvent.outstanding world.log (.micronSent send) ∧
      send.source = world.surroundings.source ∧ send.address = world.surroundings.address ∧
      match outcome with
      | some reported => ∃ id, world.mail send.channel = .micron id reported
      | none => world.mail send.channel = .disconnected
  | _ => True

def Announces (events : List (SiteEvent host)) (channel : Nat) : Worker host → Prop
  | .submission prepared token => .sent prepared token ∈ events
  | .micron _ request _ config => ∃ send, .micronSent send ∈ events ∧ send.channel = channel ∧
      host.newMicronRequest send.target send.values config = .ok request

structure Announcing (next : SiteWorld host) (events : List (SiteEvent host)) : Prop where
  log : next.log = world.log ++ events
  right : ∀ event ∈ events, world.Right event
  sends : ∀ channel worker, next.workers[channel]? = some worker →
    world.workers[channel]? = some worker ∨ Announces events channel worker

def announced (action : SiteAction host) : List (SiteEvent host) :=
  (world.step action).log.drop world.log.length

structure NothingUnreviewed (action : SiteAction host) : Prop where
  oneInFlight : ∀ first second, world.InFlight first → world.InFlight second → first = second
  right : ∀ event ∈ world.announced action, world.Right event
  sends : ∀ channel worker, (world.step action).workers[channel]? = some worker →
    world.workers[channel]? = some worker ∨ Announces (world.announced action) channel worker
  shown : (world.step .drain).site.micron.result ≠ world.site.micron.result ∨
      (world.step .drain).site.micron.response ≠ world.site.micron.response →
    ∃ outcome, .micronShown outcome ∈ world.announced .drain
  /-- Nothing but a drain looks at what the workers have reported. -/
  unread : (∀ mail, ({ world with mail } : SiteWorld host).step action =
    { world.step action with mail }) ∨ action = .drain ∨ ∃ channel outcome, action = .finish channel outcome

variable {world}

theorem Announcing.silent {next : SiteWorld host} (log : next.log = world.log)
    (workers : next.workers = world.workers) : world.Announcing next [] where
  log := by rw [log, List.append_nil]
  right := by
    intro event member
    cases member
  sends := by
    intro channel worker held
    rw [workers] at held
    exact Or.inl held

theorem Announcing.single {next : SiteWorld host} {event : SiteEvent host}
    (log : next.log = world.log ++ [event]) (workers : next.workers = world.workers)
    (right : world.Right event) : world.Announcing next [event] where
  log := log
  right := by
    intro found member
    rw [List.mem_singleton.mp member]
    exact right
  sends := by
    intro channel worker held
    rw [workers] at held
    exact Or.inl held

theorem Announcing.spawned {next : SiteWorld host} {event : SiteEvent host} {worker : Worker host}
    (log : next.log = world.log ++ [event]) (workers : next.workers = world.workers ++ [worker])
    (right : world.Right event) (announces : Announces [event] world.workers.length worker) :
    world.Announcing next [event] where
  log := log
  right := by
    intro found member
    rw [List.mem_singleton.mp member]
    exact right
  sends := by
    intro channel found held
    rw [workers] at held
    rcases Nat.lt_trichotomy channel world.workers.length with earlier | rfl | later
    · rw [List.getElem?_append_left earlier] at held
      exact Or.inl held
    · rw [List.getElem?_concat_length] at held
      cases held
      exact Or.inr announces
    · have bound := (List.getElem?_eq_some_iff.mp held).1
      rw [List.length_append, List.length_singleton] at bound
      omega

section Issued

variable {log : List (SiteEvent host)}

theorem stands_prepared {value : host.Prepared} (held : standing SiteEvent.review log = some value) :
    Stands SiteEvent.review log (.prepared value) := by
  obtain ⟨event, issued, stands⟩ := standing_eq_some_iff.mp held
  cases event <;> cases issued
  exact stands

theorem stands_tokenTyped {text : String} (held : standing SiteEvent.token log = some text) :
    Stands SiteEvent.token log (.tokenTyped text) := by
  obtain ⟨event, issued, stands⟩ := standing_eq_some_iff.mp held
  cases event <;> cases issued
  exact stands

theorem stands_micronPrepared {request : MicronPreparedRequest}
    (held : standing SiteEvent.micronReview log = some request) :
    Stands SiteEvent.micronReview log (.micronPrepared request) := by
  obtain ⟨event, issued, stands⟩ := standing_eq_some_iff.mp held
  cases event <;> cases issued
  exact stands

theorem stands_formOpened {source address : String}
    (held : standing SiteEvent.opening log = some (source, address)) :
    ∃ inputs, Stands SiteEvent.opening log (.formOpened source address inputs) := by
  obtain ⟨event, issued, stands⟩ := standing_eq_some_iff.mp held
  cases event <;> cases issued
  exact ⟨_, stands⟩

theorem stands_micronSent {send : MicronSend}
    (held : standing SiteEvent.outstanding log = some send) :
    Stands SiteEvent.outstanding log (.micronSent send) := by
  obtain ⟨event, issued, stands⟩ := standing_eq_some_iff.mp held
  cases event <;> cases issued
  exact stands

end Issued

theorem token_standing (kept : world.ComposerKept) {text : String}
    (typed : world.site.submission.token = text) (nonempty : text ≠ "") :
    standing SiteEvent.token world.log = some text := by
  have held := kept.token
  rw [typed] at held
  cases stands : standing SiteEvent.token world.log with
  | none =>
    rw [stands] at held
    exact absurd held.symm nonempty
  | some token =>
    rw [stands] at held
    exact congrArg some held

theorem outstanding_of_sentFromCurrent (kept : world.FlightKept) {id : Option UInt64}
    (current : world.site.micron.sentFromCurrent world.surroundings.source
      world.surroundings.address id = true) :
    ∃ send, standing SiteEvent.outstanding world.log = some send ∧
      send.source = world.surroundings.source ∧ send.address = world.surroundings.address ∧
      world.site.micron.receiver = some send.channel := by
  have outstanding := kept.outstanding
  unfold MicronRequest.sentFromCurrent at current
  cases active : world.site.micron.active with
  | none =>
    rw [active] at current
    cases current
  | some held =>
    obtain ⟨number, source, address⟩ := held
    rw [active] at current outstanding
    obtain ⟨send, stands, sentSource, sentAddress, awaited, _⟩ := outstanding
    simp only [Option.any_some, Bool.and_eq_true, beq_iff_eq] at current
    exact ⟨send, stands, sentSource.trans current.1.2, sentAddress.trans current.2, awaited⟩

theorem right_of_shown (kept : world.Kept) {outcome : Option (Except String MicronResponse)}
    (member : .micronShown outcome ∈ world.drained) : world.Right (.micronShown outcome) := by
  unfold SiteWorld.drained at member
  simp only at member
  split at member
  next id reported found =>
    split at member
    next current =>
      obtain ⟨send, stands, source, address, awaited⟩ :=
        outstanding_of_sentFromCurrent kept.flight current
      rw [awaited, Option.map_some, Option.some.injEq] at found
      simp only [List.mem_cons, List.not_mem_nil, or_false, reduceCtorEq,
        SiteEvent.micronShown.injEq] at member
      subst member
      exact ⟨send, stands_micronSent stands, source, address, id, found⟩
    · cases List.mem_singleton.mp member
  next found =>
    split at member
    next current =>
      obtain ⟨send, stands, source, address, awaited⟩ :=
        outstanding_of_sentFromCurrent kept.flight current
      rw [awaited, Option.map_some, Option.some.injEq] at found
      simp only [List.mem_cons, List.not_mem_nil, or_false, reduceCtorEq,
        SiteEvent.micronShown.injEq] at member
      subst member
      exact ⟨send, stands_micronSent stands, source, address, found⟩
    · cases List.mem_singleton.mp member
  · cases member

theorem prepareTitan_announcing (saved : Except String ByteArray) :
    ∃ events, world.Announcing (world.prepareTitan saved) events := by
  unfold SiteWorld.prepareTitan
  split
  · exact ⟨[], .silent rfl rfl⟩
  · split
    · exact ⟨[], .silent rfl rfl⟩
    · split
      · exact ⟨[], .silent rfl rfl⟩
      · split
        · exact ⟨[], .silent rfl rfl⟩
        · simp only
          split
          · exact ⟨[], .silent rfl rfl⟩
          · split
            · exact ⟨_, .single rfl rfl trivial⟩
            · exact ⟨[], .silent rfl rfl⟩

theorem prepareSpartan_announcing : ∃ events, world.Announcing world.prepareSpartan events := by
  unfold SiteWorld.prepareSpartan
  split
  · exact ⟨[], .silent rfl rfl⟩
  · simp only
    split
    · exact ⟨[.tokenCleared], .single rfl rfl trivial⟩
    · split
      next prepared _ _ =>
        refine ⟨[.tokenCleared, .prepared prepared], List.append_assoc _ _ _, ?_,
          fun _ _ held => Or.inl held⟩
        intro event member
        simp only [List.mem_cons, List.not_mem_nil, or_false] at member
        rcases member with rfl | rfl <;> trivial
      · exact ⟨[.tokenCleared], .single rfl rfl trivial⟩

theorem sendSubmission_announcing (kept : world.Kept) :
    ∃ events, world.Announcing world.sendSubmission events := by
  unfold SiteWorld.sendSubmission
  split
  · exact ⟨[], .silent rfl rfl⟩
  · split
    · exact ⟨[], .silent rfl rfl⟩
    · split
      · exact ⟨[], .silent rfl rfl⟩
      next prepared token submission taken =>
        obtain ⟨reviewed, _, _, titan⟩ := takeForSend_eq_ok taken
        have stands := stands_prepared (kept.composer.review.trans reviewed)
        refine ⟨_, .spawned rfl rfl ⟨stands, ?_⟩ (List.mem_singleton.mpr rfl)⟩
        intro text given
        obtain ⟨target, typed, nonempty⟩ := titan text given
        have stands := token_standing kept.composer (typed ▸ rfl) nonempty
        exact ⟨target, stands_tokenTyped stands⟩

theorem openMicronForm_announcing : ∃ events, world.Announcing world.openMicronForm events := by
  unfold SiteWorld.openMicronForm
  simp only
  split
  · exact ⟨[], .silent rfl rfl⟩
  · split
    · exact ⟨[], .silent rfl rfl⟩
    · exact ⟨_, .single rfl rfl trivial⟩

theorem typeField_announcing (index : Nat) (text : String) :
    ∃ events, world.Announcing (world.typeField index text) events := by
  unfold SiteWorld.typeField
  split
  · exact ⟨[], .silent rfl rfl⟩
  · exact ⟨_, .single rfl rfl trivial⟩

theorem discardPrepared_announcing : ∃ events, world.Announcing world.discardPrepared events := by
  unfold SiteWorld.discardPrepared
  split
  · exact ⟨[], .silent rfl rfl⟩
  · exact ⟨_, .single rfl rfl trivial⟩

theorem setChecked_announcing (index : Nat) (checked : Bool) :
    ∃ events, world.Announcing (world.setChecked index checked) events := by
  unfold SiteWorld.setChecked
  split
  · exact ⟨[], .silent rfl rfl⟩
  · exact ⟨_, .single rfl rfl trivial⟩

theorem cancelMicron_announcing : ∃ events, world.Announcing world.cancelMicron events := by
  unfold SiteWorld.cancelMicron
  split
  · exact ⟨_, .single rfl rfl trivial⟩
  · refine ⟨[], .silent ?_ rfl⟩
    simp [SiteWorld.observe, SiteWorld.withMicron]

theorem prepareMicronForm_announcing (kept : world.Kept) (action : Nat) :
    ∃ events, world.Announcing (world.prepareMicronForm action) events := by
  unfold SiteWorld.prepareMicronForm
  simp only
  split
  · exact ⟨[], .silent rfl rfl⟩
  next micron prepared =>
    unfold MicronRequest.prepare at prepared
    split at prepared
    · cases prepared
    next editor held =>
      split at prepared
      · cases prepared
      · split at prepared
        · cases prepared
        · split at prepared
          · cases prepared
          · cases prepared
            refine ⟨_, .single rfl rfl ?_⟩
            exact kept.form.inputs.trans (by rw [held]; rfl)

theorem sendMicronForm_announcing (kept : world.Kept) :
    ∃ events, world.Announcing world.sendMicronForm events := by
  unfold SiteWorld.sendMicronForm SiteWorld.sendReviewed
  split
  · exact ⟨[], .silent rfl rfl⟩
  · split
    · exact ⟨[], .silent rfl rfl⟩
    · split
      · exact ⟨[], .silent rfl rfl⟩
      · split
        · exact ⟨[], .silent rfl rfl⟩
        · simp only
          split
          · exact ⟨[], .silent rfl rfl⟩
          next editor held =>
            split
            · exact ⟨[], .silent rfl rfl⟩
            next current =>
              rw [not_or, not_not, not_not] at current
              split
              · exact ⟨[], .silent rfl rfl⟩
              next prepared reviewed =>
                split
                · exact ⟨[], .silent rfl rfl⟩
                next snapshot =>
                  rw [not_not] at snapshot
                  split
                  · exact ⟨[], .silent rfl rfl⟩
                  next request accepted =>
                    have opened : standing SiteEvent.opening world.log = some
                        (world.surroundings.source, world.surroundings.address) := by
                      rw [kept.form.opening, held, ← current.1, ← current.2]
                      rfl
                    obtain ⟨inputs, opened⟩ := stands_formOpened opened
                    have review : standing SiteEvent.micronReview world.log =
                        some prepared := by
                      rw [kept.form.review, held]
                      exact reviewed
                    refine ⟨_, .spawned rfl rfl ?_
                      ⟨_, List.mem_singleton.mpr rfl, rfl, accepted⟩⟩
                    refine ⟨prepared, inputs, stands_micronPrepared review, rfl, rfl,
                      snapshot.symm, ?_, opened, current.1, current.2⟩
                    exact kept.form.inputs.trans (by rw [held]; rfl)

/-- A report is shown only for the request that is outstanding, over the document it was sent
from. -/
theorem drain_announcing (kept : world.Kept) : ∃ events, world.Announcing world.drain events := by
  unfold SiteWorld.drain
  split
  · refine ⟨world.drained, rfl, ?_, fun _ _ held => Or.inl held⟩
    intro event member
    rcases mem_drained member with rfl | ⟨outcome, rfl⟩
    · trivial
    · exact right_of_shown kept member
  · exact ⟨[], .silent rfl rfl⟩

theorem step_announcing (kept : world.Kept) (action : SiteAction host) :
    ∃ events, world.Announcing (world.step action) events := by
  cases action with
  | selectSpartanPrompt target => exact ⟨_, .single rfl rfl trivial⟩
  | prepareTitan saved => exact prepareTitan_announcing saved
  | prepareSpartan => exact prepareSpartan_announcing
  | sendSubmission => exact sendSubmission_announcing kept
  | discard => exact ⟨_, .single rfl rfl trivial⟩
  | typeTarget text => exact ⟨[], .silent rfl rfl⟩
  | typeMime text => exact ⟨[], .silent rfl rfl⟩
  | typeBody text => exact ⟨[], .silent rfl rfl⟩
  | typeToken text => exact ⟨_, .single rfl rfl trivial⟩
  | openMicronForm => exact openMicronForm_announcing
  | typeField index text => exact typeField_announcing index text
  | setChecked index checked => exact setChecked_announcing index checked
  | prepareMicronForm action => exact prepareMicronForm_announcing kept action
  | discardPrepared => exact discardPrepared_announcing
  | sendMicronForm => exact sendMicronForm_announcing kept
  | cancelMicron => exact cancelMicron_announcing
  | closeMicronForm => exact ⟨_, .single rfl rfl trivial⟩
  | change surroundings => exact ⟨[], .silent rfl rfl⟩
  | finish channel outcome =>
    refine ⟨[], ?_⟩
    simp only [step, finish]
    split <;> exact .silent rfl rfl
  | drain => exact drain_announcing kept

theorem shown_of_drained
    (changed : (world.site.micron.drain world.mail world.surroundings.source
        world.surroundings.address).result ≠ world.site.micron.result ∨
      (world.site.micron.drain world.mail world.surroundings.source
        world.surroundings.address).response ≠ world.site.micron.response) :
    ∃ outcome, .micronShown outcome ∈ world.drained := by
  unfold MicronRequest.drain at changed
  unfold SiteWorld.drained
  cases receiver : world.site.micron.receiver with
  | none => simp [receiver] at changed
  | some channel =>
    simp only [receiver, Option.map_some] at changed ⊢
    cases found : world.mail channel with
    | empty => simp [found] at changed
    | submission outcome => simp [found] at changed
    | micron id outcome =>
      simp only [found] at changed ⊢
      cases current : world.site.micron.sentFromCurrent world.surroundings.source
          world.surroundings.address (some id) with
      | false => simp [current] at changed
      | true => exact ⟨some outcome, List.mem_cons_self⟩
    | disconnected =>
      simp only [found] at changed ⊢
      cases current : world.site.micron.sentFromCurrent world.surroundings.source
          world.surroundings.address none with
      | false => simp [current] at changed
      | true => exact ⟨none, List.mem_cons_self⟩

theorem shown_of_drain
    (changed : (world.step .drain).site.micron.result ≠ world.site.micron.result ∨
      (world.step .drain).site.micron.response ≠ world.site.micron.response) :
    ∃ outcome, .micronShown outcome ∈ world.announced .drain := by
  unfold announced
  simp only [step, drain] at changed ⊢
  split at changed
  next busy =>
    rw [if_pos busy]
    simpa only [List.drop_left] using shown_of_drained changed
  · simp at changed

theorem unread_step (action : SiteAction host) :
    (∀ mail, ({ world with mail } : SiteWorld host).step action =
      { world.step action with mail }) ∨ action = .drain ∨
      ∃ channel outcome, action = .finish channel outcome := by
  cases action with
  | drain => exact Or.inr (Or.inl rfl)
  | finish channel outcome => exact Or.inr (Or.inr ⟨channel, outcome, rfl⟩)
  | selectSpartanPrompt target => exact Or.inl fun _ => rfl
  | discard => exact Or.inl fun _ => rfl
  | typeTarget text => exact Or.inl fun _ => rfl
  | typeMime text => exact Or.inl fun _ => rfl
  | typeBody text => exact Or.inl fun _ => rfl
  | typeToken text => exact Or.inl fun _ => rfl
  | cancelMicron => exact Or.inl fun _ => rfl
  | closeMicronForm => exact Or.inl fun _ => rfl
  | change surroundings => exact Or.inl fun _ => rfl
  | prepareTitan saved =>
    left
    intro mail
    simp only [step, prepareTitan]
    repeat' split
    all_goals rfl
  | prepareSpartan =>
    left
    intro mail
    simp only [step, prepareSpartan]
    repeat' split
    all_goals rfl
  | sendSubmission =>
    left
    intro mail
    simp only [step, sendSubmission]
    repeat' split
    all_goals rfl
  | openMicronForm =>
    left
    intro mail
    simp only [step, openMicronForm]
    repeat' split
    all_goals rfl
  | typeField index text =>
    left
    intro mail
    simp only [step, typeField]
    split <;> rfl
  | discardPrepared =>
    left
    intro mail
    simp only [step, discardPrepared]
    split <;> rfl
  | setChecked index checked =>
    left
    intro mail
    simp only [step, setChecked]
    split <;> rfl
  | prepareMicronForm action =>
    left
    intro mail
    simp only [step, prepareMicronForm]
    split <;> rfl
  | sendMicronForm =>
    left
    intro mail
    simp only [step, sendMicronForm, sendReviewed]
    repeat' split
    all_goals rfl

theorem nothingUnreviewed_of_kept (kept : world.Kept) (action : SiteAction host) :
    world.NothingUnreviewed action := by
  obtain ⟨events, announcing⟩ := step_announcing kept action
  have announced : world.announced action = events := by
    rw [SiteWorld.announced, announcing.log, List.drop_left]
  refine ⟨?_, ?_, ?_, shown_of_drain, unread_step action⟩
  · intro first second firstFlying secondFlying
    -- Only one of the two receivers is set, and each holds one channel.
    rcases kept.flight.awaited first firstFlying with one | one <;>
      rcases kept.flight.awaited second secondFlying with two | two
    · exact Option.some.inj (one.symm.trans two)
    · rcases kept.flight.single with none_ | none_
      · cases none_.symm.trans one
      · cases none_.symm.trans two
    · rcases kept.flight.single with none_ | none_
      · cases none_.symm.trans two
      · cases none_.symm.trans one
    · exact Option.some.inj (one.symm.trans two)
  · rw [announced]
    exact announcing.right
  · rw [announced]
    exact announcing.sends

/-- From a fresh site no run sends what was not reviewed, or shows what was not awaited. -/
theorem nothing_unreviewed_is_sent (surroundings : Surroundings host)
    (actions : List (SiteAction host)) :
    Run.Along (fun world action => world.step action) NothingUnreviewed
      (SiteWorld.fresh surroundings) actions := by
  have keeps : ∀ (world : SiteWorld host) (action : SiteAction host), world.Kept → True →
      (world.step action).Kept := by
    intro world action kept _
    exact step_kept kept action
  have each : ∀ (world : SiteWorld host) (action : SiteAction host), world.Kept → True →
      world.NothingUnreviewed action := by
    intro world action kept _
    exact nothingUnreviewed_of_kept kept action
  exact Run.along_of_invariant keeps each actions _ (fresh_kept surroundings)
    (Run.along_always (fun _ _ => trivial) actions _)

end SiteWorld

end KnotEditor.SiteSubmission
