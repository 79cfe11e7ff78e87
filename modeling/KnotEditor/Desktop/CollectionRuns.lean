import KnotEditor.Desktop.CollectionRequests
import KnotEditor.Desktop.CollectionWorkers

/-! Every run of the collection, whatever the ports answer and in whatever order: what the rows on
show are, what waits for a confirmation, and what is sent where. -/

namespace KnotEditor.Desktop

open CollectionRequests DesktopCollection

variable {host : CollectionHost}

def CollectionAction.drawn : CollectionAction host → Option String
  | .collect item _ => some item.id
  | _ => none

def FreshIds (actions : List (CollectionAction host)) : Prop :=
  (actions.filterMap CollectionAction.drawn).Nodup

instance (actions : List (CollectionAction host)) : Decidable (FreshIds actions) :=
  inferInstanceAs (Decidable (List.Nodup _))

/-- A row was pressed while it was on show, with this destination selected, and the change is of
that row. -/
def Began (start : DesktopCollection host) (actions : List (CollectionAction host))
    (target : KnotRetainTargetV1) (change : OrganizeComposition) : Prop :=
  ∃ before action row, before ++ [action] <+: actions ∧
    (start.run before).composition.target = some target ∧
    (start.run before).pressed action = some row ∧ row.ChangedBy change

/-- A request that is not older than the one at `index` brought back the item itself. -/
def ConfirmedSince (workers : List (CollectionWorker host)) (index : Nat)
    (target : KnotRetainTargetV1) (item : host.Item) : Prop :=
  ∃ later worker rows row, index ≤ later ∧ workers[later]? = some worker ∧
    worker.target = target ∧ worker.phase = .received (.ok rows) ∧ row ∈ rows ∧
    row.confirms target item = true

def Kept (requests : CollectionRequests host) (index : Nat) (target : KnotRetainTargetV1)
    (item : host.Item) : Prop :=
  (item ∈ requests.waiting ∧ requests.waitingFor = some target) ∨
    ConfirmedSince requests.workers index target item

/-- The rows on show are what the last request brought back. Only when none is selected may they be
of a destination that is not. -/
def ShowsLast (requests : CollectionRequests host) : Prop :=
  requests.shown = [] ∨
    ∃ worker rows, requests.workers.getLast? = some worker ∧
      worker.phase = .received (.ok rows) ∧ requests.shown = RetainedCompositionItem.sort rows ∧
      (requests.target = some worker.target ∨
        requests.target = none ∧ 2 ^ 64 ≤ requests.changes)

structure Current (requests : CollectionRequests host) (worker : CollectionWorker host) : Prop where
  generation : requests.generation = worker.generation + UInt64.ofNat requests.changes
  unchanged : requests.changes = 0 → requests.target = some worker.target
  changed : requests.changes ≠ 0 → requests.target = none
  waiting : worker.items ≠ [] →
    requests.waiting = worker.items ∧ requests.waitingFor = some worker.target
  legacy : worker.legacy = true → requests.waiting = []

structure Sound (start : DesktopCollection host) (actions : List (CollectionAction host))
    (requests : CollectionRequests host) : Prop where
  coherent : ∀ worker ∈ requests.workers, worker.Coherent
  latest : ∀ index, requests.receiver = some index → index + 1 = requests.workers.length
  alone : ∀ (index : Nat) worker, requests.workers[index]? = some worker →
    worker.inFlight = true → requests.receiver = some index
  hidden : requests.receiver ≠ none → requests.shown = []
  shown : ShowsLast requests
  current : ∀ index worker, requests.receiver = some index →
    requests.workers[index]? = some worker → Current requests worker
  kept : ∀ (index : Nat) worker, requests.workers[index]? = some worker →
    ∀ item ∈ worker.items, Kept requests index worker.target item
  drawn : ∀ item ∈ requests.waiting, item.id ∈ actions.filterMap CollectionAction.drawn
  editing : ∀ target change, requests.editing = some (target, change) →
    Began start actions target change
  changing : ∀ worker ∈ requests.workers, ∀ change, worker.change = some change →
    Began start actions worker.target change

section Lists

variable {workers : List (CollectionWorker host)} {index : Nat} {worker : CollectionWorker host}
  {phase : WorkerPhase host}

theorem getElem?_set_cases {later : Nat} {found next : CollectionWorker host}
    (listed : (workers.set index next)[later]? = some found) :
    (later = index ∧ found = next) ∨ (later ≠ index ∧ workers[later]? = some found) := by
  by_cases same : index = later
  · subst same
    rw [List.getElem?_set_self'] at listed
    cases held : workers[index]? with
    | none => simp [held] at listed
    | some old => exact Or.inl ⟨rfl, by simpa [held, eq_comm] using listed⟩
  · rw [List.getElem?_set_ne same] at listed
    exact Or.inr ⟨fun equal => same equal.symm, listed⟩

theorem getElem?_concat_cases {added found : CollectionWorker host}
    (listed : (workers ++ [added])[index]? = some found) :
    workers[index]? = some found ∨ (index = workers.length ∧ found = added) := by
  rcases Nat.lt_or_ge index workers.length with earlier | last
  · rw [List.getElem?_append_left earlier] at listed
    exact Or.inl listed
  · rw [List.getElem?_append_right last, List.getElem?_singleton] at listed
    split at listed
    · cases listed
      exact Or.inr ⟨by omega, rfl⟩
    · cases listed

theorem ConfirmedSince.append {target : KnotRetainTargetV1} {item : host.Item}
    (confirmed : ConfirmedSince workers index target item) (added : CollectionWorker host) :
    ConfirmedSince (workers ++ [added]) index target item := by
  obtain ⟨later, found, rows, row, order, listed, rest⟩ := confirmed
  refine ⟨later, found, rows, row, order, ?_, rest⟩
  rw [List.getElem?_append_left (List.getElem?_eq_some_iff.mp listed).1]
  exact listed

theorem ConfirmedSince.set {place : Nat} {target : KnotRetainTargetV1} {item : host.Item}
    (confirmed : ConfirmedSince workers place target item)
    (found : workers[index]? = some worker)
    (unheard : ∀ result, worker.phase ≠ .received result) (next : CollectionWorker host) :
    ConfirmedSince (workers.set index next) place target item := by
  obtain ⟨later, other, rows, row, order, listed, same, heard, rest⟩ := confirmed
  refine ⟨later, other, rows, row, order, ?_, same, heard, rest⟩
  rw [List.getElem?_set_ne]
  · exact listed
  · rintro rfl
    cases found.symm.trans listed
    exact unheard _ heard

end Lists

theorem changes_of_same {generation : UInt64} {changes : Nat}
    (same : generation = generation + UInt64.ofNat changes) : changes = 0 ∨ 2 ^ 64 ≤ changes := by
  have values := congrArg UInt64.toNat same
  rw [UInt64.toNat_add, UInt64.toNat_ofNat'] at values
  have bound := generation.toNat_lt
  omega

theorem Began.later {start : DesktopCollection host} {actions more : List (CollectionAction host)}
    {target : KnotRetainTargetV1} {change : OrganizeComposition}
    (began : Began start actions target change) : Began start (actions ++ more) target change := by
  obtain ⟨before, action, row, part, rest⟩ := began
  exact ⟨before, action, row, part.trans (List.prefix_append _ _), rest⟩

namespace Sound

variable {start : DesktopCollection host} {actions : List (CollectionAction host)}
  {requests : CollectionRequests host}

theorem later (sound : Sound start actions requests) (more : List (CollectionAction host)) :
    Sound start (actions ++ more) requests where
  coherent := sound.coherent
  latest := sound.latest
  alone := sound.alone
  hidden := sound.hidden
  shown := sound.shown
  current := sound.current
  kept := sound.kept
  drawn item waits := by
    rw [List.filterMap_append]
    exact List.mem_append_left _ (sound.drawn item waits)
  editing target change held := (sound.editing target change held).later
  changing worker member change held := (sound.changing worker member change held).later

theorem clear (sound : Sound start actions requests) :
    Sound start actions { requests with shown := [] } :=
  { sound with
    hidden := fun _ => rfl
    shown := Or.inl rfl
    current := fun index worker held found =>
      let known := sound.current index worker held found
      ⟨known.generation, known.unchanged, known.changed, known.waiting, known.legacy⟩ }

theorem edit (sound : Sound start actions requests)
    {editing : Option (KnotRetainTargetV1 × OrganizeComposition)}
    (began : ∀ target change, editing = some (target, change) →
      Began start actions target change) :
    Sound start actions { requests with editing := editing } :=
  { sound with
    current := fun index worker held found =>
      let known := sound.current index worker held found
      ⟨known.generation, known.unchanged, known.changed, known.waiting, known.legacy⟩
    editing := began }

theorem closed (sound : Sound start actions requests) :
    Sound start actions requests.unconfirmed := by
  refine sound.clear.edit ?_
  intro target change held
  cases held

theorem replaced (sound : Sound start actions requests) :
    Sound start actions { requests.retarget none with changes := requests.changes + 1 } :=
  { sound.closed with
    shown := Or.inl rfl
    current := by
      intro index worker held found
      have known := sound.current index worker held found
      refine ⟨?_, ?_, ?_, known.waiting, known.legacy⟩
      · have counted : UInt64.ofNat (requests.changes + 1) = UInt64.ofNat requests.changes + 1 :=
          UInt64.ofNat_add _ _
        have asked : requests.generation + 1 =
            worker.generation + UInt64.ofNat requests.changes + 1 :=
          congrArg (· + 1) known.generation
        simpa only [retarget, counted, UInt64.add_assoc] using asked
      · intro none_
        exact absurd none_ (Nat.succ_ne_zero _)
      · intro _
        rfl }

theorem selected (sound : Sound start actions requests) (idle : requests.receiver = none)
    (target : Option KnotRetainTargetV1) :
    Sound start actions (requests.retarget target) :=
  { sound.closed with
    shown := Or.inl rfl
    current := by
      intro index worker held
      cases idle.symm.trans held }

theorem keep (sound : Sound start actions requests) (idle : requests.receiver = none)
    {items : List host.Item} {target : KnotRetainTargetV1}
    (repeats : items = [] ∨ requests.waiting = [] ∨
      (requests.waiting = items ∧ requests.waitingFor = some target))
    (drawn : ∀ item ∈ items, item.id ∈ actions.filterMap CollectionAction.drawn) :
    Sound start actions (requests.keep items target) := by
  cases items with
  | nil => exact sound.clear
  | cons item rest =>
    have free : ∀ index : Nat, requests.receiver ≠ some index := by simp [idle]
    exact { sound.clear with
      current := fun index _ held => absurd held (free index)
      kept := by
        intro index worker found other member
        rcases sound.kept index worker found other member with ⟨waits, awaited⟩ | confirmed
        · rcases repeats with none_ | settled | ⟨same, sameTarget⟩
          · cases none_
          · rw [settled] at waits
            cases waits
          · rw [same] at waits
            refine Or.inl ⟨waits, ?_⟩
            rw [← awaited, sameTarget]
            rfl
        · exact Or.inr confirmed
      drawn := drawn }

theorem ask (sound : Sound start actions requests) (idle : requests.receiver = none)
    (hidden : requests.shown = []) {worker : CollectionWorker host} (coherent : worker.Coherent)
    (generation : worker.generation = requests.generation)
    (selected : requests.target = some worker.target)
    (waiting : worker.items ≠ [] →
      requests.waiting = worker.items ∧ requests.waitingFor = some worker.target)
    (legacy : worker.legacy = true → requests.waiting = [])
    (began : ∀ change, worker.change = some change → Began start actions worker.target change) :
    Sound start actions (requests.ask worker) where
  coherent other member := by
    rcases List.mem_append.mp member with earlier | added
    · exact sound.coherent other earlier
    · cases List.mem_singleton.mp added
      exact coherent
  latest index held := by
    cases held
    simp [CollectionRequests.ask]
  alone index other found flies := by
    rcases getElem?_concat_cases found with earlier | ⟨last, _⟩
    · cases idle.symm.trans (sound.alone index other earlier flies)
    · rw [last]
      rfl
  hidden _ := hidden
  shown := Or.inl hidden
  current index other held found := by
    cases held
    rcases getElem?_concat_cases found with earlier | ⟨_, rfl⟩
    · exact absurd (List.getElem?_eq_some_iff.mp earlier).1 (Nat.lt_irrefl _)
    · refine ⟨?_, fun _ => selected, fun some_ => absurd rfl some_, waiting, legacy⟩
      rw [generation]
      exact (UInt64.add_zero _).symm
  kept index other found item member := by
    rcases getElem?_concat_cases found with earlier | ⟨_, rfl⟩
    · rcases sound.kept index other earlier item member with waits | confirmed
      · exact Or.inl waits
      · exact Or.inr (confirmed.append worker)
    · have given := waiting (List.ne_nil_of_mem member)
      refine Or.inl ⟨?_, given.2⟩
      rw [← given.1] at member
      exact member
  drawn := sound.drawn
  editing := sound.editing
  changing other member change held := by
    rcases List.mem_append.mp member with earlier | added
    · exact sound.changing other earlier change held
    · cases List.mem_singleton.mp added
      exact began change held

theorem requested (sound : Sound start actions requests) {items : List host.Item} {legacy : Bool}
    {change : Option OrganizeComposition} {after : CollectionRequests host}
    (asked : requests.Requested items legacy change after)
    (alone : legacy = true → items = [])
    (repeats : ∀ target, requests.Fits target items legacy → items = [] ∨ requests.waiting = [] ∨
      (requests.waiting = items ∧ requests.waitingFor = some target))
    (drawn : ∀ item ∈ items, item.id ∈ actions.filterMap CollectionAction.drawn)
    (began : ∀ target given, requests.target = some target → change = some given →
      Began start actions target given) :
    Sound start actions after := by
  cases asked with
  | busy held => exact sound
  | refused idle => exact sound.clear
  | unstarted idle target selected fits => exact sound.keep idle (repeats target fits) drawn
  | started idle target selected fits path =>
    refine (sound.keep idle (repeats target fits) drawn).ask idle rfl ?_ rfl selected ?_ ?_ ?_
    · cases legacy with
      | true => exact rfl
      | false => exact CollectionWorker.next_suits (Or.inr (List.Subset.refl _))
    · intro some_
      have filled : items.isEmpty = false := by simpa using some_
      simp [CollectionRequests.keep, filled]
    · intro imports
      cases alone imports
      cases imports
      rcases fits with ⟨_, plain⟩ | settled | ⟨_, plain, _⟩
      · cases plain
      · exact settled
      · cases plain
    · intro given same
      exact began target given selected same

theorem requested_nil (sound : Sound start actions requests) {legacy : Bool}
    {change : Option OrganizeComposition} {after : CollectionRequests host}
    (asked : requests.Requested [] legacy change after)
    (began : ∀ target given, requests.target = some target → change = some given →
      Began start actions target given) :
    Sound start actions after := by
  refine sound.requested asked (fun _ => rfl) (fun _ _ => Or.inl rfl) ?_ began
  intro item member
  cases member

theorem rephase (sound : Sound start actions requests) {index : Nat}
    {worker : CollectionWorker host} {phase : WorkerPhase host}
    (found : requests.workers[index]? = some worker)
    (unheard : ∀ result, worker.phase ≠ .received result) (suits : worker.Suits phase)
    (flies : ({ worker with phase := phase } : CollectionWorker host).inFlight = true →
      worker.inFlight = true)
    (hidden : requests.shown = []) :
    Sound start actions
      { requests with workers := requests.workers.set index { worker with phase := phase } } where
  coherent other member := by
    rcases List.mem_or_eq_of_mem_set member with earlier | rfl
    · exact sound.coherent other earlier
    · exact suits
  latest place held := by
    rw [List.length_set]
    exact sound.latest place held
  alone place other listed inFlight := by
    rcases getElem?_set_cases listed with ⟨rfl, rfl⟩ | ⟨_, earlier⟩
    · exact sound.alone place worker found (flies inFlight)
    · exact sound.alone place other earlier inFlight
  hidden _ := hidden
  shown := Or.inl hidden
  current place other held listed := by
    rcases getElem?_set_cases listed with ⟨rfl, rfl⟩ | ⟨_, earlier⟩
    · have known := sound.current place worker held found
      exact ⟨known.generation, known.unchanged, known.changed, known.waiting, known.legacy⟩
    · have known := sound.current place other held earlier
      exact ⟨known.generation, known.unchanged, known.changed, known.waiting, known.legacy⟩
  kept place other listed item member := by
    have before : Kept requests place other.target item := by
      rcases getElem?_set_cases listed with ⟨rfl, rfl⟩ | ⟨_, earlier⟩
      · exact sound.kept place worker found item member
      · exact sound.kept place other earlier item member
    rcases before with waits | confirmed
    · exact Or.inl waits
    · exact Or.inr (confirmed.set found unheard _)
  drawn := sound.drawn
  editing := sound.editing
  changing other member change held := by
    rcases List.mem_or_eq_of_mem_set member with earlier | rfl
    · exact sound.changing other earlier change held
    · exact sound.changing worker (List.mem_of_getElem? found) change held

theorem work (sound : Sound start actions requests) {index : Nat} {worker : CollectionWorker host}
    (found : requests.workers[index]? = some worker) (answer : PortAnswer host) :
    Sound start actions
      { requests with workers := requests.workers.set index (worker.answer answer) } := by
  rcases worker.answer_follows answer with same | ⟨calls, phase, same, follows⟩
  · rw [same]
    obtain ⟨bound, rfl⟩ := List.getElem?_eq_some_iff.mp found
    rw [List.set_getElem_self]
    exact sound
  · rw [same]
    have flies := CollectionWorker.inFlight_of_calls calls
    have held := sound.alone index worker found flies
    refine sound.rephase found (CollectionWorker.ne_received_of_inFlight flies) ?_
      (fun _ => flies) ?_
    · exact (sound.coherent worker (List.mem_of_getElem? found)).suits follows
    · exact sound.hidden (by rw [held]; exact Option.some_ne_none index)

theorem landed (sound : Sound start actions requests) {index : Nat}
    {worker : CollectionWorker host} (held : requests.receiver = some index)
    (found : requests.workers[index]? = some worker) (grounded : worker.inFlight = false) :
    Sound start actions { requests with receiver := none } :=
  { sound with
    latest := by
      intro other same
      cases same
    alone := by
      intro other flying listed flies
      have same := sound.alone other flying listed flies
      cases held.symm.trans same
      cases found.symm.trans listed
      cases grounded.symm.trans flies
    hidden := fun some_ => absurd rfl some_
    current := by
      intro other flying same
      cases same }

theorem receive (sound : Sound start actions requests) {index : Nat}
    {worker : CollectionWorker host}
    {result : Except String (List (RetainedCompositionItem host))}
    (held : requests.receiver = some index) (found : requests.workers[index]? = some worker)
    (sent : worker.phase = .sent result) :
    Sound start actions (requests.receive index worker result) := by
  have flies := CollectionWorker.inFlight_of_sent sent
  have hidden := sound.hidden (by rw [held]; exact Option.some_ne_none index)
  have coherent := sound.coherent worker (List.mem_of_getElem? found)
  have suits : worker.Suits (.received result) := coherent.received sent
  have heard := sound.rephase found (CollectionWorker.ne_received_of_inFlight flies) suits
    (fun _ => flies) hidden
  have listed : (requests.workers.set index { worker with phase := .received result })[index]? =
      some { worker with phase := .received result } := by
    rw [List.getElem?_set_self (List.getElem?_eq_some_iff.mp found).1]
  exact heard.landed held listed rfl

theorem last_received (sound : Sound start actions requests) {index : Nat}
    {worker : CollectionWorker host}
    {result : Except String (List (RetainedCompositionItem host))}
    (held : requests.receiver = some index) (found : requests.workers[index]? = some worker) :
    (requests.receive index worker result).workers.getLast? =
      some { worker with phase := .received result } := by
  have bound := (List.getElem?_eq_some_iff.mp found).1
  have last : requests.workers.length - 1 = index := by
    have counted := sound.latest index held
    omega
  simp only [CollectionRequests.receive]
  rw [List.getLast?_eq_getElem?, List.length_set, last, List.getElem?_set_self bound]

theorem confirm (sound : Sound start actions requests) {index : Nat}
    {worker : CollectionWorker host} {rows : List (RetainedCompositionItem host)}
    (held : requests.receiver = some index) (found : requests.workers[index]? = some worker)
    (sent : worker.phase = .sent (.ok rows)) (same : worker.generation = requests.generation) :
    Sound start actions ((requests.receive index worker (.ok rows)).confirm rows) := by
  have known := sound.current index worker held found
  have counted : requests.changes = 0 ∨ 2 ^ 64 ≤ requests.changes :=
    changes_of_same (same.trans known.generation)
  have received := sound.receive held found sent
  have closed := received.closed
  refine { closed with
    hidden := fun some_ => absurd rfl some_
    shown := Or.inr ⟨_, rows, sound.last_received held found, rfl, rfl, ?_⟩
    current := ?_ }
  · rcases counted with none_ | wrapped
    · exact Or.inl (known.unchanged none_)
    · exact Or.inr ⟨known.changed (by omega), wrapped⟩
  · intro other flying same
    cases same

theorem settle (sound : Sound start actions requests) {index : Nat}
    {worker : CollectionWorker host} {rows : List (RetainedCompositionItem host)}
    {target : KnotRetainTargetV1}
    (held : requests.receiver = some index) (found : requests.workers[index]? = some worker)
    (sent : worker.phase = .sent (.ok rows)) (same : worker.generation = requests.generation)
    (awaited : requests.waitingFor = some target) (selected : requests.target = some target) :
    Sound start actions
      (((requests.receive index worker (.ok rows)).confirm rows).settle target) := by
  have known := sound.current index worker held found
  have own : worker.target = target := by
    by_cases none_ : requests.changes = 0
    · exact Option.some.inj ((known.unchanged none_).symm.trans selected)
    · cases selected.symm.trans (known.changed none_)
  have bound := (List.getElem?_eq_some_iff.mp found).1
  have confirmed := sound.confirm held found sent same
  refine { confirmed with
    current := ?_
    kept := ?_
    drawn := fun item waits => confirmed.drawn item (List.mem_filter.mp waits).1 }
  · intro other flying idle
    cases idle
  · intro place other listed item member
    rcases confirmed.kept place other listed item member with ⟨waits, target_⟩ | earlier
    · have sameTarget : target = other.target := Option.some.inj (awaited.symm.trans target_)
      cases shown : (RetainedCompositionItem.sort rows).any
          (RetainedCompositionItem.confirms target item) with
      | true =>
        obtain ⟨row, sorted, confirms⟩ := List.any_eq_true.mp shown
        have order : place ≤ index := by
          have inside := (List.getElem?_eq_some_iff.mp listed).1
          have counted := sound.latest index held
          simp only [CollectionRequests.confirm, CollectionRequests.receive,
            CollectionRequests.settle, List.length_set] at inside
          omega
        refine Or.inr ⟨index, { worker with phase := .received (.ok rows) }, rows, row, order,
          ?_, own.trans sameTarget, rfl, List.mem_mergeSort.mp sorted, ?_⟩
        · exact List.getElem?_set_self bound
        · rw [← sameTarget]
          exact confirms
      | false =>
        have remains : item ∈ (((requests.receive index worker (.ok rows)).confirm rows).settle
            target).waiting :=
          List.mem_filter.mpr ⟨waits, by simpa [CollectionRequests.confirm] using shown⟩
        refine Or.inl ⟨remains, ?_⟩
        have filled := List.isEmpty_eq_false_iff.mpr (List.ne_nil_of_mem remains)
        simp only [CollectionRequests.settle] at filled ⊢
        rw [filled]
        exact target_
    · exact Or.inr earlier

theorem drained (sound : Sound start actions requests) {after : CollectionRequests host}
    (drained : requests.Drained after) : Sound start actions after := by
  cases drained with
  | stale held found sent moved => exact sound.receive held found sent
  | listed held found sent current elsewhere => exact sound.confirm held found sent current
  | settled held found sent current awaited selected =>
    exact sound.settle held found sent current awaited selected
  | failed held found sent => exact (sound.receive held found sent).closed
  | lost held found gone =>
    exact (sound.landed held found (CollectionWorker.not_inFlight_of_gone gone)).closed

end Sound

theorem Began.of_pressed {start : DesktopCollection host} {actions : List (CollectionAction host)}
    {action : CollectionAction host} {row : RetainedCompositionItem host}
    {target : KnotRetainTargetV1} {change : OrganizeComposition}
    (pressed : (start.run actions).pressed action = some row)
    (selected : (start.run actions).requests.target = some target)
    (changed : row.ChangedBy change) :
    Began start (actions ++ [action]) target change :=
  ⟨actions, action, row, List.prefix_refl _, selected, pressed, changed⟩

theorem Sound.settled_of_fresh {start : DesktopCollection host}
    {actions : List (CollectionAction host)} {requests : CollectionRequests host}
    (sound : Sound start actions requests) {item : host.Item} {starts : Bool}
    (fresh : FreshIds (actions ++ [.collect item starts])) {target : KnotRetainTargetV1}
    (fits : requests.Fits target [item] false) : requests.waiting = [] := by
  rcases fits with ⟨none_, _⟩ | settled | ⟨_, _, ids⟩
  · cases none_
  · exact settled
  · cases waiting : requests.waiting with
    | nil => rfl
    | cons first rest =>
      rw [waiting] at ids
      simp only [List.map_cons, List.map_nil, List.cons.injEq] at ids
      have earlier := sound.drawn first (by rw [waiting]; exact List.mem_cons_self)
      simp only [FreshIds, List.filterMap_append, List.filterMap_cons, List.filterMap_nil,
        CollectionAction.drawn, List.nodup_append] at fresh
      exact absurd ids.1.symm (fresh.2.2 _ earlier _ List.mem_cons_self)

theorem Sound.step {start : DesktopCollection host} {actions : List (CollectionAction host)}
    (sound : Sound start actions (start.run actions).requests) (action : CollectionAction host)
    (fresh : FreshIds (actions ++ [action])) :
    Sound start (actions ++ [action]) ((start.run actions).step action).requests := by
  have held := sound.later [action]
  generalize after : ((start.run actions).step action).requests = requests
  have moves := (start.run actions).moves action
  rw [after] at moves
  cases moves with
  | still => exact held
  | setTargets => exact held.replaced
  | selectTarget idle target asked =>
    refine (held.selected idle target).requested_nil asked ?_
    intro other given _ same
    cases same
  | collect asked =>
    rename_i item starts
    refine held.requested asked ?_ ?_ ?_ ?_
    · intro same
      cases same
    · intro target fits
      exact Or.inr (Or.inl (sound.settled_of_fresh fresh fits))
    · intro other member
      cases List.mem_singleton.mp member
      simp [CollectionAction.drawn]
    · intro target given _ same
      cases same
  | retry asked =>
    refine held.requested asked ?_ ?_ held.drawn ?_
    · intro same
      cases same
    · intro target fits
      rcases fits with ⟨none_, _⟩ | settled | ⟨awaited, _, _⟩
      · exact Or.inl none_
      · exact Or.inr (Or.inl settled)
      · exact Or.inr (Or.inr ⟨rfl, awaited⟩)
    · intro target given _ same
      cases same
  | refresh asked | importLegacy asked =>
    refine held.requested_nil asked ?_
    intro target given _ same
    cases same
  | archive pressed changed asked =>
    refine held.requested_nil asked ?_
    intro target given selected same
    cases same
    exact Began.of_pressed pressed selected changed
  | begins pressed selected =>
    refine held.edit ?_
    intro target change same
    cases same
    exact Began.of_pressed pressed selected ⟨rfl, rfl, rfl⟩
  | saves editing selected asked =>
    refine held.requested_nil asked ?_
    intro target given same sent
    cases selected.symm.trans same
    cases sent
    obtain ⟨before, pressing, row, part, chosen, pressed, changed⟩ := held.editing _ _ editing
    exact ⟨before, pressing, row, part, chosen, pressed, changed⟩
  | cancels =>
    refine held.edit ?_
    intro target change same
    cases same
  | drain drained => exact held.drained drained
  | work found => exact held.work found _

theorem sound_configured (legacyPath : Option String) :
    Sound (CompositionState.configured host legacyPath) []
      (CompositionState.configured host legacyPath).requests where
  coherent _ member := by cases member
  latest _ same := by cases same
  alone _ _ listed := by cases listed
  hidden _ := rfl
  shown := Or.inl rfl
  current _ _ same := by cases same
  kept _ _ listed := by cases listed
  drawn _ member := by cases member
  editing _ _ same := by cases same
  changing _ member := by cases member

theorem sound_run (legacyPath : Option String) (actions : List (CollectionAction host))
    (fresh : FreshIds actions) :
    Sound (CompositionState.configured host legacyPath) actions
      ((CompositionState.configured host legacyPath).run actions).requests := by
  induction actions using List.reverseRecOn with
  | nil => exact sound_configured legacyPath
  | append_singleton earlier action ih =>
    have before : FreshIds earlier := by
      simp only [FreshIds, List.filterMap_append, List.nodup_append] at fresh
      exact fresh.1
    have step := (ih before).step action fresh
    rw [DesktopCollection.run, List.foldl_append]
    exact step

end KnotEditor.Desktop
