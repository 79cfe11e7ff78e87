import KnotEditor.Wordnet.ParserSafety

/-! What the reader makes of a lexicon does not depend on the subtrees it ignores. -/

namespace KnotEditor.Wordnet

open Fallible

/-- Where in a document the reader stands: in the open elements of `stack`, innermost first, and in
`nested` further ones of a subtree that is ignored. -/
structure Context where
  stack : List String := []
  nested : Nat := 0

namespace Context

variable (context : Context)

def ignores (name : String) : Prop :=
  context.nested ≠ 0 ∨ classify name context.stack.head? = .ignored

instance (name : String) : Decidable (context.ignores name) :=
  inferInstanceAs (Decidable (_ ∨ _))

def step : Event → Context
  | .start name _ =>
    if context.ignores name then { context with nested := context.nested + 1 }
    else { context with stack := name :: context.stack }
  | .end_ _ =>
    if context.nested = 0 then { context with stack := context.stack.tail }
    else { context with nested := context.nested - 1 }
  | _ => context

def shows : Event → Bool
  | .start name _ | .empty name _ => !context.ignores name
  | _ => context.nested = 0

end Context

def visible : List Event → Context → List Event
  | [], _ => []
  | event :: rest, context =>
    if context.shows event then event :: visible rest (context.step event)
    else visible rest (context.step event)

/-- A sequence of elements, each closed by its own name, and of what may stand between them. -/
inductive Complete : List Event → Prop
  | nil : Complete []
  | empty (name : String) (attributes : List AttributeEvent) {rest : List Event} :
      Complete rest → Complete (.empty name attributes :: rest)
  | text (value : String) {rest : List Event} : Complete rest → Complete (.text value :: rest)
  | comment {rest : List Event} : Complete rest → Complete (.comment :: rest)
  | element (name : String) (attributes : List AttributeEvent) {body rest : List Event} :
      Complete body → Complete rest →
        Complete (.start name attributes :: body ++ .end_ name :: rest)

inductive Subtree (name : String) : List Event → Prop
  | empty (attributes : List AttributeEvent) : Subtree name [.empty name attributes]
  | element (attributes : List AttributeEvent) {body : List Event} :
      Complete body → Subtree name (.start name attributes :: body ++ [.end_ name])

/-- The first document is the second with one more subtree, whose root is ignored there. -/
inductive AddsIgnored : List Event → List Event → Prop
  | mk (before after : List Event) {name : String} {subtree : List Event} :
      Subtree name subtree → (before.foldl Context.step {}).ignores name →
        AddsIgnored (before ++ subtree ++ after) (before ++ after)

def DifferByIgnored : List Event → List Event → Prop := Relation.EqvGen AddsIgnored

section Visible

variable {context : Context}

theorem visible_append (before after : List Event) (context : Context) :
    visible (before ++ after) context =
      visible before context ++ visible after (before.foldl Context.step context) := by
  induction before generalizing context with
  | nil => rfl
  | cons event rest ih =>
    rw [List.cons_append, visible, visible, List.foldl_cons, ih]
    split
    · rw [List.cons_append]
    · rfl

structure Hidden (events : List Event) (context : Context) : Prop where
  unseen : visible events context = []
  back : events.foldl Context.step context = context

theorem Hidden.cons {event : Event} {rest : List Event} (hidden : context.shows event = false)
    (stays : context.step event = context) (behind : Hidden rest context) :
    Hidden (event :: rest) context where
  unseen := by
    rw [visible, hidden, stays]
    exact behind.unseen
  back := by
    rw [List.foldl_cons, stays]
    exact behind.back

theorem Hidden.append {before after : List Event} (first : Hidden before context)
    (second : Hidden after context) : Hidden (before ++ after) context where
  unseen := by rw [visible_append, first.unseen, first.back, second.unseen, List.append_nil]
  back := by rw [List.foldl_append, first.back, second.back]

theorem hidden_element {name : String} (attributes : List AttributeEvent) {body : List Event}
    (ignored : context.ignores name)
    (within : Hidden body { context with nested := context.nested + 1 }) :
    Hidden (.start name attributes :: body ++ [.end_ name]) context := by
  have opened : context.step (.start name attributes) =
      { context with nested := context.nested + 1 } := if_pos ignored
  have closed : Context.step { context with nested := context.nested + 1 } (.end_ name) =
      context := rfl
  have hiddenStart : context.shows (.start name attributes) = false := by
    simp [Context.shows, ignored]
  have hiddenEnd : Context.shows { context with nested := context.nested + 1 } (.end_ name) =
      false := by simp [Context.shows]
  constructor
  · rw [List.cons_append, visible, hiddenStart, opened, visible_append, within.unseen, within.back,
      visible, hiddenEnd]
    rfl
  · rw [List.cons_append, List.foldl_cons, opened, List.foldl_append, within.back, List.foldl_cons,
      closed]
    rfl

theorem hidden_complete {body : List Event} (complete : Complete body) (context : Context)
    (inside : context.nested ≠ 0) : Hidden body context := by
  induction complete generalizing context with
  | nil => exact ⟨rfl, rfl⟩
  | empty name attributes _ ih =>
    have hidden : context.shows (.empty name attributes) = false := by
      simp [Context.shows, Context.ignores, inside]
    exact (ih context inside).cons hidden rfl
  | text value _ ih =>
    have hidden : context.shows (.text value) = false := by simp [Context.shows, inside]
    exact (ih context inside).cons hidden rfl
  | comment _ ih =>
    have hidden : context.shows .comment = false := by simp [Context.shows, inside]
    exact (ih context inside).cons hidden rfl
  | @element name attributes body rest _ _ ihBody ihRest =>
    have within := ihBody { context with nested := context.nested + 1 } (Nat.succ_ne_zero _)
    have ignored : context.ignores name := .inl inside
    have whole := (hidden_element attributes ignored within).append (ihRest context inside)
    rwa [List.append_assoc, List.singleton_append] at whole

theorem hidden_subtree {name : String} {subtree : List Event} (whole : Subtree name subtree)
    (context : Context) (ignored : context.ignores name) : Hidden subtree context := by
  cases whole with
  | empty attributes =>
    have hidden : context.shows (.empty name attributes) = false := by
      simp [Context.shows, ignored]
    exact Hidden.cons hidden rfl ⟨rfl, rfl⟩
  | element attributes complete =>
    exact hidden_element attributes ignored (hidden_complete complete _ (Nat.succ_ne_zero _))

theorem visible_of_addsIgnored {more less : List Event} (adds : AddsIgnored more less) :
    visible more {} = visible less {} := by
  obtain ⟨before, after, whole, ignored⟩ := adds
  have hidden := hidden_subtree whole (before.foldl Context.step {}) ignored
  rw [visible_append, visible_append, hidden.unseen, List.foldl_append, hidden.back,
    List.append_nil, visible_append]

theorem visible_of_differByIgnored {first second : List Event}
    (differ : DifferByIgnored first second) : visible first {} = visible second {} := by
  induction differ with
  | rel more less adds => exact visible_of_addsIgnored adds
  | refl events => rfl
  | symm first second _ ih => exact ih.symm
  | trans first middle last _ _ ihFirst ihLast => exact ihFirst.trans ihLast

end Visible

def Reading.enter (reading : Reading) (name : String) (event : List AttributeEvent) :
    Except ImportError Reading := do
  let attributes ← attributes event
  let begun ← reading.begin name attributes (classify name reading.stack.head?)
  return { begun with stack := name :: begun.stack }

def Reading.leave (reading : Reading) (name : String) : Except ImportError Reading :=
  { reading with stack := reading.stack.tail }.finish name

def Reading.read (reading : Reading) : Event → Except ImportError Reading
  | .start name attributes => reading.enter name attributes
  | .empty name attributes => do
      let entered ← reading.enter name attributes
      entered.leave name
  | .end_ name => reading.leave name
  | .text value => reading.appendText value
  | _ => .ok reading

theorem stack_of_begin {reading next : Reading} {name : String} {attributes : Attributes}
    {placement : Placement} (begun : reading.begin name attributes placement = .ok next) :
    next.stack = reading.stack := by
  cases placement <;>
    simp only [Reading.begin, invalid, refuse_eq_ok_iff, bind_eq_ok_iff] at begun
  case resource | lexicon =>
    split at begun <;> cases begun
    rfl
  case entry | synset =>
    obtain ⟨id, -, done⟩ := begun
    cases done
    rfl
  case lemma_ =>
    obtain ⟨current, -, -, lemma_, -, pos, -, done⟩ := begun
    cases done
    rfl
  case sense =>
    obtain ⟨id, -, synset, -, -, done⟩ := begun
    cases done
    rfl
  case senseRelation | synsetRelation =>
    obtain ⟨current, -, relation, -, done⟩ := begun
    cases done
    rfl
  all_goals
    cases begun
    try rfl

theorem stack_of_finish {reading next : Reading} {name : String}
    (finished : reading.finish name = .ok next) : next.stack = reading.stack := by
  simp only [Reading.finish, invalid] at finished
  split at finished
  · simp only [refuse_eq_ok_iff, bind_eq_ok_iff] at finished
    obtain ⟨value, -, -, -, done⟩ := finished
    cases done
    rfl
  · split at finished
    · simp only [bind_eq_ok_iff] at finished
      obtain ⟨current, -, value, -, done⟩ := finished
      cases done
      rfl
    · split at finished
      · simp only [refuse_eq_ok_iff, bind_eq_ok_iff] at finished
        obtain ⟨value, -, -, -, done⟩ := finished
        cases done
        rfl
      · split at finished
        · simp only [bind_eq_ok_iff] at finished
          obtain ⟨current, -, done⟩ := finished
          cases done
          rfl
        · split at finished
          · split at finished
            · cases finished
              rfl
            · simp only [bind_eq_ok_iff] at finished
              obtain ⟨current, -, done⟩ := finished
              cases done
              rfl
          · split at finished
            · simp only [bind_eq_ok_iff] at finished
              obtain ⟨current, -, done⟩ := finished
              cases done
              rfl
            · cases finished
              rfl

namespace ReaderState

variable {state next : ReaderState} {context : Context} {name : String}

theorem alike_of_charge {bytes : Nat} (charged : state.charge bytes = .ok next) :
    Alike state next := by
  have safe : Safe (Alike state) (state.charge bytes) := safe_charge bytes
  rwa [charged] at safe

theorem alike_of_chargePlacement {placement : Placement}
    (charged : state.chargePlacement placement = .ok next) : Alike state next := by
  have safe : Safe (Alike state) (state.chargePlacement placement) :=
    safe_chargePlacement placement
  rwa [charged] at safe

theorem alike_of_countAttributes {placement : Placement} {attributes : Attributes}
    (counted : state.countAttributes placement name attributes = .ok next) : Alike state next := by
  have safe : Safe (Alike state) (state.countAttributes placement name attributes) :=
    safe_countAttributes placement name attributes
  rwa [counted] at safe

structure Aligned (state : ReaderState) (context : Context) : Prop where
  stack : ∃ above : List String, above.length = context.nested ∧
    state.stack = above ++ context.stack
  depth : state.ignoredDepth = if context.nested = 0 then none else some context.stack.length

def seen (state : ReaderState) (context : Context) : Reading :=
  { state.toReading with stack := context.stack }

theorem seen_of_stack (same : state.stack = context.stack) :
    state.seen context = state.toReading := by
  rw [seen, ← same]

theorem Aligned.heeding (aligned : Aligned state context) (outside : context.nested = 0) :
    state.ignoredDepth = none ∧ state.stack = context.stack ∧
      state.seen context = state.toReading := by
  obtain ⟨above, length, stack⟩ := aligned.stack
  rw [List.eq_nil_of_length_eq_zero (length.trans outside), List.nil_append] at stack
  exact ⟨by rw [aligned.depth, if_pos outside], stack, seen_of_stack stack⟩

theorem Aligned.of_reading (aligned : Aligned state context)
    (stack : next.stack = state.stack) (depth : next.ignoredDepth = state.ignoredDepth) :
    Aligned next context :=
  ⟨by rw [stack]; exact aligned.stack, by rw [depth]; exact aligned.depth⟩

theorem place_eq_ok {attributes : Attributes}
    (placed : state.place name attributes = .ok next) :
    state.toReading.begin name attributes (classify name state.stack.head?) =
        .ok next.toReading ∧
      next.ignoredDepth = if classify name state.stack.head? = .ignored then
        some next.stack.length else state.ignoredDepth := by
  simp only [place, bind_eq_ok_iff] at placed
  obtain ⟨charged, first, begun, begins, ignoring, second, third⟩ := placed
  have before := alike_of_chargePlacement first
  have after := alike_of_countAttributes third
  rw [before.reading] at begins
  rw [after.reading, after.depth]
  unfold ignoreIf at second
  split at second
  next ignored =>
    obtain ⟨counts, -, rfl⟩ := map_eq_ok_iff.mp second
    exact ⟨begins, by rw [if_pos ignored]⟩
  next heeded =>
    cases second
    exact ⟨begins, by rw [if_neg heeded]; exact before.depth⟩

theorem Aligned.deeper (aligned : Aligned state context)
    (stack : next.stack = name :: state.stack)
    (depth : next.ignoredDepth = some context.stack.length) :
    Aligned next { context with nested := context.nested + 1 } := by
  obtain ⟨above, length, whole⟩ := aligned.stack
  refine ⟨⟨name :: above, ?_, ?_⟩, ?_⟩
  · rw [List.length_cons, length]
  · rw [stack, whole, List.cons_append]
  · rw [depth, if_neg (Nat.succ_ne_zero _)]

structure Enters (state : ReaderState) (context : Context) (name : String)
    (event : List AttributeEvent) (next : ReaderState) : Prop where
  aligned : Aligned next (context.step (.start name event))
  seen : if context.ignores name then
      next.seen (context.step (.start name event)) = state.seen context
    else (state.seen context).enter name event = .ok (next.seen (context.step (.start name event)))

theorem enters_of_enter {event : List AttributeEvent} (aligned : Aligned state context)
    (entered : state.enter name event = .ok next) : Enters state context name event next := by
  simp only [enter, invalid, refuse_eq_ok_iff, bind_eq_ok_iff] at entered
  obtain ⟨-, attributes, read, charged, budget, -, placed, place, -, entered⟩ := entered
  cases entered
  have same := alike_of_charge budget
  have stack : charged.stack = state.stack := congrArg Reading.stack same.reading
  by_cases outside : context.nested = 0
  · obtain ⟨heeding, innermost, whole⟩ := aligned.heeding outside
    rw [placeUnlessIgnored, same.depth, heeding] at place
    obtain ⟨begins, depth⟩ := place_eq_ok place
    have kept := stack_of_begin begins
    rw [same.depth, heeding] at depth
    rw [same.reading, innermost] at begins
    rw [kept, stack, innermost] at depth
    by_cases ignored : classify name context.stack.head? = .ignored
    · have inside : context.ignores name := .inr ignored
      have opened : context.step (.start name event) =
          { context with nested := context.nested + 1 } := if_pos inside
      rw [if_pos ignored] at depth
      rw [ignored] at begins
      have unchanged : state.toReading = placed.toReading := Except.ok.inj begins
      refine ⟨?_, ?_⟩
      · rw [opened]
        exact aligned.deeper (congrArg (List.cons name) (kept.trans stack)) depth
      · rw [if_pos inside, opened, seen, seen, unchanged]
    · have heeded : ¬ context.ignores name := by
        rintro (nested | other)
        · exact nested outside
        · exact ignored other
      have opened : context.step (.start name event) =
          { context with stack := name :: context.stack } := if_neg heeded
      rw [if_neg ignored] at depth
      have pushed : placed.stack = context.stack := by rw [kept, stack, innermost]
      refine ⟨?_, ?_⟩
      · rw [opened]
        refine ⟨⟨[], outside.symm, ?_⟩, ?_⟩
        · exact congrArg (List.cons name) pushed
        · rw [depth, if_pos outside]
      · rw [if_neg heeded, opened, whole, Reading.enter, read, innermost]
        simp only [bind, Except.bind, begins]
        rw [pushed]
        rfl
  · have inside : context.ignores name := .inl outside
    have opened : context.step (.start name event) =
        { context with nested := context.nested + 1 } := if_pos inside
    have depth := aligned.depth
    rw [if_neg outside] at depth
    rw [placeUnlessIgnored, same.depth, depth] at place
    cases place
    refine ⟨?_, ?_⟩
    · rw [opened]
      exact aligned.deeper (congrArg (List.cons name) stack) (same.depth.trans depth)
    · rw [if_pos inside, opened, seen, seen, same.reading]

structure Leaves (state : ReaderState) (context : Context) (name : String) (next : ReaderState) :
    Prop where
  aligned : Aligned next (context.step (.end_ name))
  seen : if context.nested = 0 then
      (state.seen context).leave name = .ok (next.seen (context.step (.end_ name)))
    else next.seen (context.step (.end_ name)) = state.seen context

theorem leaves_of_leave (aligned : Aligned state context)
    (left : state.leave name = .ok next) : Leaves state context name next := by
  by_cases outside : context.nested = 0
  · obtain ⟨heeding, innermost, whole⟩ := aligned.heeding outside
    have closed : context.step (.end_ name) = { context with stack := context.stack.tail } :=
      if_pos outside
    simp only [leave, heeding] at left
    obtain ⟨reading, finished, rfl⟩ := map_eq_ok_iff.mp left
    have kept := stack_of_finish finished
    refine ⟨?_, ?_⟩
    · rw [closed]
      refine ⟨⟨[], outside.symm, ?_⟩, ?_⟩
      · rw [List.nil_append, kept, innermost]
      · rw [if_pos outside]
    · rw [if_pos outside, closed, whole, Reading.leave, finished, seen_of_stack]
      rw [kept, innermost]
  · have closed : context.step (.end_ name) = { context with nested := context.nested - 1 } :=
      if_neg outside
    have depth := aligned.depth
    rw [if_neg outside] at depth
    obtain ⟨above, length, stack⟩ := aligned.stack
    simp only [leave, depth] at left
    cases left
    have popped : state.stack.tail = above.tail ++ context.stack := by
      cases above with
      | nil => exact absurd length.symm outside
      | cons top rest => rw [stack, List.cons_append, List.tail_cons, List.tail_cons]
    refine ⟨?_, ?_⟩
    · rw [closed]
      refine ⟨⟨above.tail, ?_, popped⟩, ?_⟩
      · rw [List.length_tail, length]
      · simp only [popped, List.length_append, List.length_tail, length]
        split <;> split <;> simp <;> omega
    · rw [if_neg outside, closed]
      rfl

structure Follows (state : ReaderState) (context : Context) (event : Event) (next : ReaderState) :
    Prop where
  aligned : Aligned next (context.step event)
  seen : if context.shows event then
      (state.seen context).read event = .ok (next.seen (context.step event))
    else next.seen (context.step event) = state.seen context

theorem follows_empty {event : List AttributeEvent} (aligned : Aligned state context)
    (read : state.read (.empty name event) = .ok next) :
    Follows state context (.empty name event) next := by
  obtain ⟨entered, enter, leave⟩ := bind_eq_ok_iff.mp read
  have enters := enters_of_enter aligned enter
  have leaves := leaves_of_leave enters.aligned leave
  have aligned' := leaves.aligned
  have entering := enters.seen
  have leaving := leaves.seen
  by_cases ignored : context.ignores name
  · have opened : context.step (.start name event) =
        { context with nested := context.nested + 1 } := if_pos ignored
    have back : Context.step { context with nested := context.nested + 1 } (.end_ name) =
        context := rfl
    have hidden : ¬ context.shows (.empty name event) = true := by simp [Context.shows, ignored]
    rw [opened, back] at aligned' leaving
    rw [if_pos ignored, opened] at entering
    rw [if_neg (Nat.succ_ne_zero _)] at leaving
    refine ⟨aligned', ?_⟩
    rw [if_neg hidden]
    exact leaving.trans entering
  · have opened : context.step (.start name event) =
        { context with stack := name :: context.stack } := if_neg ignored
    have outside : context.nested = 0 := Decidable.not_not.mp fun nested => ignored (.inl nested)
    have back : Context.step { context with stack := name :: context.stack } (.end_ name) =
        context := if_pos outside
    have shown : context.shows (.empty name event) = true := by simp [Context.shows, ignored]
    rw [opened, back] at aligned' leaving
    rw [if_neg ignored, opened] at entering
    rw [if_pos outside] at leaving
    refine ⟨aligned', ?_⟩
    rw [if_pos shown, Reading.read, entering]
    exact leaving

theorem follows_text {value : String} (aligned : Aligned state context)
    (read : state.read (.text value) = .ok next) : Follows state context (.text value) next := by
  obtain ⟨charged, budget, append⟩ := bind_eq_ok_iff.mp read
  have same := alike_of_charge budget
  by_cases outside : context.nested = 0
  · obtain ⟨heeding, innermost, whole⟩ := aligned.heeding outside
    have shown : context.shows (.text value) = true := by simp [Context.shows, outside]
    have depth := same.depth.trans heeding
    rw [appendUnlessIgnored, depth, if_neg (by decide)] at append
    obtain ⟨reading, appended, rfl⟩ := map_eq_ok_iff.mp append
    rw [same.reading] at appended
    have kept : reading.stack = state.stack := by
      have safe := safe_appendText state.toReading value
      rw [appended] at safe
      exact safe.2.2.2
    refine ⟨aligned.of_reading kept heeding.symm, ?_⟩
    rw [if_pos shown, whole, Reading.read, appended]
    refine congrArg Except.ok (Eq.symm ?_)
    exact seen_of_stack (kept.trans innermost)
  · have hidden : ¬ context.shows (.text value) = true := by simp [Context.shows, outside]
    have depth := aligned.depth
    rw [if_neg outside] at depth
    rw [appendUnlessIgnored, same.depth, depth, Option.isSome_some, if_pos rfl] at append
    cases append
    refine ⟨aligned.of_reading (congrArg Reading.stack same.reading) same.depth, ?_⟩
    rw [if_neg hidden]
    exact congrArg (fun reading : Reading => { reading with stack := context.stack }) same.reading

theorem follows_idle {event : Event} (aligned : Aligned state context)
    (stays : context.step event = context)
    (idle : (state.seen context).read event = .ok (state.seen context)) :
    Follows state context event state := by
  refine ⟨by rw [stays]; exact aligned, ?_⟩
  rw [stays, idle]
  split <;> rfl

theorem follows_read {event : Event} (aligned : Aligned state context)
    (read : state.read event = .ok next) : Follows state context event next := by
  cases event with
  | start name attributes =>
    have enters := enters_of_enter aligned read
    refine ⟨enters.aligned, ?_⟩
    have seen := enters.seen
    by_cases ignored : context.ignores name
    · rw [if_pos ignored] at seen
      rw [if_neg (by simp [Context.shows, ignored])]
      exact seen
    · rw [if_neg ignored] at seen
      rw [if_pos (by simp [Context.shows, ignored])]
      exact seen
  | empty name attributes => exact follows_empty aligned read
  | end_ name =>
    simp only [ReaderState.read] at read
    split at read
    · have leaves := leaves_of_leave aligned read
      refine ⟨leaves.aligned, ?_⟩
      have seen := leaves.seen
      by_cases outside : context.nested = 0
      · rw [if_pos outside] at seen
        rw [if_pos (by simp [Context.shows, outside])]
        exact seen
      · rw [if_neg outside] at seen
        rw [if_neg (by simp [Context.shows, outside])]
        exact seen
    · cases read
  | text value => exact follows_text aligned read
  | docType internal =>
    cases internal with
    | true => cases read
    | false =>
      cases read
      exact follows_idle aligned rfl rfl
  | declaration encoding =>
    simp only [ReaderState.read] at read
    split at read
    · cases read
      exact follows_idle aligned rfl rfl
    · split at read
      · cases read
        exact follows_idle aligned rfl rfl
      · cases read
  | comment =>
    cases read
    exact follows_idle aligned rfl rfl
  | processingInstruction => cases read
  | failed message => cases read

theorem follows_run {events : List Event} (aligned : Aligned state context)
    (read : events.foldlM ReaderState.read state = .ok next) :
    Aligned next (events.foldl Context.step context) ∧
      (visible events context).foldlM Reading.read (state.seen context) =
        .ok (next.seen (events.foldl Context.step context)) := by
  induction events generalizing state context with
  | nil =>
    cases read
    exact ⟨aligned, rfl⟩
  | cons event rest ih =>
    rw [List.foldlM_cons] at read
    obtain ⟨middle, first, behind⟩ := bind_eq_ok_iff.mp read
    have follows := follows_read aligned first
    obtain ⟨ends, run⟩ := ih follows.aligned behind
    refine ⟨ends, ?_⟩
    have seen := follows.seen
    rw [visible, List.foldl_cons]
    split at seen
    next shown =>
      rw [if_pos shown, List.foldlM_cons, seen]
      exact run
    next hidden =>
      rw [if_neg hidden, ← seen]
      exact run

theorem exists_reading_of_parse {size maxEstimatedBytes : Nat} {events : List Event}
    {lexicon : RawWordnet} (parsed : parse size maxEstimatedBytes events = .ok lexicon) :
    ∃ reading, (visible events {}).foldlM Reading.read {} = .ok reading ∧
      lexicon.metadata = reading.metadata ∧ lexicon.entries = reading.entries ∧
      lexicon.synsets = reading.synsets := by
  obtain ⟨start, started, rest⟩ := bind_eq_ok_iff.mp parsed
  obtain ⟨final, run, completed⟩ := bind_eq_ok_iff.mp rest
  obtain ⟨budget, -, rfl⟩ := map_eq_ok_iff.mp started
  have aligned : Aligned { budget } {} := ⟨⟨[], rfl, rfl⟩, rfl⟩
  obtain ⟨-, reads⟩ := follows_run aligned run
  simp only [complete, invalid] at completed
  split at completed
  · cases completed
  · cases completed
    exact ⟨_, reads, rfl, rfl, rfl⟩

end ReaderState

/-- The reader of a lexicon never panics, holds each part exactly while its element is open, and
makes the same of two documents that differ by what it ignores. -/
theorem reader_safe_and_blind :
    (∀ (size maxEstimatedBytes : Nat) (events : List Event) (message : String),
      parse size maxEstimatedBytes events ≠ .error (.panicked message)) ∧
    (∀ (size maxEstimatedBytes : Nat) (events : List Event) (start state : ReaderState),
      startReading size maxEstimatedBytes = .ok start →
      events.foldlM ReaderState.read start = .ok state →
      (state.entry.isSome ↔ "LexicalEntry" ∈ state.live) ∧
        (state.sense.isSome ↔ "Sense" ∈ state.live) ∧
        (state.synset.isSome ↔ "Synset" ∈ state.live)) ∧
    ∀ (first second : List Event), DifferByIgnored first second →
      ∀ (size size' maxEstimatedBytes maxEstimatedBytes' : Nat) (lexicon lexicon' : RawWordnet),
      parse size maxEstimatedBytes first = .ok lexicon →
      parse size' maxEstimatedBytes' second = .ok lexicon' →
      lexicon.metadata = lexicon'.metadata ∧ lexicon.entries = lexicon'.entries ∧
        lexicon.synsets = lexicon'.synsets := by
  refine ⟨ReaderState.parse_ne_panicked, ?_, ?_⟩
  · intro size maxEstimatedBytes events start state started run
    have sound := ReaderState.sound_of_run started run
    exact ⟨sound.building.entry, sound.building.sense, sound.building.synset⟩
  · intro first second differ size size' limit limit' lexicon lexicon' parsed parsed'
    obtain ⟨reading, reads, metadata, entries, synsets⟩ :=
      ReaderState.exists_reading_of_parse parsed
    obtain ⟨reading', reads', metadata', entries', synsets'⟩ :=
      ReaderState.exists_reading_of_parse parsed'
    rw [visible_of_differByIgnored differ, reads', Except.ok.injEq] at reads
    subst reads
    exact ⟨metadata.trans metadata'.symm, entries.trans entries'.symm,
      synsets.trans synsets'.symm⟩

def tideDocument (asides : List Event) : List Event :=
  [.start "LexicalResource" [], .start "Lexicon" [.ok ("id", .ok "sea")],
    .start "LexicalEntry" [.ok ("id", .ok "tide")],
    .empty "Lemma" [.ok ("writtenForm", .ok "tide"), .ok ("partOfSpeech", .ok "n")],
    .end_ "LexicalEntry"] ++ asides ++ [.end_ "Lexicon", .end_ "LexicalResource"]

def tideAside : List Event :=
  .start "Note" [] :: [.start "Sense" [], .text "ebb", .end_ "Sense"] ++ [.end_ "Note"]

theorem tideAside_ignored : AddsIgnored (tideDocument tideAside) (tideDocument []) := by
  have within : Complete [.start "Sense" [], .text "ebb", .end_ "Sense"] :=
    .element "Sense" [] (.text "ebb" .nil) .nil
  refine .mk _ [.end_ "Lexicon", .end_ "LexicalResource"] (.element [] within) ?_
  decide

theorem reader_safe_and_blind_tide :
    ∃ lexicon lexicon' state, parse 0 2097152 (tideDocument tideAside) = .ok lexicon ∧
      parse 0 2097152 (tideDocument []) = .ok lexicon' ∧ lexicon.entries = lexicon'.entries ∧
      (startReading 0 2097152 >>= fun start =>
        ((tideDocument []).take 3).foldlM ReaderState.read start) = .ok state ∧
      state.entry.isSome ∧ ¬ state.sense.isSome := by
  obtain ⟨lexicon, parsed⟩ : ∃ lexicon, parse 0 2097152 (tideDocument tideAside) = .ok lexicon :=
    isOk_iff.mp (by decide)
  obtain ⟨lexicon', parsed'⟩ : ∃ lexicon, parse 0 2097152 (tideDocument []) = .ok lexicon :=
    isOk_iff.mp (by decide)
  have entering : (startReading 0 2097152 >>= fun start =>
      ((tideDocument []).take 3).foldlM ReaderState.read start).map ReaderState.live =
        .ok ["LexicalEntry", "Lexicon", "LexicalResource"] := by
    decide
  obtain ⟨state, reached, live⟩ := map_eq_ok_iff.mp entering
  obtain ⟨start, started, run⟩ := bind_eq_ok_iff.mp reached
  obtain ⟨-, held, blind⟩ := reader_safe_and_blind
  obtain ⟨entry, sense, -⟩ := held _ _ _ _ _ started run
  obtain ⟨-, entries, -⟩ := blind _ _ (.rel _ _ tideAside_ignored) _ _ _ _ _ _ parsed parsed'
  rw [live] at entry sense
  refine ⟨lexicon, lexicon', state, parsed, parsed', entries, reached, ?_, ?_⟩
  · exact entry.mpr (by decide)
  · exact fun there => absurd (sense.mp there) (by decide)

end KnotEditor.Wordnet
