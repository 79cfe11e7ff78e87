import KnotEditor.Wordnet.Parser

/-! The reader never panics: the parts it builds are there exactly while their elements are open. -/

namespace KnotEditor.Wordnet

section Safe

variable {α β : Type}

def Safe (good : α → Prop) : Except ImportError α → Prop
  | .ok value => good value
  | .error (.invalid _) => True
  | .error (.panicked _) => False

theorem Safe.bind {good : β → Prop} {middle : α → Prop} {first : Except ImportError α}
    {next : α → Except ImportError β} (start : Safe middle first)
    (rest : ∀ value, middle value → Safe good (next value)) : Safe good (first >>= next) := by
  cases first with
  | ok value => exact rest value start
  | error error =>
    cases error with
    | invalid message => exact trivial
    | panicked message => exact start

theorem Safe.imp {good better : α → Prop} {result : Except ImportError α} (safe : Safe good result)
    (implies : ∀ value, good value → better value) : Safe better result := by
  cases result with
  | ok value => exact implies value safe
  | error error =>
    cases error with
    | invalid message => exact trivial
    | panicked message => exact safe

theorem Safe.map {good : β → Prop} {middle : α → Prop} {first : Except ImportError α}
    {change : α → β} (start : Safe middle first) (rest : ∀ value, middle value → good (change value)) :
    Safe good (first.map change) := by
  cases first with
  | ok value => exact rest value start
  | error error =>
    cases error with
    | invalid message => exact trivial
    | panicked message => exact start

theorem Safe.refuse {good : β → Prop} {condition : Prop} [Decidable condition] {message : String}
    {next : α → Except ImportError β} {rest : Except ImportError β}
    (safe : ¬ condition → Safe good rest) :
    Safe good (if condition then (invalid message >>= next) else rest) := by
  split
  · exact trivial
  next passes => exact safe passes

theorem Safe.invalidIf {good : α → Prop} {condition : Prop} [Decidable condition]
    {message : String} {rest : Except ImportError α} (safe : ¬ condition → Safe good rest) :
    Safe good (if condition then invalid message else rest) := by
  split
  · exact trivial
  next passes => exact safe passes

theorem safe_expect {value : Option α} {message : String} (present : value.isSome) :
    Safe (fun held => value = some held) (expect value message) := by
  cases value with
  | none => cases present
  | some held => exact rfl

theorem safe_charge (budget : MemoryBudget) (bytes : Nat) :
    Safe (fun _ => True) (budget.charge bytes) := by
  unfold MemoryBudget.charge
  apply Safe.invalidIf
  intro fits
  apply Safe.invalidIf
  intro within
  exact trivial

theorem safe_required (attributes : Attributes) (name : String) :
    Safe (fun _ => True) (required attributes name) := by
  unfold required
  split <;> exact trivial

theorem safe_count (counts : Counts) (key : String) : Safe (fun _ => True) (count counts key) := by
  unfold count
  apply Safe.invalidIf
  intro fits
  exact trivial

theorem safe_readAttribute (values : Attributes) (event : AttributeEvent) :
    Safe (fun _ => True) (readAttribute values event) := by
  cases event with
  | error message => exact trivial
  | ok pair =>
    obtain ⟨name, decoded⟩ := pair
    simp only [readAttribute]
    apply Safe.invalidIf
    intro short
    cases decoded with
    | error message => exact trivial
    | ok value =>
      apply Safe.invalidIf
      intro reference
      apply Safe.invalidIf
      intro bounded
      apply Safe.invalidIf
      intro fresh
      exact trivial

theorem safe_foldlM {step : β → α → Except ImportError β} {good : β → Prop}
    (each : ∀ state item, good state → Safe good (step state item)) (items : List α) (start : β)
    (first : good start) : Safe good (items.foldlM step start) := by
  induction items generalizing start with
  | nil => exact first
  | cons item rest ih =>
    rw [List.foldlM_cons]
    exact (each start item first).bind fun next => ih next

theorem safe_attributes (event : List AttributeEvent) : Safe (fun _ => True) (attributes event) :=
  safe_foldlM (fun values item _ => safe_readAttribute values item) event ∅ trivial

theorem safe_rawRelation (attributes : Attributes) :
    Safe (fun _ => True) (rawRelation attributes) := by
  unfold rawRelation
  refine (safe_required attributes "relType").bind fun kind _ => ?_
  exact (safe_required attributes "target").bind fun target _ => trivial

end Safe

def legalChains : List (List String) :=
  let lexicon := ["Lexicon", "LexicalResource"]
  let entry := "LexicalEntry" :: lexicon
  let synset := "Synset" :: lexicon
  [[], ["LexicalResource"], lexicon, entry, "Lemma" :: entry, "Pronunciation" :: "Lemma" :: entry,
    "Sense" :: entry, "SenseRelation" :: "Sense" :: entry, "Example" :: "Sense" :: entry, synset,
    "SynsetRelation" :: synset, "Definition" :: synset, "Example" :: synset]

structure Building (reading : Reading) (live : List String) : Prop where
  legal : live ∈ legalChains
  entry : reading.entry.isSome ↔ "LexicalEntry" ∈ live
  sense : reading.sense.isSome ↔ "Sense" ∈ live
  synset : reading.synset.isSome ↔ "Synset" ∈ live

def Placement.Fits (placement : Placement) (name : String) (parent : Option String) : Prop :=
  match placement with
  | .resource => name = "LexicalResource" ∧ parent = none
  | .lexicon => name = "Lexicon" ∧ parent = some "LexicalResource"
  | .entry => name = "LexicalEntry" ∧ parent = some "Lexicon"
  | .lemma_ => name = "Lemma" ∧ parent = some "LexicalEntry"
  | .sense => name = "Sense" ∧ parent = some "LexicalEntry"
  | .synset => name = "Synset" ∧ parent = some "Lexicon"
  | .senseRelation => name = "SenseRelation" ∧ parent = some "Sense"
  | .synsetRelation => name = "SynsetRelation" ∧ parent = some "Synset"
  | .definition => name = "Definition" ∧ parent = some "Synset"
  | .sample => name = "Example" ∧ (parent = some "Sense" ∨ parent = some "Synset")
  | .pronunciation => name = "Pronunciation" ∧ parent = some "Lemma"
  | .external | .misplaced | .unsupported | .ignored => True

theorem fits_ite {name : String} {parent : Option String} {condition : Prop}
    [Decidable condition] {placement rest : Placement} (here : condition → placement.Fits name parent)
    (other : rest.Fits name parent) :
    (if condition then placement else rest).Fits name parent := by
  split
  next holds => exact here holds
  · exact other

theorem fits_classify (name : String) (parent : Option String) :
    (classify name parent).Fits name parent := by
  unfold classify
  refine fits_ite id <| fits_ite id <| fits_ite id <| fits_ite id <| fits_ite id <| fits_ite id <|
    fits_ite id <| fits_ite id <| fits_ite id <| fits_ite id <| fits_ite id ?_
  refine fits_ite ?_ <| fits_ite ?_ <| fits_ite ?_ ?_ <;> intros <;> exact trivial

def openings : List (String × Option String) :=
  [("LexicalResource", none), ("Lexicon", some "LexicalResource"), ("LexicalEntry", some "Lexicon"),
    ("Lemma", some "LexicalEntry"), ("Sense", some "LexicalEntry"), ("Synset", some "Lexicon"),
    ("SenseRelation", some "Sense"), ("SynsetRelation", some "Synset"),
    ("Definition", some "Synset"), ("Example", some "Sense"), ("Example", some "Synset"),
    ("Pronunciation", some "Lemma")]

def Placement.isLexical : Placement → Bool
  | .external | .misplaced | .unsupported | .ignored => false
  | _ => true

theorem mem_openings {placement : Placement} {name : String} {parent : Option String}
    (fits : placement.Fits name parent) (lexical : placement.isLexical = true) :
    (name, parent) ∈ openings := by
  cases placement with
  | external | misplaced | unsupported | ignored => cases lexical
  | sample =>
    obtain ⟨rfl, rfl | rfl⟩ := fits <;> decide
  | _ =>
    obtain ⟨rfl, rfl⟩ := fits
    decide

theorem opens_chain : ∀ chain ∈ legalChains, ∀ opening ∈ openings, chain.head? = opening.2 →
    opening.1 :: chain ∈ legalChains := by decide

theorem legal_cons {name : String} {live : List String} (legal : live ∈ legalChains)
    (lexical : (classify name live.head?).isLexical = true) : name :: live ∈ legalChains :=
  opens_chain live legal (name, live.head?)
    (mem_openings (fits_classify name live.head?) lexical) rfl

section Elements

variable {reading next : Reading} {live : List String} {name : String}

theorem Building.of_parts (building : Building reading live) (entry : next.entry = reading.entry)
    (sense : next.sense = reading.sense) (synset : next.synset = reading.synset) :
    Building next live :=
  ⟨building.legal, entry ▸ building.entry, sense ▸ building.sense, synset ▸ building.synset⟩

theorem Building.push (building : Building reading live)
    (lexical : (classify name live.head?).isLexical = true)
    (entry : next.entry.isSome = (name = "LexicalEntry" || reading.entry.isSome))
    (sense : next.sense.isSome = (name = "Sense" || reading.sense.isSome))
    (synset : next.synset.isSome = (name = "Synset" || reading.synset.isSome)) :
    Building next (name :: live) where
  legal := legal_cons building.legal lexical
  entry := by
    rw [entry, List.mem_cons, Bool.or_eq_true, decide_eq_true_eq, building.entry,
      eq_comm (a := name)]
  sense := by
    rw [sense, List.mem_cons, Bool.or_eq_true, decide_eq_true_eq, building.sense,
      eq_comm (a := name)]
  synset := by
    rw [synset, List.mem_cons, Bool.or_eq_true, decide_eq_true_eq, building.synset,
      eq_comm (a := name)]

structure Begun (reading : Reading) (live : List String) (name : String) (next : Reading) :
    Prop where
  stack : next.stack = reading.stack
  outcome : classify name live.head? ≠ .ignored ∧ Building next (name :: live) ∨
    classify name live.head? = .ignored ∧ next = reading

theorem safe_begin (building : Building reading live) (name : String) (attributes : Attributes) :
    Safe (Begun reading live name)
      (reading.begin name attributes (classify name live.head?)) := by
  have fits := fits_classify name live.head?
  have push : ∀ next : Reading, (classify name live.head?).isLexical = true →
      next.stack = reading.stack →
      next.entry.isSome = (name = "LexicalEntry" || reading.entry.isSome) →
      next.sense.isSome = (name = "Sense" || reading.sense.isSome) →
      next.synset.isSome = (name = "Synset" || reading.synset.isSome) →
      Begun reading live name next := by
    intro next lexical stack entry sense synset
    refine ⟨stack, .inl ⟨?_, building.push lexical entry sense synset⟩⟩
    intro ignored
    rw [ignored] at lexical
    cases lexical
  have open_ : ∀ parent, live.head? = some parent → parent ∈ live := fun parent head =>
    List.mem_of_mem_head? head
  cases placed : classify name live.head? with
  | resource =>
    rw [placed] at fits push
    simp only [Reading.begin]
    apply Safe.invalidIf
    intro first
    exact push _ rfl rfl (by simp [fits.1]) (by simp [fits.1]) (by simp [fits.1])
  | lexicon =>
    rw [placed] at fits push
    simp only [Reading.begin]
    apply Safe.invalidIf
    intro first
    exact push _ rfl rfl (by simp [fits.1]) (by simp [fits.1]) (by simp [fits.1])
  | entry =>
    rw [placed] at fits push
    refine (safe_required attributes "id").bind fun id _ => ?_
    exact push _ rfl rfl (by simp [fits.1]) (by simp [fits.1]) (by simp [fits.1])
  | lemma_ =>
    rw [placed] at fits push
    have there := building.entry.mpr (open_ _ fits.2)
    refine (safe_expect there).bind fun current held => ?_
    apply Safe.refuse
    intro fresh
    refine (safe_required attributes "writtenForm").bind fun lemma_ _ => ?_
    refine (safe_required attributes "partOfSpeech").bind fun pos _ => ?_
    exact push _ rfl rfl (by simp [fits.1, there]) (by simp [fits.1]) (by simp [fits.1])
  | sense =>
    rw [placed] at fits push
    refine (safe_required attributes "id").bind fun id _ => ?_
    refine (safe_required attributes "synset").bind fun synset _ => ?_
    apply Safe.refuse
    intro few
    exact push _ rfl rfl (by simp [fits.1]) (by simp [fits.1]) (by simp [fits.1])
  | synset =>
    rw [placed] at fits push
    refine (safe_required attributes "id").bind fun id _ => ?_
    exact push _ rfl rfl (by simp [fits.1]) (by simp [fits.1]) (by simp [fits.1])
  | senseRelation =>
    rw [placed] at fits push
    have there := building.sense.mpr (open_ _ fits.2)
    refine (safe_expect there).bind fun current held => ?_
    refine (safe_rawRelation attributes).bind fun relation _ => ?_
    exact push _ rfl rfl (by simp [fits.1]) (by simp [fits.1, there]) (by simp [fits.1])
  | synsetRelation =>
    rw [placed] at fits push
    have there := building.synset.mpr (open_ _ fits.2)
    refine (safe_expect there).bind fun current held => ?_
    refine (safe_rawRelation attributes).bind fun relation _ => ?_
    exact push _ rfl rfl (by simp [fits.1]) (by simp [fits.1]) (by simp [fits.1, there])
  | definition =>
    rw [placed] at fits push
    exact push _ rfl rfl (by simp [fits.1]) (by simp [fits.1]) (by simp [fits.1])
  | sample =>
    rw [placed] at fits push
    exact push _ rfl rfl (by simp [fits.1]) (by simp [fits.1]) (by simp [fits.1])
  | pronunciation =>
    rw [placed] at fits push
    exact push _ rfl rfl (by simp [fits.1]) (by simp [fits.1]) (by simp [fits.1])
  | external => exact trivial
  | misplaced => exact trivial
  | unsupported => exact trivial
  | ignored => exact ⟨rfl, .inr ⟨placed, rfl⟩⟩

theorem legal_tail : ∀ chain ∈ legalChains, chain.tail ∈ legalChains ∧ chain.Nodup := by
  decide

theorem held_around : ∀ chain ∈ legalChains,
    (chain.head? = some "Sense" → "LexicalEntry" ∈ chain) ∧
      (chain.head? = some "Definition" → "Synset" ∈ chain) ∧
      (chain.head? = some "Example" → "Sense" ∈ chain ∨ "Synset" ∈ chain) ∧
      (chain.head? = some "Pronunciation" → "LexicalEntry" ∈ chain) := by
  decide

theorem mem_rest {part : String} (once : (name :: live).Nodup) :
    part ∈ live ↔ name ≠ part ∧ part ∈ name :: live := by
  rw [List.nodup_cons] at once
  constructor
  · intro inside
    exact ⟨fun same => once.1 (same ▸ inside), List.mem_cons_of_mem _ inside⟩
  · rintro ⟨differs, inside⟩
    exact (List.mem_cons.mp inside).resolve_left differs.symm

theorem Building.pop (building : Building reading (name :: live))
    (entry : next.entry.isSome = (name ≠ "LexicalEntry" && reading.entry.isSome))
    (sense : next.sense.isSome = (name ≠ "Sense" && reading.sense.isSome))
    (synset : next.synset.isSome = (name ≠ "Synset" && reading.synset.isSome)) :
    Building next live := by
  obtain ⟨legal, once⟩ := legal_tail _ building.legal
  refine ⟨legal, ?_, ?_, ?_⟩
  · rw [entry, Bool.and_eq_true, decide_eq_true_eq, building.entry, mem_rest once]
  · rw [sense, Bool.and_eq_true, decide_eq_true_eq, building.sense, mem_rest once]
  · rw [synset, Bool.and_eq_true, decide_eq_true_eq, building.synset, mem_rest once]

structure Finished (reading : Reading) (live : List String) (next : Reading) : Prop where
  stack : next.stack = reading.stack
  building : Building next live

theorem safe_finish (building : Building reading (name :: live)) :
    Safe (Finished reading live) (reading.finish name) := by
  obtain ⟨inEntry, inSynset, inEither, inEntry'⟩ := held_around _ building.legal
  unfold Reading.finish
  split
  next same =>
    subst same
    have there := building.entry.mpr List.mem_cons_self
    refine (safe_expect there).bind fun value held => ?_
    apply Safe.refuse
    intro named
    apply Safe.refuse
    intro few
    exact ⟨rfl, building.pop (by simp) (by simp) (by simp)⟩
  next notEntry =>
    split
    next same =>
      subst same
      have around := building.entry.mpr (inEntry rfl)
      have there := building.sense.mpr List.mem_cons_self
      refine (safe_expect around).bind fun current _ => ?_
      refine (safe_expect there).bind fun value _ => ?_
      exact ⟨rfl, building.pop (by simp [around]) (by simp) (by simp)⟩
    next notSense =>
      split
      next same =>
        subst same
        have there := building.synset.mpr List.mem_cons_self
        refine (safe_expect there).bind fun value _ => ?_
        apply Safe.refuse
        intro fresh
        apply Safe.refuse
        intro few
        exact ⟨rfl, building.pop (by simp) (by simp) (by simp)⟩
      next notSynset =>
        split
        next same =>
          subst same
          have around := building.synset.mpr (inSynset rfl)
          refine (safe_expect around).bind fun current _ => ?_
          exact ⟨rfl, building.pop (by simp) (by simp) (by simp [around])⟩
        · split
          next same =>
            subst same
            split
            next current held =>
              exact ⟨rfl, building.pop (by simp) (by simp [held]) (by simp)⟩
            next absent =>
              have around := building.synset.mpr ((inEither rfl).resolve_left fun inside =>
                by simpa [absent] using building.sense.mpr inside)
              refine (safe_expect around).bind fun current _ => ?_
              exact ⟨rfl, building.pop (by simp) (by simp) (by simp [around])⟩
          · split
            next same =>
              subst same
              have around := building.entry.mpr (inEntry' rfl)
              refine (safe_expect around).bind fun current _ => ?_
              exact ⟨rfl, building.pop (by simp [around]) (by simp) (by simp)⟩
            · exact ⟨rfl, building.pop (by simp [notEntry]) (by simp [notSense])
                (by simp [notSynset])⟩

end Elements

namespace ReaderState

def live (state : ReaderState) : List String :=
  match state.ignoredDepth with
  | none => state.stack
  | some depth => state.stack.drop (state.stack.length - depth)

structure Sound (state : ReaderState) : Prop where
  building : Building state.toReading state.live
  inside : ∀ depth ∈ state.ignoredDepth, depth < state.stack.length

structure Alike (state next : ReaderState) : Prop where
  reading : next.toReading = state.toReading
  depth : next.ignoredDepth = state.ignoredDepth

variable {state : ReaderState}

theorem safe_charge (bytes : Nat) : Safe (Alike state) (state.charge bytes) :=
  (Wordnet.safe_charge state.budget bytes).map fun _ _ => ⟨rfl, rfl⟩

theorem safe_chargePlacement (placement : Placement) :
    Safe (Alike state) (state.chargePlacement placement) := by
  unfold chargePlacement
  split
  · exact safe_charge _
  · exact ⟨rfl, rfl⟩

theorem safe_countAttributes (placement : Placement) (name : String) (attributes : Attributes) :
    Safe (Alike state) (state.countAttributes placement name attributes) := by
  unfold countAttributes
  refine (safe_foldlM (fun counts key _ => safe_count counts s!"{name}:{key}") _ _ trivial).bind
    fun counts _ => ?_
  exact ⟨rfl, rfl⟩

structure Placed (state : ReaderState) (name : String) (next : ReaderState) : Prop where
  stack : next.stack = state.stack
  outcome : next.ignoredDepth = none ∧ Building next.toReading (name :: state.stack) ∨
    next.ignoredDepth = some state.stack.length ∧ next.toReading = state.toReading

theorem safe_place (building : Building state.toReading state.stack)
    (heeding : state.ignoredDepth = none) (name : String) (attributes : Attributes) :
    Safe (Placed state name) (state.place name attributes) := by
  unfold place
  refine (safe_chargePlacement _).bind fun charged alike => ?_
  rw [alike.reading]
  refine (safe_begin building name attributes).bind fun reading begun => ?_
  have ignoring : Safe (Placed state name)
      (ignoreIf { charged with toReading := reading } (classify name state.stack.head?) name) := by
    unfold ignoreIf
    split
    next ignored =>
      refine (safe_count charged.ignoredElements name).map fun counts _ => ?_
      have same := (begun.outcome.resolve_left fun other => other.1 ignored).2
      exact ⟨begun.stack, .inr ⟨congrArg (fun stack => some stack.length) begun.stack, same⟩⟩
    next heeded =>
      have built := (begun.outcome.resolve_right fun other => heeded other.1).2
      exact ⟨begun.stack, .inl ⟨alike.depth.trans heeding, built⟩⟩
  refine ignoring.bind fun placed placement => ?_
  refine (safe_countAttributes _ name attributes).imp fun next same => ?_
  exact ⟨by rw [same.reading]; exact placement.stack,
    by rw [same.depth, same.reading]; exact placement.outcome⟩

theorem sound_heeding (heeding : state.ignoredDepth = none)
    (building : Building state.toReading state.stack) : Sound state where
  building := by
    rw [live, heeding]
    exact building
  inside := by simp [heeding]

theorem sound_ignoring {depth : Nat} (ignoring : state.ignoredDepth = some depth)
    (within : depth < state.stack.length)
    (building : Building state.toReading (state.stack.drop (state.stack.length - depth))) :
    Sound state where
  building := by
    rw [live, ignoring]
    exact building
  inside := by
    intro other held
    rw [ignoring] at held
    cases held
    exact within

theorem Sound.heeding (sound : Sound state) (heeding : state.ignoredDepth = none) :
    Building state.toReading state.stack := by
  have building := sound.building
  rwa [live, heeding] at building

theorem Sound.ignoring (sound : Sound state) {depth : Nat}
    (ignoring : state.ignoredDepth = some depth) :
    depth < state.stack.length ∧
      Building state.toReading (state.stack.drop (state.stack.length - depth)) := by
  have building := sound.building
  rw [live, ignoring] at building
  exact ⟨sound.inside depth ignoring, building⟩

structure Entered (state : ReaderState) (name : String) (next : ReaderState) : Prop where
  sound : Sound next
  stack : next.stack = name :: state.stack

theorem safe_enter (sound : Sound state) (name : String) (event : List AttributeEvent) :
    Safe (Entered state name) (state.enter name event) := by
  unfold enter
  apply Safe.refuse
  intro short
  refine (safe_attributes event).bind fun attributes _ => ?_
  refine (safe_charge _).bind fun charged alike => ?_
  apply Safe.refuse
  intro shallow
  have placed : Safe (fun placed : ReaderState => placed.stack = state.stack ∧
      Sound { placed with stack := name :: placed.stack })
      (charged.placeUnlessIgnored name attributes) := by
    have stack : charged.stack = state.stack := congrArg Reading.stack alike.reading
    unfold placeUnlessIgnored
    cases depth : state.ignoredDepth with
    | none =>
      have building : Building charged.toReading charged.stack := by
        rw [alike.reading]
        exact sound.heeding depth
      rw [alike.depth, depth]
      refine (safe_place building (alike.depth.trans depth) name attributes).imp
        fun placed placement => ⟨placement.stack.trans stack, ?_⟩
      rcases placement.outcome with ⟨heeding, built⟩ | ⟨ignoring, same⟩
      · refine sound_heeding heeding ?_
        rw [← placement.stack] at built
        exact built.of_parts rfl rfl rfl
      · refine sound_ignoring ignoring ?_ ?_
        · rw [← placement.stack]
          exact Nat.lt_succ_self _
        · rw [List.length_cons, placement.stack, Nat.add_sub_cancel_left]
          have kept : Building placed.toReading charged.stack := by
            rw [same]
            exact building
          exact kept.of_parts rfl rfl rfl
    | some outer =>
      obtain ⟨within, building⟩ := sound.ignoring depth
      rw [alike.depth, depth]
      refine ⟨stack, sound_ignoring (alike.depth.trans depth) ?_ ?_⟩
      · rw [stack, List.length_cons]
        omega
      · rw [List.length_cons, stack, show state.stack.length + 1 - outer =
          (state.stack.length - outer) + 1 by omega, List.drop_succ_cons]
        rw [← alike.reading, stack] at building
        exact building.of_parts rfl rfl rfl
  refine placed.bind fun placed outcome => ?_
  apply Safe.refuse
  intro few
  exact ⟨outcome.2, congrArg (List.cons name) outcome.1⟩

theorem safe_leave (sound : Sound state) {name : String} (innermost : state.stack.head? = some name) :
    Safe Sound (state.leave name) := by
  obtain ⟨rest, opened⟩ : ∃ rest, state.stack = name :: rest := by
    cases held : state.stack with
    | nil => simp [held] at innermost
    | cons head rest =>
      rw [held, List.head?_cons, Option.some.injEq] at innermost
      exact ⟨rest, by rw [innermost]⟩
  simp only [leave]
  cases depth : state.ignoredDepth with
  | none =>
    have building := sound.heeding depth
    rw [opened] at building
    have popped : Building { state.toReading with stack := state.stack.tail } (name :: rest) :=
      building.of_parts rfl rfl rfl
    refine (safe_finish popped).map fun reading finished => ?_
    refine sound_heeding rfl ?_
    rw [show reading.stack = rest by rw [finished.stack, opened]; rfl]
    exact finished.building
  | some outer =>
    obtain ⟨within, building⟩ := sound.ignoring depth
    rw [opened, List.length_cons] at within building
    simp only [opened, List.tail_cons]
    by_cases same : outer = rest.length
    · rw [if_pos same]
      refine sound_heeding rfl ?_
      rw [same, Nat.add_sub_cancel_left, List.drop_one, List.tail_cons] at building
      exact building.of_parts rfl rfl rfl
    · rw [if_neg same]
      refine sound_ignoring rfl (by simp only; omega) ?_
      rw [show rest.length + 1 - outer = (rest.length - outer) + 1 by omega,
        List.drop_succ_cons] at building
      exact building.of_parts rfl rfl rfl

theorem safe_appendText (reading : Reading) (value : String) :
    Safe (fun next : Reading => next.entry = reading.entry ∧ next.sense = reading.sense ∧
      next.synset = reading.synset ∧ next.stack = reading.stack) (reading.appendText value) := by
  unfold Reading.appendText
  split
  · apply Safe.invalidIf
    intro short
    exact ⟨rfl, rfl, rfl, rfl⟩
  · split
    · exact ⟨rfl, rfl, rfl, rfl⟩
    · exact trivial

theorem Sound.of_parts {next : ReaderState} (sound : Sound state)
    (depth : next.ignoredDepth = state.ignoredDepth) (stack : next.stack = state.stack)
    (entry : next.entry = state.entry) (sense : next.sense = state.sense)
    (synset : next.synset = state.synset) : Sound next where
  building := by
    rw [live, depth, stack]
    exact sound.building.of_parts entry sense synset
  inside := by
    rw [depth, stack]
    exact sound.inside

theorem safe_readText (sound : Sound state) (value : String) :
    Safe Sound (state.readText value) := by
  unfold readText
  refine (safe_charge _).bind fun charged alike => ?_
  have charged' : Sound charged := sound.of_parts alike.depth (congrArg Reading.stack alike.reading)
    (congrArg Reading.entry alike.reading) (congrArg Reading.sense alike.reading)
    (congrArg Reading.synset alike.reading)
  unfold appendUnlessIgnored
  split
  · exact charged'
  · refine (safe_appendText charged.toReading value).map fun reading same => ?_
    exact charged'.of_parts rfl same.2.2.2 same.1 same.2.1 same.2.2.1

theorem safe_read (sound : Sound state) (event : Event) : Safe Sound (state.read event) := by
  cases event with
  | start name attributes =>
    exact (safe_enter sound name attributes).imp fun next entered => entered.sound
  | empty name attributes =>
    refine (safe_enter sound name attributes).bind fun next entered => ?_
    exact safe_leave entered.sound (by rw [entered.stack]; rfl)
  | end_ name =>
    simp only [read]
    split
    next innermost => exact safe_leave sound innermost
    · exact trivial
  | text value => exact safe_readText sound value
  | docType internal =>
    cases internal with
    | true => exact trivial
    | false => exact sound
  | declaration encoding =>
    cases encoding with
    | none => exact sound
    | some encoding =>
      simp only [read]
      split
      · exact sound
      · exact trivial
  | comment => exact sound
  | processingInstruction => exact trivial
  | failed message => exact trivial

-- The bytes of the budget are not to be counted out.
attribute [local irreducible] startReading MemoryBudget.charge

theorem sound_charged (budget : MemoryBudget) (bytes : Nat) :
    Safe Sound ((budget.charge bytes).map fun budget => ({ budget } : ReaderState)) := by
  refine (Wordnet.safe_charge budget bytes).map fun charged _ => sound_heeding rfl ?_
  exact ⟨List.mem_cons_self, by simp, by simp, by simp⟩

theorem sound_startReading (size maxEstimatedBytes : Nat) :
    Safe Sound (startReading size maxEstimatedBytes) := by
  unfold startReading
  exact sound_charged ⟨0, maxEstimatedBytes⟩ (size + 1024 * 1024)

theorem safe_run (sound : Sound state) (events : List Event) :
    Safe Sound (events.foldlM ReaderState.read state) :=
  safe_foldlM (fun _ event sound => safe_read sound event) events state sound

theorem sound_of_run {size maxEstimatedBytes : Nat} {events : List Event} {start : ReaderState}
    (started : startReading size maxEstimatedBytes = .ok start)
    (run : events.foldlM ReaderState.read start = .ok state) : Sound state := by
  have first : Safe Sound (.ok start) := started ▸ sound_startReading size maxEstimatedBytes
  have last := safe_run first events
  rwa [run] at last

theorem safe_complete (state : ReaderState) : Safe (fun _ => True) state.complete := by
  unfold complete
  apply Safe.invalidIf
  intro whole
  exact trivial

theorem safe_parse (size maxEstimatedBytes : Nat) (events : List Event) :
    Safe (fun _ => True) (parse size maxEstimatedBytes events) := by
  unfold parse
  refine (sound_startReading size maxEstimatedBytes).bind fun start sound => ?_
  refine (safe_run sound events).bind fun state _ => ?_
  exact safe_complete state

theorem parse_ne_panicked (size maxEstimatedBytes : Nat) (events : List Event)
    (message : String) : parse size maxEstimatedBytes events ≠ .error (.panicked message) := by
  intro panicked
  have safe := safe_parse size maxEstimatedBytes events
  rw [panicked] at safe
  exact safe

end ReaderState

end KnotEditor.Wordnet
