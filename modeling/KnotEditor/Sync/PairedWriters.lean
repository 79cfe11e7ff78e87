import KnotEditor.PredicateNames

/-! The devices a persona pairs: a list of settings entries that is changed as a map from keys to
routes is, and the file it is kept in, over calls that load, change and save it. -/

namespace KnotEditor

open Fallible

namespace KnotSyncSettings

/-- The entry `find` comes to, with its route replaced. None where it has that route already. -/
def remembered (writer ticket : String) : List PairedWriter → Option (List PairedWriter)
  | [] => none
  | known :: rest =>
    if eqIgnoreAsciiCase known.key writer then
      if known.lastEndpoint = some ticket then none
      else some ({ known with lastEndpoint := some ticket } :: rest)
    else (remembered writer ticket rest).map (known :: ·)

def rememberEndpoint (settings : KnotSyncSettings) (writer : Bytes32) (ticket : String) :
    Bool × KnotSyncSettings :=
  match remembered (hex32 writer) ticket settings.pairedWriters with
  | none => (false, settings)
  | some pairedWriters => (true, { settings with pairedWriters })

end KnotSyncSettings

inductive SettingsCall
  | pair (writer : Bytes32)
  | unpair (writer : Bytes32)
  | rememberEndpoint (writer : Bytes32) (ticket : String)

/-- Who is paired, each with the route it was last reached by. -/
abbrev Pairing := Bytes32 → Option (Option String)

/-- What a call means. -/
def SettingsCall.apply (pairing : Pairing) : SettingsCall → Pairing
  | pair writer => Function.update pairing writer (some ((pairing writer).getD none))
  | unpair writer => Function.update pairing writer none
  | rememberEndpoint writer ticket =>
    Function.update pairing writer ((pairing writer).map fun _ => some ticket)

section keys

variable {key : String} {writer : Bytes32} {text : List Char} {bytes : List UInt8}

theorem hexDigitValue_iff_of_small : ∀ code < 103, ∀ value < 16,
    hexDigitValue (Char.ofNat code) = some value ↔
      (Char.ofNat code).toLower = hexDigit value := by
  decide +kernel

theorem hexDigit_small : ∀ value < 16,
    (hexDigit value).toNat < 103 ∧ isWhitespace (hexDigit value) = false := by
  decide

theorem hexDigitValue_eq_some_iff {character : Char} {value : Nat} :
    hexDigitValue character = some value ↔
      value < 16 ∧ character.toLower = hexDigit value := by
  have small : hexDigitValue character = some value → value < 16 ∧ character.toNat < 103 := by
    intro valued
    simp only [hexDigitValue, Char.le_def, UInt32.le_iff_toNat_le, Char.reduceVal,
      UInt32.reduceToNat, Char.toNat] at valued ⊢
    grind
  have decided : character.toNat < 103 → value < 16 → (hexDigitValue character = some value ↔
      character.toLower = hexDigit value) := by
    intro code within
    have both := hexDigitValue_iff_of_small character.toNat code value within
    rwa [Char.ofNat_toNat] at both
  constructor
  · intro valued
    obtain ⟨within, code⟩ := small valued
    exact ⟨within, (decided code within).mp valued⟩
  · rintro ⟨within, lowered⟩
    have code : character.toNat < 103 := by
      have low := (hexDigit_small value within).1
      rcases toLower_cases character with ⟨_, _, _⟩ | ⟨_, same⟩
      · omega
      · rwa [← same, lowered]
    exact (decided code within).mpr lowered

theorem hexPairs_eq_some_iff :
    hexPairs text = some bytes ↔ text.map Char.toLower = bytes.flatMap hexPair := by
  induction text using hexPairs.induct generalizing bytes with
  | case1 => cases bytes <;> simp [hexPairs, hexPair]
  | case2 => cases bytes <;> simp [hexPairs, hexPair]
  | case3 high low rest ih =>
    cases bytes with
    | nil => simp [hexPairs, Option.bind_eq_some_iff]
    | cons byte bytes =>
      have bound := byte.toNat_lt
      simp only [hexPairs, Option.bind_eq_bind, Option.bind_eq_some_iff, Option.some.injEq,
        List.cons.injEq, ih, hexDigitValue_eq_some_iff, List.map_cons, List.flatMap_cons, hexPair,
        List.cons_append, List.nil_append]
      constructor
      · rintro ⟨one, ⟨small, first⟩, two, ⟨short, second⟩, _, later, rfl, rfl⟩
        have whole : (UInt8.ofNat (one * 16 + two)).toNat = one * 16 + two := by
          rw [UInt8.toNat_ofNat']
          omega
        rw [whole, show (one * 16 + two) / 16 = one by omega,
          show (one * 16 + two) % 16 = two by omega]
        exact ⟨first, second, later⟩
      · rintro ⟨first, second, later⟩
        refine ⟨_, ⟨by omega, first⟩, _, ⟨by omega, second⟩, _, later, ?_, rfl⟩
        rw [show byte.toNat / 16 * 16 + byte.toNat % 16 = byte.toNat by omega, UInt8.ofNat_toNat]

theorem eqIgnoreAsciiCase_hex32 :
    eqIgnoreAsciiCase key (hex32 writer) = true ↔ hexPairs key.toList = some writer.bytes := by
  rw [eqIgnoreAsciiCase, beq_iff_eq, hexPairs_eq_some_iff.mp (hexPairs_hex32 writer),
    hexPairs_eq_some_iff]

theorem parseHex32_eq_ok_iff :
    parseHex32 key = .ok writer ↔ hexPairs (trim key).toList = some writer.bytes := by
  rw [parseHex32]
  constructor
  · intro parsed
    grind
  · intro paired
    simp [paired, writer.size]

theorem trim_of_hexPairs (paired : hexPairs key.toList = some writer.bytes) : trim key = key := by
  have blank : ∀ character ∈ key.toList, isWhitespace character = false := by
    intro character member
    have lowered : character.toLower ∈ (hex32 writer).toList := by
      rw [hex32, String.toList_ofList]
      exact hexPairs_eq_some_iff.mp paired ▸ List.mem_map_of_mem member
    obtain ⟨digit, small, same⟩ := mem_hex32 lowered
    rw [← isWhitespace_toLower, ← same]
    exact (hexDigit_small digit small).2
  have within : ∀ {text : List Char}, (∀ character ∈ text, character ∈ key.toList) →
      text.dropWhile isWhitespace = text := by
    intro text inside
    refine List.dropWhile_eq_self_iff.mpr fun some_ => ?_
    rw [blank _ (inside _ (List.getElem_mem some_))]
    exact Bool.false_ne_true
  rw [trim, within fun _ => id, within fun _ => List.mem_reverse.mp, List.reverse_reverse,
    String.ofList_toList]

end keys

namespace KnotSyncSettings

def perform (settings : KnotSyncSettings) : SettingsCall → Bool × KnotSyncSettings
  | .pair writer => settings.pair writer
  | .unpair writer => settings.unpair writer
  | .rememberEndpoint writer ticket => settings.rememberEndpoint writer ticket

def names (writer : Bytes32) (known : PairedWriter) : Bool :=
  eqIgnoreAsciiCase known.key (hex32 writer)

def listed (entries : List PairedWriter) : Pairing := fun writer =>
  (entries.find? (names writer)).map PairedWriter.lastEndpoint

variable {settings : KnotSyncSettings} {entries next : List PairedWriter}
  {writer other : Bytes32} {known : PairedWriter} {ticket : String}

theorem names_iff : names writer known = true ↔ hexPairs known.key.toList = some writer.bytes :=
  eqIgnoreAsciiCase_hex32

theorem names_hex32 (route : Option String) : names writer ⟨hex32 writer, route⟩ = true :=
  names_iff.mpr (hexPairs_hex32 writer)

theorem names_unique (one : names writer known = true) (two : names other known = true) :
    writer = other := by
  have same := (names_iff.mp one).symm.trans (names_iff.mp two)
  cases writer
  cases other
  simpa using same

theorem listed_cons : listed (known :: entries) writer =
    if names writer known then some known.lastEndpoint else listed entries writer := by
  rw [listed, List.find?_cons]
  cases names writer known <;> rfl

theorem listed_cons_of_names (named : names writer known = true) :
    listed (known :: entries) = Function.update (listed entries) writer (some known.lastEndpoint) := by
  funext other
  rw [listed_cons]
  by_cases same : other = writer
  · rw [same, if_pos named, Function.update_self]
  · rw [if_neg fun also => same (names_unique also named), Function.update_of_ne same]

theorem listed_remembered (writer : Bytes32) (ticket : String) (entries : List PairedWriter) :
    let routed := (listed entries writer).map fun _ => some ticket
    remembered (hex32 writer) ticket entries = none ∧ routed = listed entries writer ∨
      ∃ next, remembered (hex32 writer) ticket entries = some next ∧
        routed ≠ listed entries writer ∧
          listed next = Function.update (listed entries) writer routed ∧
            next.map PairedWriter.key = entries.map PairedWriter.key := by
  induction entries with
  | nil => exact .inl ⟨rfl, rfl⟩
  | cons known rest ih =>
    rw [remembered]
    by_cases named : names writer known = true
    · rw [if_pos (show eqIgnoreAsciiCase known.key (hex32 writer) = true from named),
        listed_cons_of_names named]
      split
      next same => exact .inl ⟨rfl, by simp [same]⟩
      next moved =>
        have renamed : names writer { known with lastEndpoint := some ticket } = true := named
        exact .inr ⟨_, rfl, by simpa using Ne.symm moved, by simp [listed_cons_of_names renamed], rfl⟩
    · rw [if_neg (show ¬eqIgnoreAsciiCase known.key (hex32 writer) = true from named), listed_cons,
        if_neg named]
      rcases ih with ⟨still, same⟩ | ⟨next, found, moved, after, keys⟩
      · exact .inl ⟨by rw [still]; rfl, same⟩
      · refine .inr ⟨known :: next, by rw [found]; rfl, moved, funext fun other => ?_,
          congrArg (known.key :: ·) keys⟩
        rw [listed_cons, after]
        by_cases same : other = writer
        · rw [same, if_neg named, Function.update_self, Function.update_self]
        · rw [Function.update_of_ne same, Function.update_of_ne same, listed_cons]

theorem listed_eq_none_iff :
    listed entries writer = none ↔ ∀ known ∈ entries, ¬names writer known = true := by
  rw [listed, Option.map_eq_none_iff, List.find?_eq_none]

/-- A call does to the list what it means, and answers whether that is a change. -/
theorem listed_perform (settings : KnotSyncSettings) (call : SettingsCall) :
    listed (settings.perform call).2.pairedWriters = call.apply (listed settings.pairedWriters) ∧
      ((settings.perform call).1 = true ↔
        call.apply (listed settings.pairedWriters) ≠ listed settings.pairedWriters) := by
  cases call with
  | pair writer =>
    simp only [perform, pair, SettingsCall.apply, ne_eq, Function.update_eq_self_iff]
    split
    next held =>
      have there : listed settings.pairedWriters writer ≠ none := fun gone => by
        obtain ⟨known, member, named⟩ := List.any_eq_true.mp held
        exact listed_eq_none_iff.mp gone known member named
      obtain ⟨route, same⟩ := Option.ne_none_iff_exists'.mp there
      have kept : some ((listed settings.pairedWriters writer).getD none) =
          listed settings.pairedWriters writer := by rw [same, Option.getD_some]
      rw [kept, Function.update_eq_self]
      simp
    next fresh =>
      have gone : listed settings.pairedWriters writer = none := listed_eq_none_iff.mpr fun known
        member named => fresh (List.any_eq_true.mpr ⟨known, member, named⟩)
      refine ⟨funext fun other => ?_, by simp [gone]⟩
      rw [gone, listed, List.find?_append, Option.map_or]
      by_cases same : other = writer
      · rw [same, Function.update_self, ← listed, gone, Option.none_or, List.find?_singleton,
          names_hex32]
        rfl
      · have apart : names other ⟨hex32 writer, none⟩ = false := by
          simpa using fun also => same (names_unique also (names_hex32 none))
        rw [Function.update_of_ne same, List.find?_singleton, apart]
        exact Option.or_none
  | unpair writer =>
    simp only [perform, unpair, SettingsCall.apply, ne_eq, Function.update_eq_self_iff]
    constructor
    · refine funext fun other => ?_
      rw [listed, List.find?_filter]
      by_cases same : other = writer
      · rw [same, Function.update_self, Option.map_eq_none_iff, List.find?_eq_none]
        intro known _ both
        simp [names] at both
      · rw [Function.update_of_ne same, listed]
        congr 2
        funext known
        cases named : names writer known with
        | false => simp [show eqIgnoreAsciiCase known.key (hex32 writer) = false from named]
        | true =>
          have apart : names other known = false := by
            simpa using fun also => same (names_unique also named)
          simp [apart]
    · rw [bne_iff_ne, ne_eq, List.length_filter_eq_length_iff, eq_comm, listed_eq_none_iff]
      simp [names]
  | rememberEndpoint writer ticket =>
    simp only [perform, rememberEndpoint, SettingsCall.apply, ne_eq, Function.update_eq_self_iff]
    rcases listed_remembered writer ticket settings.pairedWriters with
      ⟨still, same⟩ | ⟨next, found, moved, after, _⟩
    · simp [still, same]
    · simp [found, moved, after]

/-- Whom `from_personal_settings` admits, with the routes it seeds. None where a key is refused. -/
def pairing (settings : KnotSyncSettings) : Option Pairing :=
  settings.pairedWriterKeys.toOption.map fun keys writer =>
    if writer ∈ keys then some (settings.endpointFor writer) else none

def Tidy (settings : KnotSyncSettings) : Prop :=
  ∀ known ∈ settings.pairedWriters, trim known.key = known.key

instance (settings : KnotSyncSettings) : Decidable settings.Tidy :=
  inferInstanceAs (Decidable (∀ known ∈ settings.pairedWriters, trim known.key = known.key))

theorem mem_keys {keys : List Bytes32}
    (parsed : (entries.mapM fun known => parseHex32 known.key) = .ok keys) :
    writer ∈ keys ↔ ∃ known ∈ entries, parseHex32 known.key = .ok writer := by
  have each := mapM_eq_ok_iff.mp parsed
  clear parsed
  induction each with
  | nil => simp
  | cons first rest ih => simp [ih, first, @eq_comm _ writer]

theorem exists_keys (each : ∀ known ∈ entries, ∃ writer, parseHex32 known.key = .ok writer) :
    ∃ keys, (entries.mapM fun known => parseHex32 known.key) = .ok keys := by
  induction entries with
  | nil => exact ⟨[], rfl⟩
  | cons known rest ih =>
    obtain ⟨key, first⟩ := each known List.mem_cons_self
    obtain ⟨keys, later⟩ := ih fun other member => each other (List.mem_cons_of_mem known member)
    exact ⟨key :: keys, by simp [List.mapM_cons, first, later, bind, Except.bind, pure, Except.pure]⟩

theorem endpointFor_eq :
    settings.endpointFor writer = (listed settings.pairedWriters writer).getD none := by
  rw [listed, endpointFor, show (fun known : PairedWriter => eqIgnoreAsciiCase known.key
    (hex32 writer)) = names writer from rfl]
  cases settings.pairedWriters.find? (names writer) <;> rfl

theorem pairing_eq_some_iff {pairing : Pairing} :
    settings.pairing = some pairing ↔ ∃ keys, settings.pairedWriterKeys = .ok keys ∧ pairing =
      fun writer => if writer ∈ keys then some ((listed settings.pairedWriters writer).getD none)
        else none := by
  rw [KnotSyncSettings.pairing, funext fun writer => @endpointFor_eq settings writer]
  cases settings.pairedWriterKeys with
  | error => simp [Except.toOption]
  | ok keys => simp [Except.toOption, eq_comm]

theorem names_iff_trim :
    names writer known = true ↔ trim known.key = known.key ∧ parseHex32 known.key = .ok writer := by
  rw [names_iff, parseHex32_eq_ok_iff]
  constructor
  · intro paired
    have same := trim_of_hexPairs paired
    exact ⟨same, same.symm ▸ paired⟩
  · rintro ⟨same, paired⟩
    exact same ▸ paired

/-- Every key is one, and is stored as it is parsed. -/
def Named (settings : KnotSyncSettings) : Prop :=
  ∀ key ∈ settings.pairedWriters.map PairedWriter.key, ∃ writer, names writer ⟨key, none⟩ = true

theorem Named.names (named : settings.Named) (member : known ∈ settings.pairedWriters) :
    ∃ writer, KnotSyncSettings.names writer known = true :=
  named known.key (List.mem_map_of_mem member)

theorem Named.pairing (named : settings.Named) :
    settings.pairing = some (listed settings.pairedWriters) := by
  obtain ⟨keys, parsed⟩ := exists_keys fun known member =>
    (named.names member).imp fun _ found => (names_iff_trim.mp found).2
  refine pairing_eq_some_iff.mpr ⟨keys, parsed, funext fun writer => ?_⟩
  have admitted : writer ∈ keys ↔ listed settings.pairedWriters writer ≠ none := by
    rw [mem_keys parsed, ne_eq, listed_eq_none_iff]
    simp only [not_forall, not_not, exists_prop]
    refine exists_congr fun known => and_congr_right fun member => ?_
    obtain ⟨other, found⟩ := named.names member
    rw [names_iff_trim, and_iff_right (names_iff_trim.mp found).1]
  cases found : listed settings.pairedWriters writer with
  | none => rw [if_neg fun member => admitted.mp member found]
  | some route => rw [if_pos (admitted.mpr (found ▸ Option.some_ne_none route)), Option.getD_some]

theorem Named.perform (named : settings.Named) (call : SettingsCall) :
    (settings.perform call).2.Named := by
  intro key member
  cases call with
  | pair writer =>
    simp only [KnotSyncSettings.perform, pair] at member
    split at member
    · exact named key member
    · rw [List.map_append, List.mem_append] at member
      rcases member with before | new
      · exact named key before
      · cases List.mem_singleton.mp new
        exact ⟨writer, names_hex32 none⟩
  | unpair writer =>
    exact named key ((List.filter_sublist.map PairedWriter.key).subset member)
  | rememberEndpoint writer ticket =>
    simp only [KnotSyncSettings.perform, rememberEndpoint] at member
    rcases listed_remembered writer ticket settings.pairedWriters with
      ⟨still, _⟩ | ⟨next, found, _, _, keys⟩
    · rw [still] at member
      exact named key member
    · rw [found] at member
      exact named key (keys ▸ member)

def performAll (settings : KnotSyncSettings) (calls : List SettingsCall) : KnotSyncSettings :=
  calls.foldl (fun settings call => (settings.perform call).2) settings

/-- Admission is `pairing`, and a call answers whether it changes that. -/
def Serves (settings : KnotSyncSettings) (pairing : Pairing) : Prop :=
  settings.pairing = some pairing ∧
    ∀ call, (settings.perform call).1 = true ↔ call.apply pairing ≠ pairing

theorem Named.serves (named : settings.Named) : settings.Serves (listed settings.pairedWriters) :=
  ⟨named.pairing, fun call => (listed_perform settings call).2⟩

theorem Named.performAll (named : settings.Named) (calls : List SettingsCall) :
    (settings.performAll calls).Named ∧ listed (settings.performAll calls).pairedWriters =
      calls.foldl SettingsCall.apply (listed settings.pairedWriters) := by
  induction calls generalizing settings with
  | nil => exact ⟨named, rfl⟩
  | cons call rest ih =>
    obtain ⟨later, same⟩ := ih (named.perform call)
    rw [(listed_perform settings call).1] at same
    exact ⟨later, same⟩

/-- Over every run of calls the list is the map that the calls are about, exactly where no key has
blanks around it. -/
theorem pairing_is_a_map_iff {pairing : Pairing} (loads : settings.pairing = some pairing) :
    (∀ calls, (settings.performAll calls).Serves (calls.foldl SettingsCall.apply pairing)) ↔
      settings.Tidy := by
  obtain ⟨keys, parsed, _⟩ := pairing_eq_some_iff.mp loads
  constructor
  · intro serves known member
    by_contra untidy
    obtain ⟨writer, _, own⟩ := exists_of_mapM_eq_ok parsed known member
    have still : names writer known = false := by
      simpa using fun named => untidy (names_iff_trim.mp named).1
    have kept : known ∈ (settings.unpair writer).2.pairedWriters :=
      List.mem_filter.mpr ⟨member, by simpa [names] using still⟩
    have gone : (settings.unpair writer).2.pairing = some (Function.update pairing writer none) :=
      (serves [.unpair writer]).1
    obtain ⟨others, later, same⟩ := pairing_eq_some_iff.mp gone
    have answer := congrFun same writer
    rw [if_pos ((mem_keys later).mpr ⟨known, kept, own⟩), Function.update_self] at answer
    cases answer
  · intro tidy calls
    have named : settings.Named := by
      intro key member
      obtain ⟨known, among, rfl⟩ := List.mem_map.mp member
      obtain ⟨writer, _, own⟩ := exists_of_mapM_eq_ok parsed known among
      exact ⟨writer, names_iff_trim.mpr ⟨tidy known among, own⟩⟩
    cases named.pairing.symm.trans loads
    obtain ⟨later, same⟩ := named.performAll calls
    rw [← same]
    exact later.serves

def spacedSettings : KnotSyncSettings := ⟨[⟨" " ++ hex32 (.filled 7), none⟩], []⟩

theorem pairing_is_a_map_spaced : ∃ pairing, spacedSettings.pairing = some pairing ∧
    ¬∀ calls, (spacedSettings.performAll calls).Serves (calls.foldl SettingsCall.apply pairing) :=
  ⟨_, rfl, fun serves => (by decide : ¬spacedSettings.Tidy) ((pairing_is_a_map_iff rfl).mp serves)⟩

end KnotSyncSettings

structure KnotSettings where
  sync : Option KnotSyncSettings
  deriving DecidableEq

/-- The settings file and the temporary one beside it. -/
structure SettingsFiles where
  file : Option String
  temporary : Option String

inductive SettingsStep
  | read
  | createParent
  | write
  | remove
  | rename

/-- `serde_json` on the settings, and which steps of a call fail. The process may stop there as
well, with nobody to see the answer. -/
structure SettingsHost where
  toText : KnotSettings → Except String String
  ofText : String → Except String KnotSettings

abbrev SettingsFaults := SettingsStep → Option String

namespace KnotSettings

def load (host : SettingsHost) (faults : SettingsFaults) (files : SettingsFiles) :
    Except String KnotSettings :=
  match faults .read, files.file with
  | some message, _ => .error message
  | none, none => .ok ⟨none⟩
  | none, some text => host.ofText text

/-- A write that fails leaves `left` of the temporary file. -/
def save (host : SettingsHost) (faults : SettingsFaults) (left : Option String)
    (files : SettingsFiles) (settings : KnotSettings) : SettingsFiles × Except String Unit :=
  match faults .createParent, host.toText settings with
  | some message, _ => (files, .error message)
  | none, .error message => (files, .error message)
  | none, .ok text =>
    match faults .write, files.file.bind fun _ => faults .remove, faults .rename with
    | some message, _, _ => ({ files with temporary := left }, .error message)
    | none, some message, _ => ({ files with temporary := some (text ++ "\n") }, .error message)
    | none, none, some message => (⟨none, some (text ++ "\n")⟩, .error message)
    | none, none, none => (⟨some (text ++ "\n"), none⟩, .ok ())

/-- `pair` of the host's command line and a turn of `refresh_dial_hints`. -/
def change (host : SettingsHost) (faults : SettingsFaults) (left : Option String)
    (files : SettingsFiles) (call : SettingsCall) : SettingsFiles × Except String Bool :=
  match load host faults files with
  | .error message => (files, .error message)
  | .ok settings =>
    -- Without sync there is no entry for a route to be remembered in either.
    let (changed, sync) := (settings.sync.getD ⟨[], []⟩).perform call
    if changed then
      let (files, saved) := save host faults left files ⟨some sync⟩
      (files, saved.map fun _ => true)
    else (files, .ok false)

/-- The file loads, and whom it admits. -/
def Admits (host : SettingsHost) (files : SettingsFiles) (pairing : Pairing) : Prop :=
  ∃ settings, load host (fun _ => none) files = .ok settings ∧
    (settings.sync.getD ⟨[], []⟩).Named ∧ (settings.sync.getD ⟨[], []⟩).pairing = some pairing

/-- What a call leaves: its change, no change, or nobody when it stopped before the new file was in
the old one's place. -/
inductive Changed (host : SettingsHost) (faults : SettingsFaults) (pairing : Pairing)
    (call : SettingsCall) : Pairing → Except String Bool → Prop
  | done (changed : Bool) (answers : changed = true ↔ call.apply pairing ≠ pairing) :
      Changed host faults pairing call (call.apply pairing) (.ok changed)
  | failed (message : String) : Changed host faults pairing call pairing (.error message)
  | emptied (message : String) (stopped : faults .rename = some message) :
      Changed host faults pairing call (fun _ => none) (.error message)

variable {host : SettingsHost} {files : SettingsFiles} {pairing : Pairing}

theorem admits_none (temporary : Option String) : Admits host ⟨none, temporary⟩ fun _ => none :=
  ⟨⟨none⟩, rfl, fun _ member => (by cases member), rfl⟩

theorem load_cases (faults : SettingsFaults) : (∃ message, load host faults files = .error message) ∨
    load host faults files = load host (fun _ => none) files := by
  rw [load, load]
  cases faults .read with
  | some message => exact .inl ⟨message, rfl⟩
  | none => exact .inr rfl

theorem Admits.change (admits : Admits host files pairing)
    (roundTrips : ∀ settings text, host.toText settings = .ok text →
      host.ofText (text ++ "\n") = .ok settings)
    (faults : SettingsFaults) (left : Option String) (call : SettingsCall) :
    ∃ next, Admits host (KnotSettings.change host faults left files call).1 next ∧
      Changed host faults pairing call next (KnotSettings.change host faults left files call).2 := by
  obtain ⟨settings, loaded, named, loads⟩ := id admits
  cases named.pairing.symm.trans loads
  obtain ⟨means, answers⟩ :=
    KnotSyncSettings.listed_perform (settings.sync.getD ⟨[], []⟩) call
  have later := named.perform call
  rw [KnotSettings.change]
  rcases @load_cases host files faults with ⟨message, failed⟩ | whole
  · rw [failed]
    exact ⟨_, admits, .failed message⟩
  · rw [whole, loaded]
    dsimp only
    split
    next changed =>
      rw [save]
      split
      next => exact ⟨_, admits, .failed _⟩
      next => exact ⟨_, admits, .failed _⟩
      next written =>
        split
        next => exact ⟨_, admits, .failed _⟩
        next => exact ⟨_, admits, .failed _⟩
        next stopped => exact ⟨_, admits_none _, .emptied _ stopped⟩
        next =>
          refine ⟨_, ⟨_, roundTrips _ _ written, later, later.pairing⟩, ?_⟩
          rw [means]
          exact .done true (by simpa using answers.mp changed)
    next still =>
      have same := not_not.mp (mt answers.mpr still)
      exact ⟨call.apply _, same.symm ▸ admits, .done false (by simpa using same)⟩

theorem Changed.admitted {faults : SettingsFaults} {call : SettingsCall} {next : Pairing}
    {result : Except String Bool} (changed : Changed host faults pairing call next result)
    (writer : Bytes32) :
    (next writer ≠ none → pairing writer ≠ none ∨ call = .pair writer) ∧
      (pairing writer ≠ none → next writer ≠ none ∨ call = .unpair writer ∨
        faults .rename ≠ none) := by
  cases changed with
  | failed => exact ⟨.inl, .inl⟩
  | emptied message stopped =>
    exact ⟨fun named => absurd rfl named, fun _ => .inr (.inr (stopped ▸ Option.some_ne_none _))⟩
  | done =>
    cases call with
    | pair other | unpair other | rememberEndpoint other ticket =>
      by_cases same : writer = other <;> simp_all [SettingsCall.apply, or_iff_not_imp_left]

structure SettingsTurn where
  faults : SettingsFaults
  left : Option String
  call : SettingsCall

def run (host : SettingsHost) (files : SettingsFiles) (turns : List SettingsTurn) : SettingsFiles :=
  turns.foldl (fun files turn => (change host turn.faults turn.left files turn.call).1) files

def pairedOnce : KnotSettings := ⟨some ⟨[⟨hex32 (.filled 7), none⟩], []⟩⟩

def pairedOnceHost : SettingsHost where
  toText settings := if settings = pairedOnce then .ok "paired" else .error ""
  ofText text := if text = "paired\n" then .ok pairedOnce else .error ""

end KnotSettings

end KnotEditor
