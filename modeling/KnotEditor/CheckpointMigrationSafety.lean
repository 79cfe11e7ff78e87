import KnotEditor.CheckpointMigration
import KnotEditor.Library.Fallible
import KnotEditor.Library.KeyedCollection

/-! A migration leaves the source as it was, or replaces it by the whole rewritten table. -/

namespace KnotEditor

namespace Migration

open Fallible

def Uncommitted {α : Type} (run : Except MigrationError α) : Prop :=
  ∀ error, run = .error error → error.replacementCommitted = false

section uncommitted

variable {α β : Type}

theorem uncommitted_ok (result : α) : Uncommitted (.ok result) := by
  intro error failed
  cases failed

theorem uncommitted_error {error : MigrationError} (early : error.replacementCommitted = false) :
    Uncommitted (.error error : Except MigrationError α) := by
  intro other failed
  cases failed
  exact early

theorem uncommitted_bind {first : Except MigrationError α} {next : α → Except MigrationError β}
    (firstEarly : Uncommitted first) (nextEarly : ∀ result, Uncommitted (next result)) :
    Uncommitted (first >>= next) := by
  cases first with
  | error error => exact uncommitted_error (firstEarly error rfl)
  | ok result => exact nextEarly result

theorem uncommitted_ite {condition : Prop} [Decidable condition]
    {first second : Except MigrationError α} (firstEarly : Uncommitted first)
    (secondEarly : Uncommitted second) : Uncommitted (if condition then first else second) := by
  split
  · exact firstEarly
  · exact secondEarly

theorem uncommitted_refuse {condition : Prop} [Decidable condition] {error : MigrationError}
    {next : α → Except MigrationError β} {rest : Except MigrationError β}
    (early : error.replacementCommitted = false) (restEarly : Uncommitted rest) :
    Uncommitted (if condition then (.error error >>= next) else rest) :=
  uncommitted_ite (uncommitted_error early) restEarly

theorem uncommitted_foldlM {step : β → α → Except MigrationError β}
    (stepEarly : ∀ state item, Uncommitted (step state item)) (items : List α) (start : β) :
    Uncommitted (items.foldlM step start) := by
  induction items generalizing start with
  | nil => exact uncommitted_ok start
  | cons item rest ih => exact uncommitted_bind (stepEarly start item) ih

end uncommitted

theorem storeStep_uncommitted (fault : Option String) : Uncommitted (storeStep fault) := by
  cases fault with
  | none => exact uncommitted_ok ()
  | some error => exact uncommitted_error rfl

theorem ioStep_uncommitted (step : String) (fault : Option String) :
    Uncommitted (ioStep step false fault) := by
  cases fault with
  | none => exact uncommitted_ok ()
  | some error => exact uncommitted_error rfl

theorem ioStep_error {step : String} {committed : Bool} {fault : Option String}
    {error : MigrationError} (failed : ioStep step committed fault = .error error) :
    error.replacementCommitted = committed := by
  cases fault with
  | none => cases failed
  | some found =>
    cases failed
    rfl

theorem sourceMetadata_uncommitted (inspected : Except String SourceMetadata) :
    Uncommitted (sourceMetadata inspected) := by
  unfold sourceMetadata
  split
  · exact uncommitted_error rfl
  · exact uncommitted_ite (uncommitted_error rfl)
      (uncommitted_ite (uncommitted_error rfl) (uncommitted_ok _))

theorem verifySourceIdentity_uncommitted (inspected : Except String SourceMetadata)
    (expected : SourceMetadata) : Uncommitted (verifySourceIdentity inspected expected) :=
  uncommitted_bind (sourceMetadata_uncommitted inspected) fun _ =>
    uncommitted_ite (uncommitted_error rfl) (uncommitted_ok ())

theorem validateKnownKeys_uncommitted (entries : MigrationEntries) (scope : MigrationScope) :
    Uncommitted (validateKnownKeys entries scope) :=
  uncommitted_ite (uncommitted_error rfl) (uncommitted_ok ())

theorem readEntry_uncommitted (stored : MigrationEntries) (get : String → Option String)
    (table : MigrationEntries) (key : String) : Uncommitted (readEntry stored get table key) := by
  unfold readEntry
  split
  · exact uncommitted_error rfl
  · exact uncommitted_error rfl
  · exact uncommitted_ite (uncommitted_error rfl) (uncommitted_ok _)

theorem readEntries_uncommitted (stored : MigrationEntries) (list : Option String)
    (get : String → Option String) : Uncommitted (readEntries stored list get) :=
  uncommitted_bind (storeStep_uncommitted list) fun _ =>
    uncommitted_foldlM (readEntry_uncommitted stored get) stored.keys ∅

theorem prepareSource_uncommitted (scope : MigrationScope)
    (prepare : MigrationEntries → Except String MigrationDecision) (faults : MigrationFaults)
    (active : MigrationEntries) : Uncommitted (prepareSource scope prepare faults active) := by
  have scopeEarly : Uncommitted (validateScope scope) :=
    uncommitted_ite (uncommitted_error rfl) (uncommitted_ok ())
  have decisionEarly (source : MigrationEntries) :
      Uncommitted ((prepare source).mapError MigrationError.preparation) := by
    cases prepare source with
    | error message => exact uncommitted_error rfl
    | ok decision => exact uncommitted_ok decision
  exact uncommitted_bind scopeEarly fun _ =>
    uncommitted_bind (sourceMetadata_uncommitted _) fun _ =>
      uncommitted_bind (storeStep_uncommitted _) fun _ =>
        uncommitted_bind (verifySourceIdentity_uncommitted _ _) fun _ =>
          uncommitted_bind (readEntries_uncommitted _ _ _) fun source =>
            uncommitted_bind (validateKnownKeys_uncommitted source scope) fun _ =>
              uncommitted_bind (decisionEarly source) fun _ => uncommitted_ok _

theorem planRewrite_uncommitted (scope : MigrationScope) (source : MigrationEntries)
    (replacements : Std.ExtTreeMap String (Option ByteArray)) :
    Uncommitted (planRewrite scope source replacements) := by
  unfold planRewrite
  refine uncommitted_ite (uncommitted_error rfl) (uncommitted_ite (uncommitted_error rfl) ?_)
  intro error failed
  simp only at failed
  split at failed
  · rename_i refused
    cases failed
    exact validateKnownKeys_uncommitted _ _ _ refused
  · cases failed

theorem copyEntry_uncommitted (faults : MigrationFaults) (state : MigrationEntries × Nat)
    (entry : String × ByteArray) : Uncommitted (copyEntry faults state entry) :=
  uncommitted_bind (storeStep_uncommitted _) fun _ =>
    uncommitted_bind (ioStep_uncommitted _ _) fun _ => uncommitted_ok _

theorem fillStage_uncommitted (faults : MigrationFaults) (identity : SourceMetadata)
    (expected : MigrationEntries) : Uncommitted (fillStage faults identity expected) :=
  uncommitted_bind (storeStep_uncommitted _) fun _ =>
    uncommitted_bind (uncommitted_foldlM (copyEntry_uncommitted faults) _ _) fun _ =>
      uncommitted_bind (ioStep_uncommitted _ _) fun _ =>
        uncommitted_bind (readEntries_uncommitted _ _ _) fun _ =>
          uncommitted_refuse rfl <| uncommitted_bind (ioStep_uncommitted _ _) fun _ =>
            uncommitted_bind (ioStep_uncommitted _ _) fun _ =>
              uncommitted_bind (verifySourceIdentity_uncommitted _ _) fun _ =>
                uncommitted_bind (ioStep_uncommitted _ _) fun _ => uncommitted_ok _

theorem readEntries_eq_ok {stored table : MigrationEntries} {list : Option String}
    {get : String → Option String} (read : readEntries stored list get = .ok table) :
    table = stored := by
  rcases then_eq_ok_iff.mp read with ⟨_, folded⟩
  have prefixes : ∀ (keys : List String) (found : MigrationEntries),
      keys.foldlM (readEntry stored get) ∅ = .ok found →
      ∀ key, found[key]? = if key ∈ keys then stored[key]? else none := by
    intro keys
    induction keys using List.reverseRecOn with
    | nil =>
      intro found finished key
      cases finished
      simp
    | append_singleton keys last ih =>
      intro found finished key
      rcases foldlM_append_singleton_eq_ok_iff.mp finished with ⟨middle, before, final⟩
      have known := ih middle before key
      unfold readEntry at final
      split at final
      · cases final
      · cases final
      · rename_i value _ held
        split at final
        · cases final
        · cases final
          by_cases same : last = key
          · subst same
            simp [held]
          · rw [KeyedCollections.getElem?_insert_of_ne _ same, known]
            simp [Ne.symm same]
  refine Std.ExtTreeMap.ext_getElem? fun {key} => ?_
  rw [prefixes _ _ folded key]
  split
  · rfl
  · rename_i absent
    rw [Std.ExtTreeMap.mem_keys, Std.ExtTreeMap.mem_iff_isSome_getElem?, Bool.not_eq_true,
      Option.isSome_eq_false_iff, Option.isNone_iff_eq_none] at absent
    exact absent.symm

theorem fillStage_eq_ok {faults : MigrationFaults} {identity : SourceMetadata}
    {expected staged : MigrationEntries}
    (filled : fillStage faults identity expected = .ok staged) : staged = expected := by
  rcases then_eq_ok_iff.mp filled with ⟨_, afterOpen⟩
  rcases bind_eq_ok_iff.mp afterOpen with ⟨copied, _, afterCopy⟩
  rcases then_eq_ok_iff.mp afterCopy with ⟨_, afterPause⟩
  rcases bind_eq_ok_iff.mp afterPause with ⟨read, listed, afterRead⟩
  rcases refuse_eq_ok_iff.mp afterRead with ⟨verified, afterVerify⟩
  rcases then_eq_ok_iff.mp afterVerify with ⟨_, afterSync⟩
  rcases then_eq_ok_iff.mp afterSync with ⟨_, afterReady⟩
  rcases then_eq_ok_iff.mp afterReady with ⟨_, afterIdentity⟩
  rcases then_eq_ok_iff.mp afterIdentity with ⟨_, finished⟩
  cases finished
  rw [← readEntries_eq_ok listed]
  exact Std.ExtTreeMap.toList_inj.mp (not_not.mp verified)

theorem prepareSource_eq_ok {scope : MigrationScope}
    {prepare : MigrationEntries → Except String MigrationDecision} {faults : MigrationFaults}
    {active source : MigrationEntries} {identity : SourceMetadata} {decision : MigrationDecision}
    (prepared : prepareSource scope prepare faults active = .ok (identity, source, decision)) :
    source = active ∧ prepare active = .ok decision := by
  rcases then_eq_ok_iff.mp prepared with ⟨_, afterScope⟩
  rcases bind_eq_ok_iff.mp afterScope with ⟨seen, _, afterMetadata⟩
  rcases then_eq_ok_iff.mp afterMetadata with ⟨_, afterOpen⟩
  rcases then_eq_ok_iff.mp afterOpen with ⟨_, afterIdentity⟩
  rcases bind_eq_ok_iff.mp afterIdentity with ⟨table, read, afterRead⟩
  rcases then_eq_ok_iff.mp afterRead with ⟨_, afterKnown⟩
  rcases bind_eq_ok_iff.mp afterKnown with ⟨decided, asked, finished⟩
  cases finished
  rw [mapError_eq_ok_iff, readEntries_eq_ok read] at asked
  exact ⟨readEntries_eq_ok read, asked⟩

theorem getElem?_applied (source : MigrationEntries)
    (replacements : Std.ExtTreeMap String (Option ByteArray)) (key : String) :
    (applied source replacements)[key]? = replacements[key]?.getD source[key]? := by
  have prefixes : ∀ items : List (String × Option ByteArray),
      items.Pairwise (fun one two => ¬ compare one.1 two.1 = .eq) →
      (∀ value, (key, value) ∈ items → (items.foldl replaceEntry source)[key]? = value) ∧
      ((∀ value, (key, value) ∉ items) → (items.foldl replaceEntry source)[key]? = source[key]?) := by
    intro items
    induction items using List.reverseRecOn with
    | nil => simp
    | append_singleton items last ih =>
      intro distinct
      rw [List.pairwise_append] at distinct
      rcases distinct with ⟨earlier, _, apart⟩
      rcases ih earlier with ⟨found, kept⟩
      rw [List.foldl_append, List.foldl_cons, List.foldl_nil]
      rcases last with ⟨lastKey, lastValue⟩
      by_cases same : lastKey = key
      · subst same
        have written : (replaceEntry (items.foldl replaceEntry source)
            (lastKey, lastValue))[lastKey]? = lastValue := by
          cases lastValue <;> simp [replaceEntry]
        refine ⟨?_, fun absent => absurd (by simp) (absent lastValue)⟩
        intro value member
        rcases List.mem_append.mp member with before | final
        · exact absurd Std.ReflCmp.compare_self
            (apart _ before (lastKey, lastValue) (List.mem_singleton_self _))
        · cases List.mem_singleton.mp final
          exact written
      · have untouched : (replaceEntry (items.foldl replaceEntry source)
            (lastKey, lastValue))[key]? = (items.foldl replaceEntry source)[key]? := by
          cases lastValue with
          | none => exact KeyedCollections.getElem?_erase_of_ne _ same
          | some value => exact KeyedCollections.getElem?_insert_of_ne _ same value
        rw [untouched]
        refine ⟨fun value member => found value ?_, fun absent => kept fun value member => ?_⟩
        · rcases List.mem_append.mp member with before | final
          · exact before
          · cases List.mem_singleton.mp final
            exact absurd rfl same
        · exact absent value (List.mem_append_left _ member)
  rcases prefixes _ Std.ExtTreeMap.distinct_keys_toList with ⟨found, kept⟩
  unfold applied
  cases named : replacements[key]? with
  | some value => exact found value (Std.ExtTreeMap.mem_toList_iff_getElem?_eq_some.mpr named)
  | none =>
    refine kept fun value member => ?_
    rw [Std.ExtTreeMap.mem_toList_iff_getElem?_eq_some, named] at member
    cases member

/-- The source entries with the replacements of a decision made in them, and nothing protected
carried over beside those. -/
structure Rewritten (scope : MigrationScope) (source : MigrationEntries)
    (replacements : Std.ExtTreeMap String (Option ByteArray)) (active : MigrationEntries) :
    Prop where
  applied : ∀ key : String, active[key]? = replacements[key]?.getD source[key]?
  preserved : ∀ key : String, key ∉ scope.managedKeys → active[key]? = source[key]?
  unprotected : ∀ key ∈ active, key ∉ scope.managedKeys → managed scope key = false
  named : ∀ (key : String) (value : ByteArray), active[key]? = some value → managed scope key = true →
    replacements[key]? = some (some value)

theorem validateKnownKeys_eq_ok_iff {entries : MigrationEntries} {scope : MigrationScope} :
    validateKnownKeys entries scope = .ok () ↔
      ∀ key ∈ entries, managed scope key = true → key ∈ scope.managedKeys := by
  unfold validateKnownKeys
  split
  · rename_i found
    simp at found
    rcases found with ⟨key, member, protectedKey, unknown⟩
    refine ⟨fun impossible => ?_, fun known => absurd (known key member protectedKey) unknown⟩
    cases impossible
  · rename_i clear
    simp at clear
    exact ⟨fun _ => clear, fun _ => rfl⟩

theorem planRewrite_eq_ok {scope : MigrationScope} {source : MigrationEntries}
    {replacements : Std.ExtTreeMap String (Option ByteArray)} {plan : RewritePlan}
    (planned : planRewrite scope source replacements = .ok plan) :
    (∀ key ∈ replacements, key ∈ scope.managedKeys) ∧
    (∀ key ∈ source, key ∈ scope.managedKeys → key ∈ replacements) ∧
    plan.expected = applied source replacements ∧
    validateKnownKeys plan.expected scope = .ok () ∧
    plan.preserved = (source.keys.filter fun key => !replacements.contains key).length := by
  unfold planRewrite at planned
  split at planned
  · cases planned
  · rename_i within
    split at planned
    · cases planned
    · rename_i complete
      simp only at planned
      split at planned
      · cases planned
      · rename_i known
        cases planned
        refine ⟨?_, ?_, rfl, known, rfl⟩
        · simpa using within
        · simpa using complete

theorem rewritten_of_planRewrite {scope : MigrationScope} {source : MigrationEntries}
    {replacements : Std.ExtTreeMap String (Option ByteArray)} {plan : RewritePlan}
    (planned : planRewrite scope source replacements = .ok plan) :
    Rewritten scope source replacements plan.expected := by
  rcases planRewrite_eq_ok planned with ⟨within, complete, expected, known, _⟩
  rw [validateKnownKeys_eq_ok_iff] at known
  have lookup (key : String) :
      plan.expected[key]? = replacements[key]?.getD source[key]? := by
    rw [expected, getElem?_applied]
  refine ⟨lookup, ?_, ?_, ?_⟩
  · intro key free
    have unnamed : replacements[key]? = none :=
      Std.ExtTreeMap.getElem?_eq_none fun member => free (within key member)
    rw [lookup, unnamed, Option.getD_none]
  · intro key member free
    rw [← Bool.not_eq_true]
    exact fun protectedKey => free (known key member protectedKey)
  · intro key value held protectedKey
    have ownKey : key ∈ scope.managedKeys := by
      refine known key ?_ protectedKey
      rw [Std.ExtTreeMap.mem_iff_isSome_getElem?, held, Option.isSome_some]
    rw [lookup] at held
    cases named : replacements[key]? with
    | some replacement =>
      rw [named, Option.getD_some] at held
      rw [held]
    | none =>
      rw [named, Option.getD_none] at held
      have member : key ∈ replacements := by
        refine complete key ?_ ownKey
        rw [Std.ExtTreeMap.mem_iff_isSome_getElem?, held, Option.isSome_some]
      rw [Std.ExtTreeMap.mem_iff_isSome_getElem?, named] at member
      cases member

def freeKeys (scope : MigrationScope) (entries : MigrationEntries) : List String :=
  entries.keys.filter fun key => decide (key ∉ scope.managedKeys)

theorem length_freeKeys_of_rewritten {scope : MigrationScope} {source active : MigrationEntries}
    {replacements : Std.ExtTreeMap String (Option ByteArray)}
    (rewritten : Rewritten scope source replacements active) :
    (freeKeys scope active).length = (freeKeys scope source).length := by
  refine List.Perm.length_eq ((List.perm_ext_iff_of_nodup ?_ ?_).mpr fun key => ?_)
  · exact Std.ExtTreeMap.nodup_keys.filter _
  · exact Std.ExtTreeMap.nodup_keys.filter _
  · rw [freeKeys, freeKeys, List.mem_filter, List.mem_filter, decide_eq_true_eq,
      Std.ExtTreeMap.mem_keys, Std.ExtTreeMap.mem_keys, Std.ExtTreeMap.mem_iff_isSome_getElem?,
      Std.ExtTreeMap.mem_iff_isSome_getElem?]
    refine and_congr_left fun free => ?_
    rw [rewritten.preserved key free]

theorem preserved_of_planRewrite {scope : MigrationScope} {source : MigrationEntries}
    {replacements : Std.ExtTreeMap String (Option ByteArray)} {plan : RewritePlan}
    (planned : planRewrite scope source replacements = .ok plan) :
    plan.preserved = (freeKeys scope source).length := by
  rcases planRewrite_eq_ok planned with ⟨within, complete, _, _, preserved⟩
  rw [preserved, freeKeys]
  refine congrArg List.length (List.filter_congr fun key member => ?_)
  rw [Std.ExtTreeMap.mem_keys] at member
  have same : key ∈ replacements ↔ key ∈ scope.managedKeys :=
    ⟨within key, complete key member⟩
  rw [Bool.eq_iff_iff, Bool.not_eq_true', ← Bool.not_eq_true, Std.ExtTreeMap.contains_iff_mem,
    decide_eq_true_eq, same]

structure Describes (host : MigrationHost) (scope : MigrationScope)
    (source active : MigrationEntries) (receipt : MigrationReceipt host) : Prop where
  sourceHash : receipt.sourceLogicalHash = host.blake3 (logicalStream source)
  destinationHash : receipt.destinationLogicalHash = host.blake3 (logicalStream active)
  sourceCount : receipt.sourceKeyCount = source.size
  destinationCount : receipt.destinationKeyCount = active.size

inductive Outcome (host : MigrationHost) (scope : MigrationScope)
    (prepare : MigrationEntries → Except String MigrationDecision) (source : MigrationEntries) :
    Except MigrationError (ClosedStore host) → MigrationFiles → Prop
  | refused {error : MigrationError} : error.replacementCommitted = false →
      Outcome host scope prepare source (.error error) ⟨source, none⟩
  | unsynced {error : MigrationError}
      {replacements : Std.ExtTreeMap String (Option ByteArray)} {active : MigrationEntries} :
      error.replacementCommitted = true → prepare source = .ok (.rewrite replacements) →
      Rewritten scope source replacements active →
      Outcome host scope prepare source (.error error) ⟨active, none⟩
  | current {receipt : MigrationReceipt host} : prepare source = .ok .current →
      receipt.rewritten = false → Describes host scope source source receipt →
      receipt.preservedKeyCount = source.size →
      Outcome host scope prepare source (.ok ⟨source, receipt⟩) ⟨source, none⟩
  | rewritten {receipt : MigrationReceipt host}
      {replacements : Std.ExtTreeMap String (Option ByteArray)} {active : MigrationEntries} :
      prepare source = .ok (.rewrite replacements) → receipt.rewritten = true →
      Rewritten scope source replacements active →
      Describes host scope source active receipt →
      receipt.preservedKeyCount = (freeKeys scope source).length →
      receipt.preservedKeyCount = (freeKeys scope active).length →
      Outcome host scope prepare source (.ok ⟨active, receipt⟩) ⟨active, none⟩

theorem rewriteSource_outcome (host : MigrationHost) (scope : MigrationScope)
    (prepare : MigrationEntries → Except String MigrationDecision) (faults : MigrationFaults)
    (identity : SourceMetadata) (source : MigrationEntries)
    {replacements : Std.ExtTreeMap String (Option ByteArray)}
    (decided : prepare source = .ok (.rewrite replacements)) :
    Outcome host scope prepare source
      (rewriteSource host scope faults identity source replacements ⟨source, none⟩).1
      (rewriteSource host scope faults identity source replacements ⟨source, none⟩).2 := by
  unfold rewriteSource
  cases planned : planRewrite scope source replacements with
  | error error => exact .refused (planRewrite_uncommitted _ _ _ error planned)
  | ok plan =>
    have rewritten := rewritten_of_planRewrite planned
    have kept := preserved_of_planRewrite planned
    cases paused : ioStep "before stage" false faults.beforeStage with
    | error error => exact .refused (ioStep_error paused)
    | ok =>
      cases created : ioStep "create stage" false faults.createStage with
      | error error => exact .refused (ioStep_error created)
      | ok =>
        cases filled : fillStage faults identity plan.expected with
        | error error =>
          simp only [filled]
          exact .refused (fillStage_uncommitted _ _ _ error filled)
        | ok staged =>
          -- From here the stage has taken the source's place.
          cases fillStage_eq_ok filled
          cases replaced : ioStep "sync directory" true faults.afterReplace with
          | error error =>
            simp only [filled]
            exact .unsynced (ioStep_error replaced) decided rewritten
          | ok =>
            cases synced : ioStep "sync directory" true faults.syncDirectory with
            | error error =>
              simp only [filled]
              exact .unsynced (ioStep_error synced) decided rewritten
            | ok =>
              simp only [filled]
              refine .rewritten decided rfl rewritten ⟨rfl, rfl, rfl, rfl⟩ kept ?_
              exact kept.trans (length_freeKeys_of_rewritten rewritten).symm

theorem openOrRewrite_outcome (host : MigrationHost) (scope : MigrationScope)
    (prepare : MigrationEntries → Except String MigrationDecision) (faults : MigrationFaults)
    (source : MigrationEntries) :
    Outcome host scope prepare source
      (openOrRewrite host scope prepare faults ⟨source, none⟩).1
      (openOrRewrite host scope prepare faults ⟨source, none⟩).2 := by
  unfold openOrRewrite
  cases prepared : prepareSource scope prepare faults source with
  | error error => exact .refused (prepareSource_uncommitted _ _ _ _ error prepared)
  | ok ready =>
    rcases ready with ⟨identity, read, decision⟩
    rcases prepareSource_eq_ok prepared with ⟨whole, decided⟩
    subst whole
    cases decision with
    | rewrite replacements => exact rewriteSource_outcome host scope prepare faults identity _ decided
    | current =>
      cases verified : verifySourceIdentity (faults.inspect 2) identity with
      | error error =>
        simp only [verified]
        exact .refused (verifySourceIdentity_uncommitted _ _ error verified)
      | ok =>
        simp only [verified]
        exact .current decided rfl ⟨rfl, rfl, rfl, rfl⟩ rfl

def LengthsFit (entries : MigrationEntries) : Prop :=
  ∀ entry ∈ entries.toList, (keyBytes entry).length < 2 ^ 64 ∧ (valueBytes entry).length < 2 ^ 64

theorem logicalStream_inj {left right : MigrationEntries} (leftFits : LengthsFit left)
    (rightFits : LengthsFit right) (same : logicalStream left = logicalStream right) :
    left = right := by
  refine Std.ExtTreeMap.toList_inj.mp (LengthPrefixed.framedPairs_inj keyBytes valueBytes leftFits
    rightFits ?_ (List.append_cancel_left same))
  rintro ⟨oneKey, oneValue⟩ ⟨twoKey, twoValue⟩ keys values
  have keysSame : oneKey = twoKey :=
    String.toByteArray_inj.mp (ByteArray.ext (Array.toList_inj.mp keys))
  have valuesSame : oneValue = twoValue := ByteArray.ext (Array.toList_inj.mp values)
  rw [keysSame, valuesSame]

/-- Whatever fails, the active file ends as the source or as its complete rewrite, the error says
which, the stage is gone, and the receipt describes the two tables by hashes that tell them apart. -/
theorem migration_is_atomic_and_complete (host : MigrationHost) (scope : MigrationScope)
    (prepare : MigrationEntries → Except String MigrationDecision) (faults : MigrationFaults)
    (source : MigrationEntries) :
    Outcome host scope prepare source
      (openOrRewrite host scope prepare faults ⟨source, none⟩).1
      (openOrRewrite host scope prepare faults ⟨source, none⟩).2 ∧
    ∀ left right : MigrationEntries, LengthsFit left → LengthsFit right →
      logicalStream left = logicalStream right → left = right :=
  ⟨openOrRewrite_outcome host scope prepare faults source,
    fun _ _ leftFits rightFits same => logicalStream_inj leftFits rightFits same⟩

end Migration

end KnotEditor
