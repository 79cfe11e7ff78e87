import KnotEditor.Sync.Retention
import KnotEditor.Sync.Placement

/-! What the two replays of retained composition material find, and what one more operation at
the end of the history changes in them. -/

namespace KnotEditor

open Fallible KeyedCollections

theorem saturatingAdd_le (left right other : Nat) (le : left ≤ right) :
    saturatingAdd left other ≤ saturatingAdd right other := by
  simp only [saturatingAdd]
  omega

section

variable (host : RetentionHost) (cipher : KnotSyncCipher)

def retainedKey (operation : Operation) : Option RetentionKey :=
  match decodeEvent host.toSyncHost cipher operation with
  | .ok (.retainCompositionV1 itemJson) =>
    match compositionItem host.composition itemJson with
    | .ok item => some ⟨operation.author, item.id⟩
    | .error _ => none
  | _ => none

def replacedRevision (key : RetentionKey) (operation : Operation) : Option Bytes32 :=
  match decodeEvent host.toSyncHost cipher operation with
  | .ok (.organizeCompositionV1 author itemId previous _) =>
    if RetentionKey.mk author itemId = key then some previous else none
  | _ => none

def organizationsOf (key : RetentionKey) (order : List Operation) : List Operation :=
  order.filter fun operation => (replacedRevision host cipher key operation).isSome

inductive Chain (key : RetentionKey) (start : Bytes32) : List Operation → Bytes32 → Prop
  | start : Chain key start [] start
  | next (operations : List Operation) (revision : Bytes32) (operation : Operation)
      (earlier : Chain key start operations revision)
      (replaces : replacedRevision host cipher key operation = some revision) :
      Chain key start (operations ++ [operation]) operation.hash

variable (maxItems maxBytes : Nat)

def retainFold (order : List Operation) : Except KnotSyncError (RetentionItems host × Nat) :=
  order.foldlM (retainStep host cipher maxItems maxBytes) (∅, 0)

def organizeFold (causal : CausalIndex) (items : OrganizationItems host)
    (order : List Operation) : Except KnotSyncError (OrganizationItems host × Nat) :=
  order.foldlM (organizeStep host cipher maxBytes causal) (items, 0)

end

section

variable {host : RetentionHost} {cipher : KnotSyncCipher} {maxItems maxBytes : Nat}
variable {causal : CausalIndex} {operation : Operation}

theorem retainStep_ok (state after : RetentionItems host × Nat)
    (stepped : retainStep host cipher maxItems maxBytes state operation = .ok after) :
    (retainedKey host cipher operation = none ∧ after = state) ∨
      ∃ itemJson item, decodeEvent host.toSyncHost cipher operation =
          .ok (.retainCompositionV1 itemJson) ∧
        compositionItem host.composition itemJson = .ok item ∧
        retainedKey host cipher operation = some ⟨operation.author, item.id⟩ ∧
        after.2 = saturatingAdd state.2 itemJson.utf8ByteSize ∧
        ((∃ previous, state.1[RetentionKey.mk operation.author item.id]? = some previous ∧
            (after.1 = state.1 ∨ after.1 = state.1.insert ⟨operation.author, item.id⟩
              { previous with operation := operation.hash })) ∨
          state.1[RetentionKey.mk operation.author item.id]? = none ∧
            after.1 = state.1.insert ⟨operation.author, item.id⟩
              ⟨item, operation.hash, operation.author⟩) := by
  rw [retainStep] at stepped
  rcases bind_eq_ok_iff.mp stepped with ⟨event, decoded, step⟩
  have unretained : (∀ itemJson, event ≠ .retainCompositionV1 itemJson) →
      retainedKey host cipher operation = none := by
    intro different
    rw [retainedKey, decoded]
    cases event <;> first | rfl | exact absurd rfl (different _)
  cases event with
  | retainCompositionV1 itemJson =>
    simp only [bind_eq_ok_iff, refuse_eq_ok_iff] at step
    rcases step with ⟨item, parsed, _, chosen⟩
    have key : retainedKey host cipher operation = some ⟨operation.author, item.id⟩ := by
      rw [retainedKey, decoded]
      simp only [parsed]
    refine Or.inr ⟨itemJson, item, decoded, parsed, key, ?_⟩
    cases held : state.1[RetentionKey.mk operation.author item.id]? with
    | none =>
      rw [held] at chosen
      simp only [refuse_eq_ok_iff] at chosen
      cases chosen.2
      exact ⟨rfl, Or.inr ⟨rfl, rfl⟩⟩
    | some previous =>
      rw [held] at chosen
      simp only [refuse_eq_ok_iff] at chosen
      rcases chosen with ⟨_, chosen⟩
      by_cases earlier : operation.hash < previous.operation
      · rw [if_pos earlier] at chosen
        cases chosen
        exact ⟨rfl, Or.inl ⟨previous, rfl, Or.inr rfl⟩⟩
      · rw [if_neg earlier] at chosen
        cases chosen
        exact ⟨rfl, Or.inl ⟨previous, rfl, Or.inl rfl⟩⟩
  | _ =>
    cases step
    exact Or.inl ⟨unretained (by intro _ held; cases held), rfl⟩

/-- The retain lookup holds, under its key, every item that an operation retains, and nothing
else. -/
structure Retains (host : RetentionHost) (cipher : KnotSyncCipher) (order : List Operation)
    (items : RetentionItems host) : Prop where
  made : ∀ (key : RetentionKey) retained, items[key]? = some retained →
    retained.author = key.author ∧ retained.item.id = key.itemId ∧
      ∃ operation ∈ order, retainedKey host cipher operation = some key ∧
        operation.hash = retained.operation
  held : ∀ operation ∈ order, ∀ key : RetentionKey,
    retainedKey host cipher operation = some key → ∃ retained, items[key]? = some retained

theorem Retains.step {order : List Operation} {items after : RetentionItems host}
    (retains : Retains host cipher order items) (key : RetentionKey)
    (retained : RetainedComposition host) (keyed : retainedKey host cipher operation = some key)
    (author : retained.author = key.author) (itemId : retained.item.id = key.itemId)
    (hash : operation.hash = retained.operation) (inserted : after = items.insert key retained) :
    Retains host cipher (order ++ [operation]) after := by
  subst inserted
  constructor
  · intro query found read
    by_cases same : key = query
    · subst same
      rw [Std.ExtTreeMap.getElem?_insert_self] at read
      cases read
      exact ⟨author, itemId, operation, by simp, keyed, hash⟩
    · rw [getElem?_insert_of_ne _ same] at read
      rcases retains.made query found read with ⟨wrote, named, maker, member, made, same⟩
      exact ⟨wrote, named, maker, List.mem_append_left _ member, made, same⟩
  · intro maker member query made
    by_cases same : key = query
    · subst same
      exact ⟨retained, Std.ExtTreeMap.getElem?_insert_self⟩
    · rw [getElem?_insert_of_ne _ same]
      rcases List.mem_append.mp member with earlier | last
      · exact retains.held maker earlier query made
      · cases List.mem_singleton.mp last
        exact absurd (Option.some.inj (keyed.symm.trans made)) same

theorem Retains.keep {order : List Operation} {items : RetentionItems host}
    (retains : Retains host cipher order items)
    (kept : ∀ key : RetentionKey, retainedKey host cipher operation = some key →
      ∃ retained, items[key]? = some retained) :
    Retains host cipher (order ++ [operation]) items := by
  constructor
  · intro query found read
    rcases retains.made query found read with ⟨wrote, named, maker, member, made, same⟩
    exact ⟨wrote, named, maker, List.mem_append_left _ member, made, same⟩
  · intro maker member query made
    rcases List.mem_append.mp member with earlier | last
    · exact retains.held maker earlier query made
    · cases List.mem_singleton.mp last
      exact kept query made

theorem retainFold_retains (order : List Operation) :
    ∀ found, retainFold host cipher maxItems maxBytes order = .ok found →
      Retains host cipher order found.1 := by
  induction order using List.reverseRecOn with
  | nil =>
    intro found folded
    cases folded
    exact ⟨by simp, by simp⟩
  | append_singleton front operation ih =>
    intro found folded
    rcases foldlM_append_singleton_eq_ok_iff.mp folded with ⟨middle, earlier, stepped⟩
    have retains := ih middle earlier
    rcases retainStep_ok middle found stepped with
      ⟨unkeyed, same⟩ | ⟨_, item, _, _, keyed, _, ⟨previous, held, same⟩ | ⟨_, same⟩⟩
    · subst same
      apply retains.keep
      intro key keyed
      rw [unkeyed] at keyed
      cases keyed
    · rcases retains.made _ previous held with ⟨author, itemId, _⟩
      rcases same with same | same
      · rw [same]
        apply retains.keep
        intro key made
        cases keyed.symm.trans made
        exact ⟨previous, held⟩
      · exact retains.step _ { previous with operation := operation.hash } keyed author itemId
          rfl same
    · exact retains.step _ _ keyed rfl rfl rfl same

variable (state after : OrganizationItems host × Nat) (key : RetentionKey)

theorem organizeStep_ok_iff :
    organizeStep host cipher maxBytes causal state operation = .ok after ↔
      ∃ event, decodeEvent host.toSyncHost cipher operation = .ok event ∧
        organizeEvent host causal state operation.hash event = .ok after ∧
        after.2 ≤ maxBytes := by
  simp only [organizeStep, bind_eq_ok_iff, refuse_eq_ok_iff, Nat.not_lt]
  constructor
  · rintro ⟨event, decoded, found, organized, bounded, same⟩
    cases same
    exact ⟨event, decoded, organized, bounded⟩
  · rintro ⟨event, decoded, organized, bounded⟩
    exact ⟨event, decoded, after, organized, bounded, rfl⟩

theorem organizeEvent_ok (hash : Bytes32) (event : KnotSyncEvent)
    (organized : organizeEvent host causal state hash event = .ok after) :
    ((∀ author itemId previous json, event ≠ .organizeCompositionV1 author itemId previous json) ∧
        after.1 = state.1) ∨
      ∃ author itemId previous json entry organization,
        event = .organizeCompositionV1 author itemId previous json ∧
        state.1[RetentionKey.mk author itemId]? = some entry ∧ entry.revision = previous ∧
        causal.happensBefore previous hash = true ∧
        compositionOrganization host.composition json = .ok organization ∧
        after = (state.1.insert ⟨author, itemId⟩
          { entry with organization, revision := hash }, saturatingAdd state.2 json.utf8ByteSize) := by
  cases event with
  | organizeCompositionV1 author itemId previous json =>
    rw [organizeEvent] at organized
    cases held : state.1[RetentionKey.mk author itemId]? with
    | none =>
      rw [held] at organized
      cases organized
    | some entry =>
      rw [held] at organized
      simp only at organized
      by_cases conflicting : entry.revision ≠ previous ∨ !causal.happensBefore previous hash
      · rw [if_pos conflicting] at organized
        cases organized
      · rw [if_neg conflicting] at organized
        rcases bind_eq_ok_iff.mp organized with ⟨organization, parsed, same⟩
        cases same
        simp only [not_or, Decidable.not_not, Bool.not_eq_true, Bool.not_eq_false'] at conflicting
        exact Or.inr ⟨author, itemId, previous, json, entry, organization, rfl, held,
          conflicting.1, conflicting.2, parsed, rfl⟩
  | _ =>
    cases organized
    exact Or.inl ⟨nofun, rfl⟩

theorem organizeEvent_total (hash : Bytes32) (event : KnotSyncEvent) (small : state.2 ≤ usizeMax)
    (organized : organizeEvent host causal state hash event = .ok after) :
    state.2 ≤ after.2 ∧ after.2 ≤ usizeMax := by
  cases event with
  | organizeCompositionV1 author itemId previous json =>
    rcases organizeEvent_ok state after hash _ organized with
      ⟨other, _⟩ | ⟨_, _, _, _, _, _, _, _, _, _, _, same⟩
    · exact absurd rfl (other author itemId previous json)
    · rw [same]
      simp only [saturatingAdd]
      omega
  | retainCompositionV1 itemJson =>
    cases organized
    simp only [saturatingAdd]
    omega
  | _ =>
    cases organized
    exact ⟨Nat.le_refl _, small⟩

theorem organizationsOf_append (order : List Operation) :
    organizationsOf host cipher key (order ++ [operation]) =
      organizationsOf host cipher key order ++
        if (replacedRevision host cipher key operation).isSome then [operation] else [] := by
  rw [organizationsOf, List.filter_append, List.filter_singleton]
  cases (replacedRevision host cipher key operation).isSome with
  | true => rfl
  | false => rfl

theorem replacedRevision_other (event : KnotSyncEvent)
    (decoded : decodeEvent host.toSyncHost cipher operation = .ok event)
    (other : ∀ author itemId previous json,
      event = .organizeCompositionV1 author itemId previous json →
        RetentionKey.mk author itemId ≠ key) :
    replacedRevision host cipher key operation = none := by
  rw [replacedRevision, decoded]
  cases event with
  | organizeCompositionV1 author itemId previous json =>
    simp only [if_neg (other author itemId previous json rfl)]
  | _ => rfl

theorem replacedRevision_organize (author : Bytes32) (itemId : String) (previous : Bytes32)
    (json : String) (decoded : decodeEvent host.toSyncHost cipher operation =
      .ok (.organizeCompositionV1 author itemId previous json)) :
    replacedRevision host cipher ⟨author, itemId⟩ operation = some previous := by
  rw [replacedRevision, decoded]
  simp only [if_true]

structure Organizes (host : RetentionHost) (cipher : KnotSyncCipher)
    (start : OrganizationItems host) (order : List Operation) (items : OrganizationItems host) :
    Prop where
  started : ∀ (key : RetentionKey) entry, items[key]? = some entry →
    ∃ first, start[key]? = some first ∧ entry.item = first.item ∧
      entry.operation = first.operation ∧ entry.author = first.author ∧
      Chain host cipher key first.revision (organizationsOf host cipher key order) entry.revision
  kept : ∀ key : RetentionKey, items[key]? = none → start[key]? = none ∧
    organizationsOf host cipher key order = []

theorem organizes_unchanged {start items : OrganizationItems host} {order : List Operation}
    (organizes : Organizes host cipher start order items)
    (unchanged : ∀ key, replacedRevision host cipher key operation = none) :
    Organizes host cipher start (order ++ [operation]) items := by
  have same : ∀ key, organizationsOf host cipher key (order ++ [operation]) =
      organizationsOf host cipher key order := by
    intro key
    rw [organizationsOf_append, unchanged key]
    exact List.append_nil _
  constructor
  · intro key entry held
    rw [same key]
    exact organizes.started key entry held
  · intro key absent
    rw [same key]
    exact organizes.kept key absent

theorem organizes_changed {start items : OrganizationItems host} {order : List Operation}
    (organizes : Organizes host cipher start order items) (author : Bytes32) (itemId : String)
    (previous : Bytes32) (json : String) (entry : OrganizedComposition host)
    (organization : CollectionOrganization)
    (decoded : decodeEvent host.toSyncHost cipher operation =
      .ok (.organizeCompositionV1 author itemId previous json))
    (held : items[RetentionKey.mk author itemId]? = some entry)
    (current : entry.revision = previous) :
    Organizes host cipher start (order ++ [operation])
      (items.insert ⟨author, itemId⟩ { entry with organization, revision := operation.hash }) := by
  have replaced := replacedRevision_organize author itemId previous json decoded
  have elsewhere : ∀ key, RetentionKey.mk author itemId ≠ key →
      replacedRevision host cipher key operation = none := by
    intro key differs
    apply replacedRevision_other key _ decoded
    intro _ _ _ _ same
    cases same
    exact differs
  constructor
  · intro key found read
    by_cases same : RetentionKey.mk author itemId = key
    · subst same
      rw [Std.ExtTreeMap.getElem?_insert_self] at read
      cases read
      rcases organizes.started _ entry held with ⟨first, began, item, made, wrote, chain⟩
      refine ⟨first, began, item, made, wrote, ?_⟩
      rw [organizationsOf_append, replaced]
      exact Chain.next _ entry.revision operation chain (replaced.trans (congrArg some current.symm))
    · rw [getElem?_insert_of_ne _ same] at read
      rw [organizationsOf_append, elsewhere key same]
      simpa using organizes.started key found read
  · intro key absent
    by_cases same : RetentionKey.mk author itemId = key
    · subst same
      rw [Std.ExtTreeMap.getElem?_insert_self] at absent
      cases absent
    · rw [getElem?_insert_of_ne _ same] at absent
      rw [organizationsOf_append, elsewhere key same]
      simpa using organizes.kept key absent

theorem organizeFold_organizes (start : OrganizationItems host) (order : List Operation) :
    ∀ found, organizeFold host cipher maxBytes causal start order = .ok found →
      Organizes host cipher start order found.1 := by
  induction order using List.reverseRecOn with
  | nil =>
    intro found folded
    cases folded
    refine ⟨?_, fun key absent => ⟨absent, rfl⟩⟩
    intro key entry held
    exact ⟨entry, held, rfl, rfl, rfl, Chain.start⟩
  | append_singleton front operation ih =>
    intro found folded
    rcases foldlM_append_singleton_eq_ok_iff.mp folded with ⟨middle, earlier, stepped⟩
    have organizes := ih middle earlier
    rcases (organizeStep_ok_iff middle found).mp stepped with ⟨event, decoded, organized, _⟩
    rcases organizeEvent_ok middle found operation.hash event organized with
      ⟨other, same⟩ | ⟨author, itemId, previous, json, entry, organization, rfl, held, current,
        _, _, same⟩
    · rw [same]
      apply organizes_unchanged organizes
      intro key
      apply replacedRevision_other key event decoded
      intro author itemId previous json clash
      exact absurd clash (other author itemId previous json)
    · rw [same]
      exact organizes_changed organizes author itemId previous json entry organization decoded
        held current

theorem insert_comm (items : OrganizationItems host) (one two : RetentionKey)
    (first second : OrganizedComposition host) (differ : one ≠ two) :
    (items.insert one first).insert two second = (items.insert two second).insert one first := by
  apply Std.ExtTreeMap.ext_getElem?
  intro key
  simp only [Std.ExtTreeMap.getElem?_insert, Std.LawfulEqOrd.compare_eq_iff_eq]
  by_cases isOne : one = key
  · have notTwo : two ≠ key := fun same => differ (isOne.trans same.symm)
    rw [if_neg notTwo, if_pos isOne, if_pos isOne]
  · rw [if_neg isOne, if_neg isOne]

theorem organizeStep_beside (fresh : OrganizedComposition host)
    (state after : OrganizationItems host × Nat) (absent : state.1[key]? = none)
    (stepped : organizeStep host cipher maxBytes causal state operation = .ok after) :
    after.1[key]? = none ∧
      organizeStep host cipher maxBytes causal (state.1.insert key fresh, state.2) operation =
        .ok (after.1.insert key fresh, after.2) := by
  rcases (organizeStep_ok_iff state after).mp stepped with ⟨event, decoded, organized, bounded⟩
  rw [organizeStep_ok_iff]
  rcases organizeEvent_ok state after operation.hash event organized with
    ⟨other, same⟩ | ⟨author, itemId, previous, json, entry, organization, rfl, held, current,
      before, parsed, same⟩
  · refine ⟨by rw [same, absent], event, decoded, ?_, bounded⟩
    cases event with
    | organizeCompositionV1 author itemId previous json =>
      exact absurd rfl (other author itemId previous json)
    | _ =>
      cases organized
      rfl
  · have differs : RetentionKey.mk author itemId ≠ key := by
      intro clash
      rw [clash, absent] at held
      cases held
    subst same
    refine ⟨(getElem?_insert_of_ne _ differs _).trans absent, _, decoded, ?_, bounded⟩
    rw [organizeEvent]
    simp only [getElem?_insert_of_ne _ (Ne.symm differs), held]
    rw [if_neg (by simp [current, before])]
    refine bind_eq_ok_iff.mpr ⟨organization, parsed, ?_⟩
    rw [insert_comm _ key ⟨author, itemId⟩ _ _ (Ne.symm differs)]

theorem organizeFold_beside (fresh : OrganizedComposition host) (start : OrganizationItems host)
    (absent : start[key]? = none) (order : List Operation) :
    ∀ found, organizeFold host cipher maxBytes causal start order = .ok found →
      found.1[key]? = none ∧
        organizeFold host cipher maxBytes causal (start.insert key fresh) order =
          .ok (found.1.insert key fresh, found.2) := by
  induction order using List.reverseRecOn with
  | nil =>
    intro found folded
    cases folded
    exact ⟨absent, rfl⟩
  | append_singleton front operation ih =>
    intro found folded
    rcases foldlM_append_singleton_eq_ok_iff.mp folded with ⟨middle, earlier, stepped⟩
    rcases ih middle earlier with ⟨missing, beside⟩
    rcases organizeStep_beside key fresh middle found missing stepped with ⟨still, step⟩
    exact ⟨still, foldlM_append_singleton_eq_ok_iff.mpr ⟨_, beside, step⟩⟩

theorem organizeEvent_causal {other : CausalIndex} (state : OrganizationItems host × Nat)
    (hash : Bytes32) (event : KnotSyncEvent)
    (agrees : ∀ earlier, causal.happensBefore earlier hash = other.happensBefore earlier hash) :
    organizeEvent host causal state hash event = organizeEvent host other state hash event := by
  cases event with
  | organizeCompositionV1 author itemId previous json =>
    rw [organizeEvent, organizeEvent, agrees previous]
  | _ => rfl

theorem organizeFold_causal {other : CausalIndex} (order : List Operation) :
    ∀ start : OrganizationItems host, (∀ operation ∈ order, ∀ earlier,
      causal.happensBefore earlier operation.hash =
        other.happensBefore earlier operation.hash) →
      ∀ found, organizeFold host cipher maxBytes causal start order = .ok found →
        organizeFold host cipher maxBytes other start order = .ok found := by
  induction order using List.reverseRecOn with
  | nil =>
    intro start _ found folded
    exact folded
  | append_singleton front operation ih =>
    intro start agrees found folded
    rcases foldlM_append_singleton_eq_ok_iff.mp folded with ⟨middle, earlier, stepped⟩
    have before := ih start (fun each member =>
      agrees each (List.mem_append_left _ member)) middle earlier
    rcases (organizeStep_ok_iff middle found).mp stepped with
      ⟨event, decoded, organized, bounded⟩
    rw [organizeEvent_causal middle operation.hash event
      (agrees operation (by simp))] at organized
    exact foldlM_append_singleton_eq_ok_iff.mpr ⟨middle, before,
      (organizeStep_ok_iff middle found).mpr ⟨event, decoded, organized, bounded⟩⟩

theorem retained_le_total (start : OrganizationItems host) (order : List Operation) :
    ∀ retained organized, retainFold host cipher maxItems maxBytes order = .ok retained →
      organizeFold host cipher maxBytes causal start order = .ok organized →
        retained.2 ≤ organized.2 ∧ organized.2 ≤ usizeMax := by
  induction order using List.reverseRecOn with
  | nil =>
    intro retained organized one two
    cases one
    cases two
    exact ⟨Nat.le_refl _, Nat.zero_le _⟩
  | append_singleton front operation ih =>
    intro retained organized one two
    rcases foldlM_append_singleton_eq_ok_iff.mp one with ⟨middle, earlier, stepped⟩
    rcases foldlM_append_singleton_eq_ok_iff.mp two with ⟨state, before, organizes⟩
    rcases ih middle state earlier before with ⟨less, small⟩
    rcases (organizeStep_ok_iff state organized).mp organizes with ⟨event, decoded, made, _⟩
    rcases organizeEvent_total state organized operation.hash event small made with
      ⟨grown, bounded⟩
    refine ⟨?_, bounded⟩
    rcases retainStep_ok middle retained stepped with
      ⟨_, same⟩ | ⟨itemJson, item, read, _, _, counted, _⟩
    · rw [same]
      exact Nat.le_trans less grown
    · cases decoded.symm.trans read
      cases made
      rw [counted]
      exact saturatingAdd_le _ _ _ less

end

end KnotEditor
