import KnotEditor.Desktop.RecoveryCoverage

/-! What the window's operations and its syncs do to the invariant. -/

namespace KnotEditor.Desktop

open KeyedCollections WriteBehind

section Fingerprints

theorem digit_eq (one two : Nat) (same : UInt8.ofNat (one % 256) = UInt8.ofNat (two % 256)) :
    one % 256 = two % 256 := by
  have digits := congrArg UInt8.toNat same
  simpa [UInt8.toNat_ofNat'] using digits

theorem littleEndian64_injective (one two : Nat) (first : one ≤ usizeMax) (second : two ≤ usizeMax)
    (same : littleEndian64 one = littleEndian64 two) : one = two := by
  have digits : ∀ place ∈ List.range 8, one / 256 ^ place % 256 = two / 256 ^ place % 256 := by
    intro place member
    exact digit_eq _ _ (List.map_inj_left.mp same place member)
  have whole : ∀ value, value ≤ usizeMax → value = value / 256 ^ 0 % 256 +
      256 * (value / 256 ^ 1 % 256) + 256 ^ 2 * (value / 256 ^ 2 % 256) +
      256 ^ 3 * (value / 256 ^ 3 % 256) + 256 ^ 4 * (value / 256 ^ 4 % 256) +
      256 ^ 5 * (value / 256 ^ 5 % 256) + 256 ^ 6 * (value / 256 ^ 6 % 256) +
      256 ^ 7 * (value / 256 ^ 7 % 256) := by
    intro value bound
    simp only [usizeMax] at bound
    omega
  rw [whole one first, whole two second, digits 0 (by decide), digits 1 (by decide),
    digits 2 (by decide), digits 3 (by decide), digits 4 (by decide), digits 5 (by decide),
    digits 6 (by decide), digits 7 (by decide)]

theorem flag_injective (one two : Bool) (same : flag one = flag two) : one = two := by
  cases one <;> cases two <;> simp_all [flag]

theorem fingerprintBytes_injective (source other : String) (selection found : CaretSelection)
    (focused hinted : Bool)
    (anchor : selection.anchor ≤ usizeMax) (head : selection.head ≤ usizeMax)
    (otherAnchor : found.anchor ≤ usizeMax) (otherHead : found.head ≤ usizeMax)
    (same : fingerprintBytes source selection focused = fingerprintBytes other found hinted) :
    source = other ∧ selection = found := by
  simp only [fingerprintBytes] at same
  have front := (List.append_inj' same rfl).1
  have flags := List.append_inj' front rfl
  have heads := List.append_inj' flags.1 rfl
  have anchors := List.append_inj' heads.1 rfl
  have text : source.toUTF8 = other.toUTF8 := ByteArray.ext (Array.ext' anchors.1)
  have upstream := List.cons.inj flags.2
  refine ⟨String.toByteArray_inj.mp text, ?_⟩
  cases selection
  cases found
  congr 1
  · exact littleEndian64_injective _ _ anchor otherAnchor anchors.2
  · exact littleEndian64_injective _ _ head otherHead heads.2
  · exact flag_injective _ _ upstream.1
  · exact flag_injective _ _ (List.cons.inj upstream.2).1

end Fingerprints

section Log

variable {key : DocKey} {id : RecoveryId} {log : List RecoveryEvent} {event : RecoveryEvent}

theorem removedSince_append (key : DocKey) (id : RecoveryId) (log : List RecoveryEvent)
    (event : RecoveryEvent) :
    removedSince key id (log ++ [event]) =
      match event with
      | .offered other copy => removedSince key id log && !(other == key && copy == id)
      | .removed copy => removedSince key id log || copy == id
      | .uncleared copy => removedSince key id log || copy == id
      | _ => removedSince key id log := by
  rw [removedSince, List.foldl_append, List.foldl_cons, List.foldl_nil]
  rfl

theorem removedSince_later (removed : removedSince key id log = true)
    (other : event ≠ .offered key id) : removedSince key id (log ++ [event]) = true := by
  rw [removedSince_append]
  cases event with
  | offered asked copy =>
    by_cases same : asked = key
    · have differs : copy ≠ id := by
        rintro rfl
        exact other (congrArg (RecoveryEvent.offered · copy) same)
      simp [removed, differs]
    · simp [removed, same]
  | changed _ => exact removed
  | reported => exact removed
  | removed copy => simp [removed]
  | uncleared copy => simp [removed]

theorem removedSince_removed (key : DocKey) (id : RecoveryId) (log : List RecoveryEvent) :
    removedSince key id (log ++ [.removed id]) = true := by
  simp [removedSince_append]

theorem removedSince_uncleared (key : DocKey) (id : RecoveryId) (log : List RecoveryEvent) :
    removedSince key id (log ++ [.uncleared id]) = true := by
  simp [removedSince_append]

theorem reportedSince_reported (key : DocKey) (log : List RecoveryEvent) :
    reportedSince key (log ++ [.reported]) = true := by
  rw [reportedSince, List.foldl_append, List.foldl_cons, List.foldl_nil]

end Log

namespace DesktopRecovery

variable {host : RecoveryDigest} {accepted : List (Offer host)} {failed : List RecoveryId}
  {desk : DesktopRecovery host}

theorem Backed.mono {before after : RecoveryRuntime} {id : RecoveryId} {fingerprint : host.Digest}
    (backed : Backed before failed id fingerprint)
    (kept : ∀ record, before.latest id = some record →
      after.latest id = some record ∨ after.Failed id)
    (failing : before.Failed id → after.Failed id) : Backed after failed id fingerprint := by
  rcases backed with ⟨record, focused, held, same, bounds⟩ | told | known
  · rcases kept record held with still | lost
    · exact Or.inl ⟨record, focused, still, same, bounds⟩
    · exact Or.inr (Or.inl lost)
  · exact Or.inr (Or.inl (failing told))
  · exact Or.inr (Or.inr known)

theorem Sound.moved (sound : Sound accepted failed desk) {recovery : RecoveryRuntime}
    (orderly : recovery.Orderly)
    (kept : ∀ id record, desk.recovery.latest id = some record →
      recovery.latest id = some record ∨ recovery.Failed id)
    (failing : ∀ id, desk.recovery.Failed id → recovery.Failed id)
    (absent : ∀ id, desk.recovery.Absent id → recovery.Absent id) :
    Sound accepted failed { desk with recovery } where
  orderly := orderly
  keys := sound.keys
  distinct := sound.distinct
  named := sound.named
  backed := by
    intro key entry held others id fingerprint known remembered
    exact (sound.backed key entry held others id fingerprint known remembered).imp_right
      fun backed => backed.mono (kept id) (failing id)
  accepted := fun offer member => ⟨(sound.accepted offer member).held,
    (sound.accepted offer member).backed.mono (kept _) (failing _)⟩
  logged := by
    intro key id member
    refine ⟨(sound.logged key id member).1, ?_⟩
    intro entry held
    refine ((sound.logged key id member).2 entry held).imp_right ?_
    exact fun retired => ⟨absent id retired.absent, retired.unheld⟩

theorem Sound.carried (sound : Sound accepted failed desk) {recovery : RecoveryRuntime}
    (carried : desk.recovery.Carried recovery) :
    Sound accepted failed { desk with recovery } :=
  sound.moved carried.orderly carried.kept carried.failed carried.absent

structure Descends (before after : DesktopRecovery host) : Prop where
  recovery : after.recovery = before.recovery
  nextDoc : before.nextDoc ≤ after.nextDoc
  keys : ∀ (key : DocKey) entry, after.docs[key]? = some entry → key < after.nextDoc
  entries : ∀ (key : DocKey) entry, after.docs[key]? = some entry →
    (∃ was, before.docs[key]? = some was ∧ entry.recoveryId = was.recoveryId ∧
      (entry.recoveryFingerprint = none ∨
        entry.recoveryFingerprint = was.recoveryFingerprint)) ∨
    (before.nextDoc ≤ key ∧ entry.recoveryId = none ∧ entry.recoveryFingerprint = none)
  removed : ∀ key id, removedSince key id before.log = true → removedSince key id after.log = true
  offered : ∀ key id, .offered key id ∈ after.log → .offered key id ∈ before.log

theorem Descends.holder {before after : DesktopRecovery host} (descends : Descends before after)
    {key : DocKey} {entry : DocumentEntry host} {id : RecoveryId}
    (held : after.docs[key]? = some entry) (known : entry.recoveryId = some id) :
    ∃ was, before.docs[key]? = some was ∧ was.recoveryId = some id := by
  rcases descends.entries key entry held with ⟨was, before, same, _⟩ | ⟨_, none, _⟩
  · exact ⟨was, before, same.symm.trans known⟩
  · rw [none] at known
    cases known

theorem Sound.descends (sound : Sound [] failed desk) {after : DesktopRecovery host}
    (descends : Descends desk after) : Sound [] failed after where
  orderly := by
    rw [descends.recovery]
    exact sound.orderly
  keys := descends.keys
  distinct := by
    intro one two first second id left right known same
    rcases descends.holder left known with ⟨_, was, earlier⟩
    rcases descends.holder right same with ⟨_, were, before⟩
    exact sound.distinct one two _ _ id was were earlier before
  named := by
    intro key entry held remembered
    rcases descends.entries key entry held with ⟨was, before, same, forgot | kept⟩ | ⟨_, _, none⟩
    · rw [forgot] at remembered
      cases remembered
    · rw [same]
      exact sound.named key was before (kept ▸ remembered)
    · rw [none] at remembered
      cases remembered
  backed := by
    intro key entry held _ id fingerprint known remembered
    rw [descends.recovery]
    rcases descends.entries key entry held with ⟨was, before, same, forgot | kept⟩ | ⟨_, none, _⟩
    · rw [forgot] at remembered
      cases remembered
    · exact (sound.backed key was before (by simp) id fingerprint (same ▸ known)
        (kept ▸ remembered)).imp_left (descends.removed key id)
    · rw [none] at known
      cases known
  accepted := by simp
  logged := by
    intro key id member
    have earlier := sound.logged key id (descends.offered key id member)
    refine ⟨Nat.lt_of_lt_of_le earlier.1 descends.nextDoc, ?_⟩
    intro entry held
    rcases descends.entries key entry held with ⟨was, before, same, _⟩ | ⟨new, _⟩
    · rw [same]
      refine (earlier.2 was before).imp_right ?_
      rintro ⟨absent, unheld⟩
      refine ⟨descends.recovery ▸ absent, ?_⟩
      intro other found holding known
      rcases descends.holder holding known with ⟨_, once, knew⟩
      exact unheld other _ once knew
    · exact absurd earlier.1 (Nat.not_lt.mpr new)

theorem Sound.keyed (sound : Sound accepted failed desk) (key : DocKey) (change : DocumentEntry host → DocumentEntry host) :
    ∀ (query : DocKey) entry, (desk.docs.modify key change)[query]? = some entry →
      query < desk.nextDoc := by
  intro query entry held
  rcases held_of_modify _ _ _ held with ⟨was, before, _⟩
  exact sound.keys query was before

theorem Sound.edit (sound : Sound [] failed desk) (key : DocKey)
    (observation : RecoveryObservation) : Sound [] failed (desk.edit key observation) := by
  refine sound.descends ⟨rfl, Nat.le_refl _, sound.keyed key _, ?_, ?_, ?_⟩
  · intro query entry held
    rcases held_of_modify _ _ _ held with ⟨was, before, rfl⟩
    refine Or.inl ⟨was, before, ?_⟩
    split <;> exact ⟨rfl, Or.inr rfl⟩
  · exact fun query id removed => removedSince_later removed nofun
  · intro query id member
    simpa [DesktopRecovery.edit] using member

theorem Sound.refocus (sound : Sound [] failed desk) (focused : Option (Option DocKey)) :
    Sound [] failed (desk.refocus focused) :=
  sound.descends ⟨rfl, Nat.le_refl _, sound.keys, fun _ entry held =>
    Or.inl ⟨entry, held, rfl, Or.inr rfl⟩, fun _ _ removed => removed, fun _ _ member => member⟩

theorem Sound.openDocument (sound : Sound [] failed desk) (observation : RecoveryObservation) :
    Sound [] failed (desk.openDocument observation) := by
  have split : ∀ (key : DocKey) entry,
      (desk.openDocument observation).docs[key]? = some entry →
        (key = desk.nextDoc ∧ entry = { observation }) ∨ desk.docs[key]? = some entry := by
    intro key entry held
    by_cases new : desk.nextDoc = key
    · subst new
      rw [DesktopRecovery.openDocument, Std.ExtTreeMap.getElem?_insert_self] at held
      exact Or.inl ⟨rfl, (Option.some.inj held).symm⟩
    · rw [DesktopRecovery.openDocument, getElem?_insert_of_ne _ new] at held
      exact Or.inr held
  refine sound.descends ⟨rfl, Nat.le_succ _, ?_, ?_, ?_, ?_⟩
  · intro key entry held
    rcases split key entry held with ⟨rfl, _⟩ | before
    · exact Nat.lt_succ_self _
    · exact Nat.lt_succ_of_lt (sound.keys key entry before)
  · intro key entry held
    rcases split key entry held with ⟨rfl, rfl⟩ | before
    · exact Or.inr ⟨Nat.le_refl _, rfl, rfl⟩
    · exact Or.inl ⟨entry, before, rfl, Or.inr rfl⟩
  · exact fun query id removed => removedSince_later removed nofun
  · intro query id member
    simpa [DesktopRecovery.openDocument] using member

theorem held_of_erase {key query : DocKey} {entry : DocumentEntry host}
    (held : (desk.docs.erase key)[query]? = some entry) :
    key ≠ query ∧ desk.docs[query]? = some entry := by
  by_cases same : key = query
  · subst same
    rw [Std.ExtTreeMap.getElem?_erase_self] at held
    cases held
  · rw [getElem?_erase_of_ne _ same] at held
    exact ⟨same, held⟩

theorem Sound.closeDocument (sound : Sound [] failed desk) (key : DocKey) (refused : Bool) :
    Sound [] failed (desk.closeDocument key refused) := by
  rw [DesktopRecovery.closeDocument]
  split
  · exact sound
  · refine sound.descends ⟨rfl, Nat.le_refl _, ?_, ?_, fun _ _ removed => removed,
      fun _ _ member => member⟩
    · exact fun query entry held => sound.keys query entry (held_of_erase held).2
    · exact fun query entry held => Or.inl ⟨entry, (held_of_erase held).2, rfl, Or.inr rfl⟩

theorem Sound.reportError (sound : Sound [] failed desk) (message : String) :
    Sound [] failed (desk.reportError message) := by
  refine sound.descends ⟨rfl, Nat.le_refl _, sound.keys, ?_, ?_, ?_⟩
  · exact fun query entry held => Or.inl ⟨entry, held, rfl, Or.inr rfl⟩
  · exact fun query id removed => removedSince_later removed nofun
  · intro query id member
    simpa [DesktopRecovery.reportError] using member

theorem Sound.reportDrained (sound : Sound [] failed desk) (error : Option String) :
    Sound [] failed (desk.reportDrained error) := by
  cases error with
  | none => exact sound
  | some message => exact sound.reportError message

structure Alike (was entry : DocumentEntry host) : Prop where
  observation : entry.observation = was.observation
  recoveryCandidate : entry.recoveryCandidate = was.recoveryCandidate
  recoveryId : entry.recoveryId = was.recoveryId

theorem forgetFailed_alike {key : DocKey} {entry : DocumentEntry host} (failed : List RecoveryId)
    (held : (desk.forgetFailed failed).docs[key]? = some entry) :
    ∃ was, desk.docs[key]? = some was ∧ Alike was entry := by
  rw [forgetFailed, Std.ExtTreeMap.getElem?_map, Option.map_eq_some_iff] at held
  rcases held with ⟨was, before, rfl⟩
  refine ⟨was, before, ?_⟩
  split <;> exact ⟨rfl, rfl, rfl⟩

theorem Sound.forgetFailed (sound : Sound [] failed desk) :
    Sound [] [] (desk.forgetFailed failed) := by
  have split : ∀ (key : DocKey) entry, (desk.forgetFailed failed).docs[key]? = some entry →
      ∃ was, desk.docs[key]? = some was ∧ entry.recoveryId = was.recoveryId ∧
        (entry.recoveryFingerprint = none ∨
          entry.recoveryFingerprint = was.recoveryFingerprint ∧
            ∀ id, was.recoveryId = some id → id ∉ failed) := by
    intro key entry held
    rw [DesktopRecovery.forgetFailed, Std.ExtTreeMap.getElem?_map, Option.map_eq_some_iff] at held
    rcases held with ⟨was, before, rfl⟩
    refine ⟨was, before, ?_⟩
    by_cases known : was.recoveryId.any failed.contains = true
    · rw [if_pos known]
      exact ⟨rfl, Or.inl rfl⟩
    · rw [if_neg known]
      refine ⟨rfl, Or.inr ⟨rfl, ?_⟩⟩
      intro id same member
      exact known (by simp [same, member])
  have descends : Descends desk (desk.forgetFailed failed) := by
    refine ⟨rfl, Nat.le_refl _, ?_, ?_, fun _ _ removed => removed, fun _ _ member => member⟩
    · intro key entry held
      rcases split key entry held with ⟨was, before, _⟩
      exact sound.keys key was before
    · intro key entry held
      rcases split key entry held with ⟨was, before, same, remembered⟩
      exact Or.inl ⟨was, before, same, remembered.imp_right And.left⟩
  have kept := sound.descends descends
  refine ⟨kept.orderly, kept.keys, kept.distinct, kept.named, ?_, by simp, kept.logged⟩
  intro key entry held others id fingerprint known remembered
  rcases split key entry held with ⟨was, _, same, forgot | ⟨_, spared⟩⟩
  · rw [forgot] at remembered
    cases remembered
  · rcases kept.backed key entry held others id fingerprint known remembered with removed | backed
    · exact Or.inl removed
    · rcases backed with copy | failing | listed
      · exact Or.inr (Or.inl copy)
      · exact Or.inr (Or.inr (Or.inl failing))
      · exact absurd listed (spared id (same.symm.trans known))

theorem drained_failed {recovery : RecoveryRuntime} {id : RecoveryId}
    (failing : recovery.Failed id) : id ∈ recovery.drainError.1.2 := by
  rcases failing with ⟨message, member⟩
  exact List.mem_filterMap.mpr ⟨(some id, message), member, rfl⟩

theorem Sound.drain (sound : Sound accepted [] desk) :
    Sound accepted desk.recovery.drainError.1.2
      { desk with recovery := desk.recovery.drainError.2 } := by
  have known : ∀ (id : RecoveryId) (fingerprint : host.Digest),
      Backed desk.recovery [] id fingerprint →
        Backed desk.recovery.drainError.2 desk.recovery.drainError.1.2 id fingerprint := by
    rintro id fingerprint (copy | failing | listed)
    · exact Or.inl copy
    · exact Or.inr (Or.inr (drained_failed failing))
    · cases listed
  have orderly := sound.orderly
  refine ⟨⟨orderly.deferred, orderly.pending, orderly.stored, orderly.few,
    orderly.small, orderly.asked, orderly.replied⟩, sound.keys, sound.distinct, sound.named, ?_, ?_,
    ?_⟩
  · intro key entry held others id fingerprint same remembered
    exact (sound.backed key entry held others id fingerprint same remembered).imp_right
      (known id fingerprint)
  · exact fun offer member => ⟨(sound.accepted offer member).held,
      known _ _ (sound.accepted offer member).backed⟩
  · intro key id member
    refine ⟨(sound.logged key id member).1, fun entry held => ?_⟩
    refine ((sound.logged key id member).2 entry held).imp_right ?_
    rintro ⟨absent, unheld⟩
    exact ⟨⟨absent.deferred, absent.pending, absent.stored, absent.queued, absent.unclaimed⟩,
      unheld⟩

theorem Sound.cleared (sound : Sound [] failed desk) {recovery : RecoveryRuntime}
    {id : RecoveryId} {result : Except String Unit}
    (cleared : desk.recovery.Cleared recovery id result) {event : RecoveryEvent}
    (asked : event = .removed id ∨ event = .uncleared id) :
    Sound [] failed { desk with recovery, log := desk.log ++ [event] } := by
  have unoffered : ∀ key copy, event ≠ .offered key copy := by
    rcases asked with rfl | rfl <;> exact by intro _ _ held; cases held
  refine ⟨cleared.orderly, sound.keys, sound.distinct, sound.named, ?_, by simp, ?_⟩
  · intro key entry held others copy fingerprint known remembered
    by_cases same : id = copy
    · subst same
      refine Or.inl ?_
      rcases asked with rfl | rfl
      · exact removedSince_removed key id desk.log
      · exact removedSince_uncleared key id desk.log
    · rcases sound.backed key entry held others copy fingerprint known remembered with
        removed | backed
      · exact Or.inl (removedSince_later removed (unoffered key copy))
      · exact Or.inr (backed.mono (cleared.kept copy same) (cleared.failed copy))
  · intro key copy member
    have earlier := sound.logged key copy (by
      rcases List.mem_append.mp member with early | last
      · exact early
      · exact absurd (List.mem_singleton.mp last).symm (unoffered key copy))
    refine ⟨earlier.1, fun entry held => (earlier.2 entry held).imp_right ?_⟩
    exact fun retired => ⟨cleared.absent copy retired.absent, retired.unheld⟩

theorem removeCopy_cases (orderly : desk.recovery.Orderly) (failure : String) (id : RecoveryId)
    (wait : Wait) :
    ∃ recovery result, desk.recovery.Cleared recovery id result ∧
      ((result = .ok () ∧ desk.removeCopy failure id wait =
          (true, { desk with recovery, log := desk.log ++ [.removed id] })) ∨
        ∃ message, desk.removeCopy failure id wait = (false,
          ({ desk with recovery, log := desk.log ++ [.uncleared id] } :
            DesktopRecovery host).reportError message)) := by
  have cleared := RecoveryRuntime.clear_cleared orderly id wait
  rw [removeCopy]
  rcases waited : desk.recovery.clear id wait with ⟨result, recovery⟩
  rw [waited] at cleared
  refine ⟨recovery, result, cleared, ?_⟩
  cases result with
  | ok _ => exact Or.inl ⟨rfl, rfl⟩
  | error error => exact Or.inr ⟨_, rfl⟩

theorem Sound.removeCopy (sound : Sound [] failed desk) (failure : String) (id : RecoveryId)
    (wait : Wait) : Sound [] failed (desk.removeCopy failure id wait).2 := by
  rcases removeCopy_cases sound.orderly failure id wait with
    ⟨recovery, result, cleared, ⟨_, done⟩ | ⟨message, failing⟩⟩
  · rw [done]
    exact sound.cleared cleared (Or.inl rfl)
  · rw [failing]
    exact (sound.cleared cleared (Or.inr rfl)).reportError message

theorem Sound.forget (sound : Sound [] failed desk) {key : DocKey} {entry : DocumentEntry host}
    {id : RecoveryId} (held : desk.docs[key]? = some entry) (known : entry.recoveryId = some id)
    (absent : desk.recovery.Absent id) :
    Sound [] failed { desk with docs := desk.docs.modify key DocumentEntry.forget } := by
  have split : ∀ (query : DocKey) found,
      (desk.docs.modify key DocumentEntry.forget)[query]? = some found →
        (query = key ∧ found = entry.forget) ∨ (query ≠ key ∧ desk.docs[query]? = some found) := by
    intro query found holding
    rcases held_of_modify _ _ _ holding with ⟨was, before, rfl⟩
    by_cases same : key = query
    · subst same
      rw [held] at before
      cases before
      exact Or.inl ⟨rfl, if_pos rfl⟩
    · rw [if_neg same]
      exact Or.inr ⟨Ne.symm same, before⟩
  have holder : ∀ (query : DocKey) found copy,
      (desk.docs.modify key DocumentEntry.forget)[query]? = some found →
        found.recoveryId = some copy → query ≠ key ∧ desk.docs[query]? = some found := by
    intro query found copy holding knows
    rcases split query found holding with ⟨_, rfl⟩ | other
    · cases knows
    · exact other
  refine ⟨sound.orderly, sound.keyed key _, ?_, ?_, ?_, by simp, ?_⟩
  · intro one two first second copy left right knows same
    exact sound.distinct one two first second copy (holder one first copy left knows).2
      (holder two second copy right same).2 knows same
  · intro query found holding remembered
    rcases split query found holding with ⟨_, rfl⟩ | ⟨_, before⟩
    · cases remembered
    · exact sound.named query found before remembered
  · intro query found holding others copy fingerprint knows remembered
    exact sound.backed query found (holder query found copy holding knows).2 others copy fingerprint
      knows remembered
  · intro query copy member
    have earlier := sound.logged query copy member
    refine ⟨earlier.1, fun found holding => ?_⟩
    have retire : desk.Retired copy → Retired
        { desk with docs := desk.docs.modify key DocumentEntry.forget } copy := by
      rintro ⟨gone, unheld⟩
      exact ⟨gone, fun other holds has knows =>
        unheld other holds (holder other holds copy has knows).2 knows⟩
    rcases split query found holding with ⟨rfl, rfl⟩ | ⟨_, before⟩
    · refine Or.inr ?_
      rcases earlier.2 entry held with same | retired
      · rw [known] at same
        cases same
        refine ⟨absent, fun other holds has knows => ?_⟩
        rcases holder other holds id has knows with ⟨differs, was⟩
        exact differs (sound.distinct other query holds entry id was held knows known)
      · exact retire retired
    · exact (earlier.2 found before).imp_right retire

theorem clearRecoveryFor_cases (orderly : desk.recovery.Orderly) (key : DocKey) (wait : Wait) :
    ((∀ entry, desk.docs[key]? = some entry → entry.recoveryId = none) ∧
      desk.clearRecoveryFor key wait = desk) ∨
    ∃ entry id recovery result, desk.docs[key]? = some entry ∧ entry.recoveryId = some id ∧
      desk.recovery.Cleared recovery id result ∧
      ((result = .ok () ∧ desk.clearRecoveryFor key wait = { desk with
          docs := desk.docs.modify key DocumentEntry.forget
          recovery
          log := desk.log ++ [.removed id] }) ∨
        ∃ message, desk.clearRecoveryFor key wait =
          ({ desk with recovery, log := desk.log ++ [.uncleared id] } :
            DesktopRecovery host).reportError message) := by
  rw [DesktopRecovery.clearRecoveryFor]
  cases holding : desk.docs[key]?.bind DocumentEntry.recoveryId with
  | none =>
    refine Or.inl ⟨fun entry held => ?_, rfl⟩
    rw [held] at holding
    exact holding
  | some id =>
    rcases Option.bind_eq_some_iff.mp holding with ⟨entry, held, known⟩
    rcases removeCopy_cases orderly "Could not clear document recovery copy" id wait with
      ⟨recovery, result, cleared, outcome⟩
    refine Or.inr ⟨entry, id, recovery, result, held, known, cleared, ?_⟩
    simp only [clearRecoveryId]
    rcases outcome with ⟨ok, done⟩ | ⟨message, failing⟩
    · rw [done]
      exact Or.inl ⟨ok, rfl⟩
    · rw [failing]
      exact Or.inr ⟨message, rfl⟩

theorem Sound.clearRecoveryFor (sound : Sound [] failed desk) (key : DocKey) (wait : Wait) :
    Sound [] failed (desk.clearRecoveryFor key wait) := by
  rcases clearRecoveryFor_cases sound.orderly key wait with
    ⟨_, same⟩ | ⟨entry, id, recovery, result, held, known, cleared, ⟨ok, done⟩ | ⟨_, failing⟩⟩
  · rw [same]
    exact sound
  · rw [done]
    exact (sound.cleared cleared (Or.inl rfl)).forget held known (cleared.gone ok)
  · rw [failing]
    exact (sound.cleared cleared (Or.inr rfl)).reportError _

section Operations

structure Withdrawn (failed : List RecoveryId) (before after : DesktopRecovery host) : Prop where
  sound : Sound [] failed after
  absent : ∀ id, before.recovery.Absent id → after.recovery.Absent id
  holder : ∀ (key : DocKey) entry id, after.docs[key]? = some entry → entry.recoveryId = some id →
    ∃ was, before.docs[key]? = some was ∧ was.recoveryId = some id
  log : before.log <+: after.log

theorem Withdrawn.refl (sound : Sound [] failed desk) : Withdrawn failed desk desk :=
  ⟨sound, fun _ absent => absent, fun _ entry _ held known => ⟨entry, held, known⟩,
    List.prefix_rfl⟩

theorem Withdrawn.trans {first second third : DesktopRecovery host}
    (one : Withdrawn failed first second) (two : Withdrawn failed second third) :
    Withdrawn failed first third where
  sound := two.sound
  absent := fun id absent => two.absent id (one.absent id absent)
  holder := by
    intro key entry id held known
    rcases two.holder key entry id held known with ⟨middle, between, knew⟩
    exact one.holder key middle id between knew
  log := one.log.trans two.log

theorem Withdrawn.retired {before after : DesktopRecovery host}
    (withdrawn : Withdrawn failed before after) {id : RecoveryId} (retired : Retired before id) :
    Retired after id := by
  refine ⟨withdrawn.absent id retired.absent, fun key entry held known => ?_⟩
  rcases withdrawn.holder key entry id held known with ⟨was, before, knew⟩
  exact retired.unheld key was before knew

theorem withdrawn_fold {α : Type} {step : DesktopRecovery host → α → DesktopRecovery host}
    (each : ∀ desk item, Sound [] failed desk → Withdrawn failed desk (step desk item))
    (items : List α) (sound : Sound [] failed desk) :
    Withdrawn failed desk (items.foldl step desk) := by
  induction items generalizing desk with
  | nil => exact Withdrawn.refl sound
  | cons item rest ih => exact (each desk item sound).trans (ih (each desk item sound).sound)

theorem withdrawn_reportError (sound : Sound [] failed desk) (message : String) :
    Withdrawn failed desk (desk.reportError message) :=
  ⟨sound.reportError message, fun _ absent => absent,
    fun _ entry _ held known => ⟨entry, held, known⟩, List.prefix_append _ _⟩

theorem withdrawn_reportDrained (sound : Sound [] failed desk) (error : Option String) :
    Withdrawn failed desk (desk.reportDrained error) := by
  cases error with
  | none => exact Withdrawn.refl sound
  | some message => exact withdrawn_reportError sound message

theorem withdrawn_edit (sound : Sound [] failed desk) (key : DocKey)
    (observation : RecoveryObservation) :
    Withdrawn failed desk (desk.edit key observation) := by
  refine ⟨sound.edit key observation, fun _ absent => absent, ?_, List.prefix_append _ _⟩
  intro query entry id held known
  rcases held_of_modify _ _ _ held with ⟨was, before, rfl⟩
  refine ⟨was, before, ?_⟩
  split at known <;> exact known

theorem withdrawn_openDocument (sound : Sound [] failed desk)
    (observation : RecoveryObservation) :
    Withdrawn failed desk (desk.openDocument observation) := by
  refine ⟨sound.openDocument observation, fun _ absent => absent, ?_, List.prefix_append _ _⟩
  intro key entry id held known
  by_cases new : desk.nextDoc = key
  · subst new
    rw [DesktopRecovery.openDocument, Std.ExtTreeMap.getElem?_insert_self] at held
    cases held
    cases known
  · rw [DesktopRecovery.openDocument, getElem?_insert_of_ne _ new] at held
    exact ⟨entry, held, known⟩

theorem withdrawn_closeDocument (sound : Sound [] failed desk) (key : DocKey) (refused : Bool) :
    Withdrawn failed desk (desk.closeDocument key refused) := by
  have kept := sound.closeDocument key refused
  cases refused with
  | true => exact Withdrawn.refl sound
  | false =>
    exact ⟨kept, fun _ absent => absent,
      fun _ entry _ held known => ⟨entry, (held_of_erase held).2, known⟩, List.prefix_rfl⟩

theorem withdrawn_removeCopy (sound : Sound [] failed desk) (failure : String) (id : RecoveryId)
    (wait : Wait) : Withdrawn failed desk (desk.removeCopy failure id wait).2 := by
  have kept := sound.removeCopy failure id wait
  rcases removeCopy_cases sound.orderly failure id wait with
    ⟨recovery, result, cleared, ⟨_, done⟩ | ⟨message, failing⟩⟩
  · rw [done] at kept ⊢
    exact ⟨kept, cleared.absent, fun _ entry _ held known => ⟨entry, held, known⟩,
      List.prefix_append _ _⟩
  · rw [failing] at kept ⊢
    exact ⟨kept, cleared.absent, fun _ entry _ held known => ⟨entry, held, known⟩,
      (List.prefix_append _ _).trans (List.prefix_append _ _)⟩

theorem withdrawn_clearRecoveryFor (sound : Sound [] failed desk) (key : DocKey) (wait : Wait) :
    Withdrawn failed desk (desk.clearRecoveryFor key wait) := by
  have kept := sound.clearRecoveryFor key wait
  rcases clearRecoveryFor_cases sound.orderly key wait with
    ⟨_, same⟩ | ⟨_, _, recovery, result, _, _, cleared, ⟨_, done⟩ | ⟨_, failing⟩⟩
  · rw [same]
    exact Withdrawn.refl sound
  · rw [done] at kept ⊢
    refine ⟨kept, cleared.absent, ?_, List.prefix_append _ _⟩
    intro query entry id held known
    rcases held_of_modify _ _ _ held with ⟨was, before, rfl⟩
    refine ⟨was, before, ?_⟩
    split at known
    · cases known
    · exact known
  · rw [failing] at kept ⊢
    exact ⟨kept, cleared.absent, fun _ entry _ held known => ⟨entry, held, known⟩,
      (List.prefix_append _ _).trans (List.prefix_append _ _)⟩

theorem withdrawn_afterWake (sound : Sound [] [] desk) (retry : RecoveryId → List WriterStep)
    (drain : List WriterStep) : Withdrawn [] desk (desk.afterWake retry drain) := by
  have retried := RecoveryRuntime.retry_carried sound.orderly retry
  have worked := RecoveryRuntime.work_worked retried.orderly drain
  have carried := retried.trans worked.toCarried
  have forgot := (sound.carried carried).drain.forgetFailed
  have drained : Withdrawn [] desk
      ({ desk with recovery := ((desk.recovery.retry retry).work drain).drainError.2 }.forgetFailed
        ((desk.recovery.retry retry).work drain).drainError.1.2) := by
    refine ⟨forgot, ?_, ?_, List.prefix_rfl⟩
    · intro id absent
      have still := carried.absent id absent
      exact ⟨still.deferred, still.pending, still.stored, still.queued, still.unclaimed⟩
    · intro key entry id held known
      rcases forgetFailed_alike _ held with ⟨was, before, alike⟩
      exact ⟨was, before, alike.recoveryId ▸ known⟩
  exact drained.trans (withdrawn_reportDrained forgot _)

theorem withdrawn_pause (sound : Sound [] [] desk) (between : RecoveryPause) :
    Withdrawn [] desk (desk.pause between) := by
  cases between with
  | writer step =>
    have worked := RecoveryRuntime.writerStep_worked sound.orderly step
    exact ⟨sound.carried worked.toCarried, worked.absent,
      fun _ entry _ held known => ⟨entry, held, known⟩, List.prefix_rfl⟩
  | wake retry drain => exact withdrawn_afterWake sound retry drain

theorem withdrawn_save (sound : Sound [] failed desk) (key : DocKey)
    (saved : Option RecoveryObservation) (wait : Wait) :
    Withdrawn failed desk (desk.save key saved wait) := by
  cases saved with
  | none => exact Withdrawn.refl sound
  | some observation =>
    have edited := withdrawn_edit sound key { observation with dirty := false }
    exact edited.trans (withdrawn_clearRecoveryFor edited.sound key wait)

theorem withdrawn_requestClose (sound : Sound [] failed desk) (key : DocKey) (refused : Bool) :
    Withdrawn failed desk (desk.requestClose key refused) := by
  rw [DesktopRecovery.requestClose]
  split
  · exact Withdrawn.refl sound
  · split
    · exact Withdrawn.refl sound
    · exact withdrawn_closeDocument sound key refused

theorem withdrawn_perform (sound : Sound [] failed desk) (outcome : DiscardOutcome)
    (action : DiscardAction) : Withdrawn failed desk (desk.perform outcome action) := by
  cases action with
  | closeDocument key => exact withdrawn_closeDocument sound key _
  | closeSite pages =>
    exact withdrawn_fold (fun _ page before => withdrawn_closeDocument before page _) pages sound
  | quit => exact Withdrawn.refl sound
  | reload =>
    change Withdrawn failed desk (desk.reload outcome)
    rw [DesktopRecovery.reload]
    split
    · rename_i key observation _ _
      split
      · have opened := withdrawn_openDocument sound observation
        exact opened.trans (withdrawn_closeDocument opened.sound key _)
      · exact withdrawn_edit sound key _
    · exact Withdrawn.refl sound

theorem withdrawn_clearCopy (wait : DocKey → Wait) (copy : DocKey × RecoveryId)
    (sound : Sound [] failed desk) : Withdrawn failed desk (clearCopy wait desk copy) := by
  rw [clearCopy]
  split
  · exact Withdrawn.refl sound
  · exact withdrawn_removeCopy sound _ copy.2 (wait copy.1)

theorem withdrawn_clearCopies (wait : DocKey → Wait) (copies : List (DocKey × RecoveryId))
    (sound : Sound [] failed desk) :
    Withdrawn failed desk (copies.foldl (clearCopy wait) desk) :=
  withdrawn_fold (fun _ copy before => withdrawn_clearCopy wait copy before) copies sound

theorem withdrawn_clearEach (wait : DocKey → Wait) (keys : List DocKey)
    (sound : Sound [] failed desk) : Withdrawn failed desk
      (keys.foldl (fun desk key => desk.clearRecoveryFor key (wait key)) desk) :=
  withdrawn_fold (fun _ key before => withdrawn_clearRecoveryFor before key (wait key)) keys sound

theorem withdrawn_confirmDiscard (sound : Sound [] failed desk) (action : DiscardAction)
    (outcome : DiscardOutcome) (wait : DocKey → Wait) :
    Withdrawn failed desk (desk.confirmDiscard action outcome wait) := by
  have performed := withdrawn_perform sound outcome action
  cases action with
  | quit => exact withdrawn_clearEach wait _ sound
  | closeDocument key => exact performed.trans (withdrawn_clearCopies wait _ performed.sound)
  | closeSite pages => exact performed.trans (withdrawn_clearCopies wait _ performed.sound)
  | reload => exact performed.trans (withdrawn_clearCopies wait _ performed.sound)

theorem withdrawn_discardRecovery (sound : Sound [] failed desk) (id : RecoveryId)
    (refused : Bool) (wait : Wait) :
    Withdrawn failed desk (desk.discardRecovery id refused wait) := by
  have removed := withdrawn_removeCopy sound "Recovery discard failed" id wait
  rw [DesktopRecovery.discardRecovery]
  split
  · rename_i cleared done
    rw [done] at removed
    split
    · exact removed.trans (withdrawn_closeDocument removed.sound _ refused)
    · exact removed
  · rename_i waited failing
    rw [failing] at removed
    exact removed

theorem withdrawn_flushRecovery (sound : Sound [] failed desk)
    (retry : RecoveryId → List WriterStep) (wait : Wait) :
    Withdrawn failed desk (desk.flushRecovery retry wait) := by
  have moved : Withdrawn failed desk
      { desk with recovery := (desk.recovery.flush retry wait).2 } := by
    have retried := RecoveryRuntime.retry_carried sound.orderly retry
    have held : ∀ (key : DocKey) entry id, desk.docs[key]? = some entry →
        entry.recoveryId = some id → ∃ was, desk.docs[key]? = some was ∧
          was.recoveryId = some id := fun _ entry _ held known => ⟨entry, held, known⟩
    rw [RecoveryRuntime.flush]
    split
    · exact ⟨sound.carried retried, retried.absent, held, List.prefix_rfl⟩
    · have sent := RecoveryRuntime.await_sent retried.orderly .flush wait
        "recovery flush did not finish within three seconds" rfl
      have kept : ∀ id record, (desk.recovery.retry retry).latest id = some record → _ :=
        fun id record held => sent.kept id (by simp [Command.edit]) record held
      have absent : ∀ id, (desk.recovery.retry retry).Absent id → _ :=
        fun id absent => sent.absent id (by simp) absent
      exact ⟨(sound.carried retried).moved sent.orderly kept sent.failed absent,
        fun id gone => absent id (retried.absent id gone), held, List.prefix_rfl⟩
  rw [DesktopRecovery.flushRecovery]
  split
  · rename_i flushed done
    rw [done] at moved
    exact moved
  · rename_i error flushed failing
    rw [failing] at moved
    exact moved.trans (withdrawn_reportError moved.sound _)

theorem withdrawn_refocus (sound : Sound [] failed desk) (focused : Option (Option DocKey)) :
    Withdrawn failed desk (desk.refocus focused) :=
  ⟨sound.refocus focused, fun _ absent => absent,
    fun _ entry _ held known => ⟨entry, held, known⟩, List.prefix_rfl⟩

theorem withdrawn_operate (sound : Sound [] failed desk) (operation : DocumentOperation) :
    Withdrawn failed desk (desk.operate operation) := by
  cases operation with
  | edit key observation => exact withdrawn_edit sound key observation
  | focus key => exact withdrawn_refocus sound (some key)
  | openDocument observation => exact withdrawn_openDocument sound observation
  | save key saved wait => exact withdrawn_save sound key saved wait
  | close key refused => exact withdrawn_requestClose sound key refused
  | discard action outcome wait => exact withdrawn_confirmDiscard sound action outcome wait
  | discardRecovery id refused wait => exact withdrawn_discardRecovery sound id refused wait
  | flush retry wait => exact withdrawn_flushRecovery sound retry wait

theorem withdrawn_pauses (sound : Sound [] [] desk) (between : List RecoveryPause) :
    Withdrawn [] desk (between.foldl pause desk) :=
  withdrawn_fold (fun _ pause before => withdrawn_pause before pause) between sound

theorem Sound.operated (sound : Sound [] [] desk) (turn : RecoveryTurn) :
    Sound [] [] (desk.operated turn) :=
  (withdrawn_refocus (withdrawn_operate (withdrawn_pauses sound turn.before).sound
    turn.operation).sound turn.refocused).sound

end Operations

end DesktopRecovery

end KnotEditor.Desktop
