import KnotEditor.Library.PositionIndex
import KnotEditor.Reference.Pack

/-! The indexes of a checked pack, built in the pass that checks it, and what the check says about
the entries and relations that the indexes lead to. -/

namespace KnotEditor.Reference

open Fallible PositionIndex

structure IndexedPack where
  pack : NormalizedPack
  byId : Std.ExtTreeMap String Nat
  byLemma : Std.ExtTreeMap String (List Nat)

structure IndexTotals extends PackTotals where
  byId : Std.ExtTreeMap String Nat := ∅
  byLemma : Std.ExtTreeMap String (List Nat) := ∅

def indexEntry (manifest : SourceManifest) (limits : Limits) (totals : IndexTotals)
    (item : LexicalEntry × Nat) : Except ReferenceError IndexTotals :=
  (validateEntry manifest limits totals.toPackTotals item.1).map fun checked =>
    { checked with
      byId := place (fun entry => entry.id.entry) totals.byId item
      byLemma := note LexicalEntry.lemma_ totals.byLemma item }

def validateTarget (pack : NormalizedPack) (byId : Std.ExtTreeMap String Nat)
    (relation : LexicalRelation) : Except ReferenceError Unit := do
  requireFeature pack.manifest .relations
  validateReference relation.target
  match byId[relation.target.entry]?.bind fun index => pack.entries[index]? with
  | none => .error (.invalid "relation target is outside this pack or missing")
  | some target =>
    if relation.target.sourceKey ≠ pack.manifest.sourceKey then
      .error (.invalid "relation target is outside this pack or missing")
    relation.targetSense.forM fun sense => do
      identifier sense
      if target.senses.any fun candidate => candidate.id = sense then .ok ()
      else .error (.invalid "relation target sense is missing from target entry")

def validateTargets (host : PackHost) (pack : NormalizedPack) (byId : Std.ExtTreeMap String Nat)
    (entry : LexicalEntry) : Except ReferenceError Unit := do
  (entry.relations ++ entry.senses.flatMap LexicalSense.relations).forM (validateTarget pack byId)
  (entry.relations :: entry.senses.map LexicalSense.relations).forM (validateUnique host)

def indexPack (host : PackHost) (pack : NormalizedPack) (expectedDigest : Option String)
    (limits : Limits) : Except ReferenceError IndexedPack := do
  if pack.schemaVersion ≠ schemaVersion then .error (.invalid "unsupported pack schema")
  validateManifest pack.manifest limits
  match pack.manifest.digest with
  | none => .error (.invalid "installed pack requires a digest")
  | some digest =>
    expectedDigest.forM fun expected => do
      validateDigest expected
      if expected ≠ digest then .error .digestMismatch
    if limits.maxEntries < pack.entries.length then .error (.limit "entries")
    let totals ← pack.entries.zipIdx.foldlM (indexEntry pack.manifest limits) {}
    pack.entries.forM (validateTargets host pack totals.byId)
    let computed ← digestEntries host pack.entries
    if computed ≠ digest then .error .digestMismatch
    return ⟨pack, totals.byId, totals.byLemma⟩

def IndexedPack.fromJson (host : PackHost) (bytes : List UInt8)
    (expectedDigest : Option String) (limits : Limits) : Except ReferenceError IndexedPack :=
  if limits.maxPackBytes < bytes.length then .error (.limit "pack bytes")
  else if (fromUtf8 bytes).isNone then .error (.invalid "pack is not UTF-8")
  else do
    let pack ← (host.parsePack bytes).mapError .json
    indexPack host pack expectedDigest limits

def ValidatedPack.indexed (validated : ValidatedPack) : IndexedPack where
  pack := validated.pack
  byId := validated.pack.entries.zipIdx.foldl (place fun entry => entry.id.entry) ∅
  byLemma := validated.pack.entries.zipIdx.foldl (note LexicalEntry.lemma_) ∅

section Checking

variable {host : PackHost} {manifest : SourceManifest} {limits : Limits}

theorem foldlM_indexEntry (items : List (LexicalEntry × Nat)) (totals : IndexTotals) :
    items.foldlM (indexEntry manifest limits) totals =
      ((items.map Prod.fst).foldlM (validateEntry manifest limits) totals.toPackTotals).map
        fun checked => { checked with
          byId := items.foldl (place fun entry => entry.id.entry) totals.byId
          byLemma := items.foldl (note LexicalEntry.lemma_) totals.byLemma } := by
  induction items generalizing totals with
  | nil => rfl
  | cons item rest ih =>
    rw [List.foldlM_cons, List.map_cons, List.foldlM_cons, indexEntry]
    cases checked : validateEntry manifest limits totals.toPackTotals item.1 with
    | error error => rfl
    | ok seen => exact ih _

theorem validateEntry_ok {totals seen : PackTotals} {entry : LexicalEntry}
    (checked : validateEntry manifest limits totals entry = .ok seen) :
    entry.id.sourceKey = manifest.sourceKey ∧ entry.id.entry ∉ totals.ids ∧
      seen.ids = entry.id.entry :: totals.ids := by
  simp only [validateEntry, bind_eq_ok_iff, refuse_eq_ok_iff, Decidable.not_not] at checked
  obtain ⟨_, _, source, fresh, rest⟩ := checked
  obtain ⟨_, _, _, _, _, rest⟩ := rest
  obtain ⟨_, _, _, _, _, _, _, _, _, _, done⟩ := rest
  cases done
  exact ⟨source, fresh, rfl⟩

theorem foldlM_validateEntry_ok (entries : List LexicalEntry) (totals seen : PackTotals)
    (checked : entries.foldlM (validateEntry manifest limits) totals = .ok seen) :
    (∀ entry ∈ entries, entry.id.sourceKey = manifest.sourceKey ∧
      entry.id.entry ∉ totals.ids) ∧ (entries.map fun entry => entry.id.entry).Nodup := by
  induction entries generalizing totals with
  | nil => simp
  | cons entry rest ih =>
    rw [List.foldlM_cons, bind_eq_ok_iff] at checked
    obtain ⟨middle, first, later⟩ := checked
    obtain ⟨source, fresh, ids⟩ := validateEntry_ok first
    obtain ⟨others, distinct⟩ := ih middle later
    simp only [ids, List.mem_cons, not_or] at others
    refine ⟨?_, ?_⟩
    · intro other member
      rcases List.mem_cons.mp member with rfl | behind
      · exact ⟨source, fresh⟩
      · exact ⟨(others other behind).1, (others other behind).2.2⟩
    · rw [List.map_cons, List.nodup_cons]
      refine ⟨?_, distinct⟩
      intro again
      obtain ⟨other, behind, same⟩ := List.mem_map.mp again
      exact (others other behind).2.1 same

/-- What every validated pack has: one source throughout, each id once, and no relation that leads
out of it. -/
structure NormalizedPack.Checked (pack : NormalizedPack) : Prop where
  sources : ∀ entry ∈ pack.entries, entry.id.sourceKey = pack.manifest.sourceKey
  distinct : (pack.entries.map fun entry => entry.id.entry).Nodup
  targets : ∀ entry ∈ pack.entries,
    ∀ relation ∈ entry.relations ++ entry.senses.flatMap LexicalSense.relations,
      validateReference relation.target = .ok () ∧
        ∃ target ∈ pack.entries, target.id = relation.target ∧
          ∀ sense ∈ relation.targetSense, ∃ candidate ∈ target.senses, candidate.id = sense

theorem entry_at_id {pack : NormalizedPack}
    (distinct : (pack.entries.map fun entry => entry.id.entry).Nodup) (wanted : String) :
    ((pack.entries.zipIdx.foldl (place fun entry => entry.id.entry) ∅)[wanted]?.bind
        fun index => pack.entries[index]?) =
      pack.entries.find? fun entry => entry.id.entry = wanted := by
  cases found : pack.entries.find? fun entry => entry.id.entry = wanted with
  | none =>
    rw [Option.bind_eq_none_iff]
    intro index placed
    obtain ⟨entry, held, same⟩ := (position_iff _ _ _ distinct index).mp placed
    rw [List.find?_eq_none] at found
    exact absurd same (by simpa using found entry (List.mem_of_getElem? held))
  | some entry =>
    obtain ⟨index, bound, here⟩ := List.mem_iff_getElem.mp (List.mem_of_find?_eq_some found)
    have held : pack.entries[index]? = some entry := by rw [List.getElem?_eq_getElem bound, here]
    have same : entry.id.entry = wanted := by simpa using List.find?_some found
    rw [(position_iff _ _ _ distinct index).mpr ⟨entry, held, same⟩]
    exact held

theorem validateTargets_eq {pack : NormalizedPack}
    (distinct : (pack.entries.map fun entry => entry.id.entry).Nodup) :
    validateTargets host pack (pack.entries.zipIdx.foldl (place fun entry => entry.id.entry) ∅) =
      validateRelations host pack := by
  funext entry
  unfold validateTargets validateRelations
  congr 2
  funext relation
  unfold validateTarget validateRelation
  exact entry_at_id distinct relation.target.entry ▸ rfl

theorem indexPack_eq (pack : NormalizedPack) (expectedDigest : Option String) :
    indexPack host pack expectedDigest limits =
      (validatePack host pack expectedDigest limits).map ValidatedPack.indexed := by
  simp only [indexPack, validatePack]
  by_cases schema : pack.schemaVersion ≠ schemaVersion
  · simp only [if_pos schema]
    rfl
  · simp only [if_neg schema, map_bind]
    congr 1
    funext described
    cases pack.manifest.digest with
    | none => rfl
    | some digest =>
      simp only [map_bind]
      congr 1
      funext expected
      by_cases many : limits.maxEntries < pack.entries.length
      · simp only [if_pos many]
        rfl
      · simp only [if_neg many, map_bind, foldlM_indexEntry]
        have entries : pack.entries.zipIdx.map Prod.fst = pack.entries :=
          List.zipIdx_map_fst 0 pack.entries
        rw [entries]
        cases checked : pack.entries.foldlM (validateEntry pack.manifest limits) {} with
        | error error => rfl
        | ok totals =>
          have distinct := (foldlM_validateEntry_ok pack.entries _ _ checked).2
          simp only [Except.map, bind, Except.bind, validateTargets_eq distinct]
          congr 1
          funext related
          congr 1
          funext computed
          split <;> rfl

theorem IndexedPack.fromJson_eq (bytes : List UInt8) (expectedDigest : Option String) :
    IndexedPack.fromJson host bytes expectedDigest limits =
      (ValidatedPack.fromJson host bytes expectedDigest limits).map ValidatedPack.indexed := by
  unfold IndexedPack.fromJson ValidatedPack.fromJson
  split
  · rfl
  · split
    · rfl
    · rw [map_bind]
      congr 1
      funext pack
      exact indexPack_eq pack expectedDigest

theorem ReferenceId.eq_of_parts {first second : ReferenceId}
    (source : first.sourceKey = second.sourceKey) (entry : first.entry = second.entry) :
    first = second := by
  cases first
  cases second
  simp only [ReferenceId.sourceKey, SourceKey.mk.injEq] at source
  simp only [source, ReferenceId.mk.injEq, true_and]
  exact entry

theorem validateRelation_ok {pack : NormalizedPack} {relation : LexicalRelation}
    (sources : ∀ entry ∈ pack.entries, entry.id.sourceKey = pack.manifest.sourceKey)
    (checked : validateRelation pack relation = .ok ()) :
    validateReference relation.target = .ok () ∧
      ∃ target ∈ pack.entries, target.id = relation.target ∧
        ∀ sense ∈ relation.targetSense, ∃ candidate ∈ target.senses, candidate.id = sense := by
  simp only [validateRelation, then_eq_ok_iff] at checked
  obtain ⟨_, reference, followed⟩ := checked
  refine ⟨reference, ?_⟩
  cases found : pack.entries.find? fun entry => entry.id.entry = relation.target.entry with
  | none => simp only [found, reduceCtorEq] at followed
  | some target =>
    simp only [found, refuse_eq_ok_iff, Decidable.not_not] at followed
    obtain ⟨source, sense⟩ := followed
    have member := List.mem_of_find?_eq_some found
    have named : target.id.entry = relation.target.entry := by simpa using List.find?_some found
    have origin := (sources target member).trans source.symm
    refine ⟨target, member, ReferenceId.eq_of_parts origin named, ?_⟩
    intro wanted asked
    have present := option_forM_eq_ok_iff.mp sense wanted asked
    obtain ⟨_, present⟩ := then_eq_ok_iff.mp present
    split at present
    next among => simpa using among
    · cases present

theorem validatePack_checked {pack : NormalizedPack} {expectedDigest : Option String}
    {validated : ValidatedPack}
    (checked : validatePack host pack expectedDigest limits = .ok validated) :
    validated.pack.Checked := by
  simp only [validatePack, refuse_eq_ok_iff, then_eq_ok_iff] at checked
  obtain ⟨_, _, rest⟩ := checked
  cases declared : pack.manifest.digest with
  | none => simp only [declared, reduceCtorEq] at rest
  | some digest =>
    simp only [declared, refuse_eq_ok_iff, bind_eq_ok_iff] at rest
    obtain ⟨_, _, _, totals, entries, _, related, _, _, _, done⟩ := rest
    cases done
    obtain ⟨sources, distinct⟩ := foldlM_validateEntry_ok pack.entries _ _ entries
    refine ⟨?_, distinct, ?_⟩
    · intro entry member
      exact (sources entry member).1
    · intro entry member relation among
      have followed := forM_eq_ok_iff.mp related entry member
      obtain ⟨followed, _⟩ := then_eq_ok_iff.mp followed
      exact validateRelation_ok (fun entry member => (sources entry member).1)
        (forM_eq_ok_iff.mp followed relation among)

theorem ValidatedPack.fromJson_checked {bytes : List UInt8} {expectedDigest : Option String}
    {validated : ValidatedPack}
    (checked : ValidatedPack.fromJson host bytes expectedDigest limits = .ok validated) :
    validated.pack.Checked := by
  unfold ValidatedPack.fromJson at checked
  split at checked
  · cases checked
  · split at checked
    · cases checked
    · obtain ⟨pack, _, described⟩ := bind_eq_ok_iff.mp checked
      exact validatePack_checked described

theorem fromJson_of_parsed {bytes : List UInt8} {pack : NormalizedPack}
    {expectedDigest : Option String} (small : bytes.length ≤ limits.maxPackBytes)
    (decoded : (fromUtf8 bytes).isSome) (parsed : host.parsePack bytes = .ok pack) :
    ValidatedPack.fromJson host bytes expectedDigest limits =
      validatePack host pack expectedDigest limits := by
  rw [ValidatedPack.fromJson, if_neg (Nat.not_lt.mpr small), parsed]
  cases readable : fromUtf8 bytes with
  | none => simp [readable] at decoded
  | some text => rfl

theorem validatePack_of_checks {pack : NormalizedPack} {digest : String}
    (schema : pack.schemaVersion = schemaVersion)
    (manifest : validateManifest pack.manifest limits = .ok ())
    (declared : pack.manifest.digest = some digest)
    (few : pack.entries.length ≤ limits.maxEntries)
    (entries : (pack.entries.foldlM (validateEntry pack.manifest limits) {}).isOk = true)
    (related : pack.entries.forM (validateRelations host pack) = .ok ())
    (computed : digestEntries host pack.entries = .ok digest) :
    validatePack host pack none limits = .ok ⟨pack⟩ := by
  obtain ⟨totals, checked⟩ := isOk_iff.mp entries
  simp [validatePack, schema, manifest, declared, Nat.not_lt.mpr few, checked, related, computed,
    Option.forM, bind, Except.bind, pure, Except.pure]

end Checking

end KnotEditor.Reference
