import KnotEditor.Reference.PackIndex
import KnotEditor.Reference.Registry

/-! Lookups in a registry: through the indexes of its enabled packs, up to a limit over all. -/

namespace KnotEditor.Reference

open Fallible PositionIndex

structure LookupQuery where
  lemma_ : String
  language : Option String
  sources : List SourceKey

inductive LookupError
  | refused (error : ReferenceError)
  | underflow
  | outOfBounds
  deriving DecidableEq

def otherLanguage (lang : Option String) (entry : LexicalEntry) : Bool :=
  lang.any fun value => value != entry.language

def collect (entries : List LexicalEntry) (lang : Option String) (limit : Nat) :
    List Nat → List LexicalEntry → Except LookupError (List LexicalEntry)
  | [], result => .ok result
  | index :: rest, result =>
    match entries[index]? with
    | none => .error .outOfBounds
    | some entry =>
      if otherLanguage lang entry then collect entries lang limit rest result
      else if result.length = limit then .ok result
      else collect entries lang limit rest (result ++ [entry])

namespace IndexedPack

variable (indexed : IndexedPack)

def lookup (lemma_ : String) (lang : Option String) (limit : Nat) :
    Except LookupError (List LexicalEntry) :=
  collect indexed.pack.entries lang limit (indexed.byLemma[lemma_]?.getD []) []

def entry (id : ReferenceId) : Except LookupError (Option LexicalEntry) :=
  if id.sourceKey ≠ indexed.pack.manifest.sourceKey then .ok none
  else match indexed.byId[id.entry]? with
    | none => .ok none
    | some index =>
      match indexed.pack.entries[index]? with
      | none => .error .outOfBounds
      | some found => .ok (some found)

end IndexedPack

def remaining (limit length : Nat) : Except LookupError Nat :=
  if length ≤ limit then .ok (limit - length) else .error .underflow

def refuse (checked : Except ReferenceError Unit) : Except LookupError Unit :=
  checked.mapError .refused

namespace SourceRegistry

variable (registry : SourceRegistry)

def isEnabled (key : SourceKey) : Bool := registry.sources[key]?.any StoredSource.enabled

def lookupSource (query : LookupQuery) (limit : Nat)
    (state : List SourceKey × List LexicalEntry) (key : SourceKey) :
    Except LookupError (List SourceKey × List LexicalEntry) := do
  refuse (identifier key.source)
  refuse (versionIdentifier key.version)
  if key ∈ state.1 then .error (.refused (.invalid "duplicate query source"))
  if !registry.isEnabled key then return (key :: state.1, state.2)
  match registry.packs[key]? with
  | none => return (key :: state.1, state.2)
  | some pack =>
    let room ← remaining limit state.2.length
    let found ← pack.indexed.lookup query.lemma_ query.language room
    return (key :: state.1, state.2 ++ found)

def lookup (query : LookupQuery) (limit : Nat) : Except LookupError (List LexicalEntry) := do
  refuse (text query.lemma_ registry.limits.maxLemmaBytes)
  query.language.forM fun value => refuse (language value)
  if registry.limits.maxLookupResults < limit then
    .error (.refused (.limit "lookup results"))
  if registry.limits.maxQuerySources < query.sources.length then
    .error (.refused (.limit "query sources"))
  let done ← query.sources.foldlM (registry.lookupSource query limit) ([], [])
  return done.2

def entry (id : ReferenceId) : Except LookupError (Option LexicalEntry) := do
  refuse (validateReference id)
  if !registry.isEnabled id.sourceKey then return none
  match registry.packs[id.sourceKey]? with
  | none => return none
  | some pack => pack.indexed.entry id

end SourceRegistry

end KnotEditor.Reference
