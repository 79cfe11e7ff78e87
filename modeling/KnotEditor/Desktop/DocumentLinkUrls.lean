import KnotEditor.Desktop.DocumentLinkPaths

/-! What both readers of a link make of its URL: the walk its decoded components take. -/

namespace KnotEditor.Desktop

open RelativeWalk
open FilePath (absolute relative components componentOf separator)

theorem rootDir_notMem_relative (names : List ByteArray) : .rootDir ∉ relative names := by
  simp [relative]

theorem steps_relative (names : List ByteArray) :
    (relative names).filterMap DocumentLinks.componentStep = names.map .down := by
  induction names with
  | nil => rfl
  | cons name rest ih => exact congrArg (Step.down name :: ·) ih

theorem relative_inj {first second : List ByteArray} (same : relative first = relative second) :
    first = second :=
  List.map_injective_iff.mpr (fun _ _ equal => PathComponent.normal.inj equal) same

theorem relative_append (here : List ByteArray) (name : ByteArray) :
    relative here ++ [.normal name] = relative (here ++ [name]) := by
  simp [relative]

theorem parent_relative (here : List ByteArray) :
    (relative here).parent = (step here .up).map relative := by
  induction here using List.reverseRecOn with
  | nil => rfl
  | append_singleton rest last ih =>
    rw [← relative_append, FilePath.parent, List.getLast?_concat, List.dropLast_concat]
    simp [step]

def textStep (text : String) : Option (Step ByteArray) :=
  if text = "" ∨ text = "." then none
  else if text = ".." then some .up
  else some (.down text.toUTF8)

namespace DocumentLinks

variable {codec : PercentCodec}

theorem resolveComponent_absolute (here : List ByteArray) (component : List Char) :
    resolveComponent codec (absolute here) component =
      (decodeComponent codec component).bind fun text =>
        (walk here (textStep text).toList).map absolute := by
  unfold resolveComponent
  refine congrArg (Option.bind (decodeComponent codec component)) (funext fun text => ?_)
  unfold textStep
  split
  · rfl
  · split
    · rw [parent_absolute, Option.toList_some, walk_cons]
      cases step here .up <;> rfl
    · rw [absolute_append]
      rfl

theorem walk_textSteps (here : List ByteArray) (text : String) (texts : List String) :
    walk here ((text :: texts).filterMap textStep) =
      (walk here (textStep text).toList).bind fun next => walk next (texts.filterMap textStep) := by
  rw [← walk_append]
  cases taken : textStep text <;> simp [taken]

theorem resolveComponents_absolute (here : List ByteArray) (segments : List (List Char)) :
    segments.foldlM (resolveComponent codec) (absolute here) =
      (segments.mapM (decodeComponent codec)).bind fun texts =>
        (walk here (texts.filterMap textStep)).map absolute := by
  induction segments generalizing here with
  | nil => rfl
  | cons first rest ih =>
    rw [List.foldlM_cons, List.mapM_cons, resolveComponent_absolute]
    cases decodeComponent codec first with
    | none => rfl
    | some text =>
      simp only [bind, pure, Option.bind_some, Option.bind_assoc]
      cases taken : walk here (textStep text).toList with
      | none =>
        cases rest.mapM (decodeComponent codec) with
        | none => rfl
        | some texts => simp [walk_textSteps, taken]
      | some next =>
        rw [Option.map_some, Option.bind_some, ih]
        cases rest.mapM (decodeComponent codec) with
        | none => rfl
        | some texts => simp [walk_textSteps, taken]

theorem decodeComponent_eq_some {component : List Char} {text : String}
    (decoded : decodeComponent codec component = some text) :
    PercentEncoding.malformed (utf8Bytes component) = false ∧
      codec.percentDecode (utf8Bytes component) = utf8Bytes text.toList ∧
      '/' ∉ text.toList ∧ Portable text.toUTF8 := by
  unfold decodeComponent at decoded
  simp only at decoded
  split at decoded
  · cases decoded
  next formed =>
    split at decoded
    · cases decoded
    next read =>
      split at decoded
      · cases decoded
      next accepted =>
        cases decoded
        simp only [Bool.or_eq_true, List.contains_iff_mem, List.any_eq_true, not_or,
          not_exists, not_and, Bool.not_eq_true] at accepted formed
        refine ⟨formed, fromUtf8_eq_some_iff.mp read, accepted.1.1, text, ?_,
          accepted.1.2, accepted.2⟩
        have valid := fromUtf8_utf8Bytes text.toList
        rw [fromUtf8, toByteArray_utf8Bytes, String.ofList_toList] at valid
        exact valid

theorem portable_of_walk {here there : List ByteArray} {segments : List (List Char)}
    {texts : List String} (portable : ∀ name ∈ here, Portable name)
    (decoded : segments.mapM (decodeComponent codec) = some texts)
    (arrives : walk here (texts.filterMap textStep) = some there) :
    ∀ name ∈ there, Portable name := by
  intro name member
  rcases mem_of_walk arrives member with known | below
  · exact portable name known
  · rcases List.mem_filterMap.mp below with ⟨text, inside, taken⟩
    have named : text.toUTF8 = name := by
      unfold textStep at taken
      split at taken
      · cases taken
      · split at taken <;> cases taken
        rfl
    rcases Fallible.exists_source_of_mapM_eq_some decoded text inside with ⟨segment, -, read⟩
    exact named ▸ (decodeComponent_eq_some read).2.2.2

theorem resolveLocal_eq_some_iff {source result : FilePath} {target : String}
    (placed : .rootDir ∉ source.tail) :
    resolveLocal codec source target = some result ↔
      ∃ names texts there, normalizedPath source = .ok (absolute names) ∧ names ≠ [] ∧
        refusesTarget (beforeFragment target) = false ∧
        ((beforeFragment target).splitOn '/').mapM (decodeComponent codec) = some texts ∧
        walk names.dropLast (texts.filterMap textStep) = some there ∧ result = absolute there := by
  unfold resolveLocal
  simp only [bind, Option.bind_eq_some_iff, Fallible.toOption_eq_some_iff]
  constructor
  · rintro ⟨normal, accepted, resolved⟩
    rcases normalizedPath_eq_ok placed accepted with ⟨names, -, rfl, fine⟩
    split at resolved
    · cases resolved
    next kept =>
      rcases Option.bind_eq_some_iff.mp resolved with ⟨parent, above, followed⟩
      rcases Option.bind_eq_some_iff.mp followed with ⟨reached, ran, clean⟩
      rw [parent_absolute] at above
      rcases Option.map_eq_some_iff.mp above with ⟨here, stepped, rfl⟩
      rcases step_up_eq_some stepped with ⟨nonempty, rfl⟩
      rw [resolveComponents_absolute] at ran
      rcases Option.bind_eq_some_iff.mp ran with ⟨texts, decoded, walked⟩
      rcases Option.map_eq_some_iff.mp walked with ⟨there, arrives, rfl⟩
      have portable := portable_of_walk
        (fun name member => (fine name (List.dropLast_subset _ member)).1) decoded arrives
      rw [normalizedPath_absolute portable] at clean
      cases clean
      exact ⟨names, texts, there, accepted, nonempty, by simpa using kept, decoded, arrives, rfl⟩
  · rintro ⟨names, texts, there, accepted, nonempty, kept, decoded, arrives, rfl⟩
    refine ⟨absolute names, accepted, ?_⟩
    rcases normalizedPath_eq_ok placed accepted with ⟨others, -, same, fine⟩
    cases absolute_inj same
    have portable := portable_of_walk
      (fun name member => (fine name (List.dropLast_subset _ member)).1) decoded arrives
    rw [kept, if_neg (by decide), parent_absolute, step_up nonempty, Option.map_some,
      Option.bind_some, resolveComponents_absolute, decoded, Option.bind_some, arrives,
      Option.map_some, Option.bind_some, normalizedPath_absolute portable]
    rfl

end DocumentLinks

namespace CatalogLinks

variable {codec : PercentCodec}

theorem cleanComponent_relative {component : PathComponent} (placed : component ≠ .rootDir)
    (here : List ByteArray) :
    cleanComponent (relative here) component =
      (walk here (DocumentLinks.componentStep component).toList).map relative := by
  cases component with
  | rootDir => exact absurd rfl placed
  | curDir => rfl
  | parentDir =>
    rw [cleanComponent, parent_relative, DocumentLinks.componentStep, Option.toList_some,
      walk_cons]
    cases step here .up <;> rfl
  | normal name =>
    rw [cleanComponent, relative_append]
    rfl

theorem cleanComponents_relative {path : FilePath} (placed : .rootDir ∉ path)
    (here : List ByteArray) :
    path.foldlM cleanComponent (relative here) =
      (walk here (path.filterMap DocumentLinks.componentStep)).map relative := by
  induction path generalizing here with
  | nil => rfl
  | cons first rest ih =>
    rw [List.mem_cons, not_or] at placed
    have joined : (first :: rest).filterMap DocumentLinks.componentStep =
        (DocumentLinks.componentStep first).toList ++
          rest.filterMap DocumentLinks.componentStep := by
      cases called : DocumentLinks.componentStep first <;> simp [called]
    rw [List.foldlM_cons, cleanComponent_relative (fun same => placed.1 same.symm), joined,
      walk_append]
    cases walk here (DocumentLinks.componentStep first).toList with
    | none => rfl
    | some next =>
      rw [Option.bind_some, ← ih placed.2]
      rfl

theorem componentStep_componentOf (text : String) :
    (componentOf (utf8Bytes text.toList)).bind DocumentLinks.componentStep = textStep text := by
  unfold componentOf textStep
  have none : text = "" ∨ text = "." ↔
      utf8Bytes text.toList = [] ∨ utf8Bytes text.toList = utf8Bytes ['.'] := by
    rw [utf8Bytes_eq_nil_iff, utf8Bytes_inj, ← String.toList_inj, ← String.toList_inj]
    rfl
  have up : text = ".." ↔ utf8Bytes text.toList = utf8Bytes ['.', '.'] := by
    rw [utf8Bytes_inj, ← String.toList_inj]
    rfl
  split
  next blank => rw [if_pos (none.mpr blank), Option.bind_none]
  next named =>
    rw [if_neg (none.not.mpr named)]
    split
    next above => rw [if_pos (up.mpr above), Option.bind_some]; rfl
    next below =>
      rw [if_neg (up.not.mpr below), Option.bind_some, toByteArray_utf8Bytes]
      rfl

theorem percentDecode_segments (documented : codec.Documented) {segments : List (List Char)}
    {texts : List String}
    (decoded : segments.mapM (DocumentLinks.decodeComponent codec) = some texts) :
    codec.percentDecode (utf8Bytes (['/'].intercalate segments)) =
      utf8Bytes (['/'].intercalate (texts.map String.toList)) := by
  have pieces : (segments.map utf8Bytes).map PercentEncoding.decode =
      (texts.map String.toList).map utf8Bytes := by
    induction segments generalizing texts with
    | nil =>
      cases decoded
      rfl
    | cons first rest ih =>
      rcases Fallible.mapM_cons_eq_some_iff.mp decoded with ⟨head, tail, began, others, rfl⟩
      rw [List.map_cons, List.map_cons, List.map_cons, List.map_cons, ih others,
        ← (DocumentLinks.decodeComponent_eq_some began).2.1, documented.decodes]
  have formed : ∀ piece ∈ segments.map utf8Bytes, PercentEncoding.malformed piece = false := by
    intro piece member
    rcases List.mem_map.mp member with ⟨segment, inside, rfl⟩
    rcases Fallible.exists_of_mapM_eq_some decoded segment inside with ⟨text, -, read⟩
    exact (DocumentLinks.decodeComponent_eq_some read).1
  rw [documented.decodes, utf8Bytes_intercalate, utf8Bytes_intercalate,
    PercentEncoding.decode_intercalate (by decide) formed, pieces]

theorem head_of_decoded (documented : codec.Documented) {raw : List Char} {texts : List String}
    (nonempty : raw ≠ []) (unrooted : raw.head? ≠ some '/')
    (decoded : (raw.splitOn '/').mapM (DocumentLinks.decodeComponent codec) = some texts) :
    ∃ head tail, texts = head :: tail ∧ head.toList ≠ [] := by
  cases pieces : raw.splitOn '/' with
  | nil => exact absurd pieces (List.splitOn_ne_nil '/' raw)
  | cons first rest =>
    rw [pieces] at decoded
    rcases Fallible.mapM_cons_eq_some_iff.mp decoded with ⟨head, tail, began, -, rfl⟩
    refine ⟨head, tail, rfl, ?_⟩
    intro blank
    have read := (DocumentLinks.decodeComponent_eq_some began).2.1
    rw [documented.decodes, blank, utf8Bytes_nil, PercentEncoding.decode_eq_nil_iff,
      utf8Bytes_eq_nil_iff] at read
    subst read
    have whole : ['/'].intercalate (raw.splitOn '/') = raw := List.intercalate_splitOn '/'
    rw [pieces] at whole
    cases rest with
    | nil => exact nonempty (by rw [← whole, List.intercalate_singleton])
    | cons second others =>
      rw [List.intercalate_cons_cons] at whole
      exact unrooted (by rw [← whole]; rfl)

theorem rawPath_eq {names : List ByteArray} {head : String} {tail : List String}
    (named : head.toList ≠ []) (plain : ∀ text ∈ head :: tail, '/' ∉ text.toList) :
    rawPath (relative names) (String.ofList (['/'].intercalate ((head :: tail).map String.toList))) =
      relative names.dropLast ++
        (head :: tail).filterMap fun text => componentOf (utf8Bytes text.toList) := by
  have base : (relative names).parent.getD [] = relative names.dropLast := by
    rw [parent_relative]
    cases names <;> rfl
  have begins : ∃ first rest, ['/'].intercalate ((head :: tail).map String.toList) =
      first :: rest ∧ first ≠ '/' := by
    cases letters : head.toList with
    | nil => exact absurd letters named
    | cons first others =>
      have differs : first ≠ '/' := by
        rintro rfl
        exact plain head List.mem_cons_self (letters ▸ List.mem_cons_self)
      cases tail with
      | nil => exact ⟨first, others, by simp [letters], differs⟩
      | cons second more =>
        rw [List.map_cons, List.map_cons, List.intercalate_cons_cons, letters]
        exact ⟨first, _, rfl, differs⟩
  rcases begins with ⟨first, rest, whole, differs⟩
  have unrooted : (utf8Bytes (['/'].intercalate ((head :: tail).map String.toList))).head? ≠
      some separator := by
    intro rooted
    rw [whole, utf8Bytes_cons] at rooted
    have member : separator ∈ String.utf8EncodeChar first := by
      cases bytes : String.utf8EncodeChar first with
      | nil => exact absurd bytes String.utf8EncodeChar_ne_nil
      | cons byte others =>
        rw [bytes] at rooted
        exact Option.some_inj.mp rooted ▸ List.mem_cons_self
    exact differs (Char.toNat_inj.mp (mem_utf8EncodeChar_ascii member (by decide)))
  have pieces : (utf8Bytes (['/'].intercalate ((head :: tail).map String.toList))).splitOn
      separator = ((head :: tail).map String.toList).map utf8Bytes := by
    rw [utf8Bytes_intercalate]
    refine List.splitOn_intercalate separator ?_ (by simp)
    intro piece member
    rw [List.map_map] at member
    rcases List.mem_map.mp member with ⟨text, inside, rfl⟩
    exact separator_notMem_utf8Bytes (plain text inside)
  unfold rawPath
  rw [String.toList_ofList]
  split
  next same =>
    rw [whole, List.cons.injEq] at same
    exact absurd same.1 differs
  · rw [FilePath.join_components _ unrooted, base, pieces, List.map_map, List.filterMap_map]
    rfl

theorem resolveLocal_eq_walk (documented : codec.Documented) {names : List ByteArray}
    {target : String} {texts : List String}
    (tidy : trim (String.ofList (beforeFragment target)) = String.ofList (beforeFragment target))
    (admitted : refusesTarget (String.ofList (beforeFragment target)) = false)
    (unrooted : (beforeFragment target).head? ≠ some '/')
    (decoded : ((beforeFragment target).splitOn '/').mapM (DocumentLinks.decodeComponent codec) =
      some texts) :
    resolveLocal codec (relative names) target =
      (walk names.dropLast (texts.filterMap textStep)).map relative := by
  have nonempty : beforeFragment target ≠ [] := by
    intro blank
    rw [blank] at admitted
    cases admitted
  have bytes := percentDecode_segments documented decoded
  rw [List.intercalate_splitOn] at bytes
  rcases head_of_decoded documented nonempty unrooted decoded with ⟨head, tail, rfl, named⟩
  have plain : ∀ text ∈ head :: tail, '/' ∉ text.toList := by
    intro text member
    rcases Fallible.exists_source_of_mapM_eq_some decoded text member with ⟨segment, -, read⟩
    exact (DocumentLinks.decodeComponent_eq_some read).2.2.1
  have placed : .rootDir ∉ relative names.dropLast ++
      (head :: tail).filterMap fun text => componentOf (utf8Bytes text.toList) := by
    rw [List.mem_append, not_or]
    refine ⟨rootDir_notMem_relative _, fun member => ?_⟩
    rcases List.mem_filterMap.mp member with ⟨text, -, root⟩
    exact FilePath.componentOf_ne_rootDir _ root
  have steps : (relative names.dropLast ++ (head :: tail).filterMap fun text =>
      componentOf (utf8Bytes text.toList)).filterMap DocumentLinks.componentStep =
        names.dropLast.map .down ++ (head :: tail).filterMap textStep := by
    rw [List.filterMap_append, steps_relative, List.filterMap_filterMap,
      funext componentStep_componentOf]
  unfold resolveLocal
  simp only [tidy, admitted, String.toList_ofList, bytes, fromUtf8_utf8Bytes]
  have cleaned := cleanComponents_relative placed []
  rw [steps, walk_append, walk_down, List.nil_append, Option.bind_some] at cleaned
  exact (congrArg (List.foldlM cleanComponent []) (rawPath_eq named plain)).trans cleaned

end CatalogLinks

end KnotEditor.Desktop
