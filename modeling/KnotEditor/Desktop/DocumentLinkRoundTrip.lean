import KnotEditor.Desktop.DocumentLinkUrls
import KnotEditor.Readings.LinkScan
import Mathlib.Data.List.TakeWhile

/-! The link written from one file to another leads back to the other file, for both readers of
links, and its markup is scanned as that link alone. -/

namespace KnotEditor.Desktop.DocumentLinks

open RelativeWalk
open FilePath (absolute relative components componentOf separator IsName)

variable {codec : PercentCodec}

def segment : Step ByteArray → List Char
  | .up => ['.', '.']
  | .down name => asciiText (PercentEncoding.encode pathComponent name.data.toList)

def isUrlCharacter (character : Char) : Bool :=
  let code := character.toNat
  (45 ≤ code && code ≤ 57) || (65 ≤ code && code ≤ 90) || (97 ≤ code && code ≤ 122) ||
    code == 95 || code == 126 || code == 37

section Characters

theorem encoded_byte {bytes : List UInt8} {byte : UInt8}
    (member : byte ∈ PercentEncoding.encode pathComponent bytes) :
    byte.toNat < 128 ∧ (byte = PercentEncoding.percent ∨ pathComponent byte = false) := by
  rcases PercentEncoding.mem_encode member with rfl | ⟨value, small, rfl⟩ | ⟨ascii, kept⟩
  · exact ⟨by decide, Or.inl rfl⟩
  · have every : ∀ digit < 16, (PercentEncoding.hexDigit digit).toNat < 128 ∧
        pathComponent (PercentEncoding.hexDigit digit) = false := by decide
    exact ⟨(every value small).1, Or.inr (every value small).2⟩
  · exact ⟨ascii, Or.inr kept⟩

theorem toNat_ofNat_ascii {code : Nat} (ascii : code < 128) : (Char.ofNat code).toNat = code := by
  have every : ∀ small < 128, (Char.ofNat small).toNat = small := by decide
  exact every code ascii

theorem utf8Bytes_asciiText {bytes : List UInt8} (ascii : ∀ byte ∈ bytes, byte.toNat < 128) :
    utf8Bytes (asciiText bytes) = bytes := by
  induction bytes with
  | nil => rfl
  | cons byte rest ih =>
    rw [List.forall_mem_cons] at ascii
    have code := toNat_ofNat_ascii ascii.1
    rw [asciiText, List.map_cons, utf8Bytes_cons, utf8EncodeChar_ascii (by omega), code,
      UInt8.ofNat_toNat]
    exact congrArg (byte :: ·) (ih ascii.2)

theorem segment_character {step : Step ByteArray} {character : Char}
    (member : character ∈ segment step) : isUrlCharacter character = true ∧ character ≠ '/' := by
  cases step with
  | up =>
    have dot : character = '.' := by simpa [segment] using member
    rw [dot]
    decide
  | down name =>
    rcases List.mem_map.mp member with ⟨byte, inside, rfl⟩
    rcases encoded_byte inside with ⟨ascii, kept⟩
    have code := toNat_ofNat_ascii ascii
    have allowed : isUrlCharacter (Char.ofNat byte.toNat) = true ∧ byte.toNat ≠ 47 := by
      unfold isUrlCharacter
      rw [code]
      rcases kept with rfl | kept
      · decide
      · simp [pathComponent] at kept
        simp
        omega
    refine ⟨allowed.1, fun slash => allowed.2 ?_⟩
    rw [← code, slash]
    rfl

end Characters

section Segments

theorem decodeComponent_dots (documented : codec.Documented) {component : List Char}
    (dots : component = [] ∨ component = ['.'] ∨ component = ['.', '.']) :
    decodeComponent codec component = some (String.ofList component) := by
  have formed : PercentEncoding.malformed (utf8Bytes component) = false := by
    rcases dots with rfl | rfl | rfl <;> rfl
  have same : PercentEncoding.decode (utf8Bytes component) = utf8Bytes component := by
    rcases dots with rfl | rfl | rfl <;> rfl
  have plain : (component.contains '/' || component.contains '\\' ||
      component.any isControl) = false := by
    rcases dots with rfl | rfl | rfl <;> rfl
  unfold decodeComponent
  simp only [formed, documented.decodes, same, fromUtf8_utf8Bytes, String.toList_ofList, plain]
  rfl

theorem decodeComponent_segment (documented : codec.Documented) {name : ByteArray} {text : String}
    (named : IsName name) (read : String.fromUTF8? name = some text)
    (plain : '\\' ∉ text.toList)
    (printable : ∀ character ∈ text.toList, isControl character = false) :
    decodeComponent codec (segment (.down name)) = some text := by
  have encoded : utf8Bytes (segment (.down name)) =
      PercentEncoding.encode pathComponent name.data.toList :=
    utf8Bytes_asciiText fun byte member => (encoded_byte member).1
  have escaped : pathComponent PercentEncoding.percent = true := by decide
  have formed := PercentEncoding.malformed_encode escaped name.data.toList
  have same := PercentEncoding.decode_encode escaped name.data.toList
  have decoded : fromUtf8 name.data.toList = some text :=
    (fromUtf8_toList name).trans read
  have slashless : '/' ∉ text.toList := by
    intro slash
    rw [fromUtf8_eq_some_iff] at decoded
    refine named.1 (decoded ▸ List.mem_flatMap.mpr ⟨'/', slash, ?_⟩)
    decide
  have accepted : (text.toList.contains '/' || text.toList.contains '\\' ||
      text.toList.any isControl) = false := by
    simp [slashless, plain]
    exact printable
  unfold decodeComponent
  simp only [encoded, formed, documented.decodes, same, decoded, accepted]
  rfl

theorem textStep_name {name : ByteArray} {text : String} (named : IsName name)
    (read : String.fromUTF8? name = some text) : textStep text = some (.down name) := by
  have decoded : fromUtf8 name.data.toList = some text :=
    (fromUtf8_toList name).trans read
  rw [fromUtf8_eq_some_iff] at decoded
  have step := CatalogLinks.componentStep_componentOf text
  rw [← decoded, named.2] at step
  exact step.symm

theorem decode_segments (documented : codec.Documented) {steps : List (Step ByteArray)}
    (names : ∀ name, .down name ∈ steps → IsName name ∧ Portable name) :
    ∃ texts, (steps.map segment).mapM (decodeComponent codec) = some texts ∧
      texts.filterMap textStep = steps := by
  induction steps with
  | nil => exact ⟨[], rfl, rfl⟩
  | cons first rest ih =>
    rcases ih fun name member => names name (List.mem_cons_of_mem _ member) with
      ⟨texts, decoded, walked⟩
    have began : ∃ text, decodeComponent codec (segment first) = some text ∧
        textStep text = some first := by
      cases first with
      | up => exact ⟨"..", decodeComponent_dots documented (Or.inr (Or.inr rfl)), rfl⟩
      | down name =>
        rcases names name List.mem_cons_self with ⟨named, text, read, plain, printable⟩
        exact ⟨text, decodeComponent_segment documented named read plain printable,
          textStep_name named read⟩
    rcases began with ⟨text, head, taken⟩
    refine ⟨text :: texts, Fallible.mapM_cons_eq_some_iff.mpr ⟨text, texts, head, decoded, rfl⟩, ?_⟩
    rw [List.filterMap_cons_some taken, walked]

end Segments

section Urls

def urlText (segments : List (List Char)) : List Char :=
  let url := ['/'].intercalate segments
  if ['.', '.', '/'] <+: url then url else ['.', '/'] ++ url

theorem commonLength_absolute (here there : List ByteArray) :
    commonLength (absolute here) (absolute there) = shared here there + 1 := by
  have names : ∀ here there : List ByteArray,
      commonLength (here.map .normal) (there.map .normal) = shared here there := by
    intro here
    induction here with
    | nil => intro there; rfl
    | cons name rest ih =>
      intro there
      cases there with
      | nil => rfl
      | cons other others =>
        by_cases same : name = other
        · subst same
          rw [shared_cons, ← ih others]
          simp [commonLength]
        · simp [commonLength, shared, same]
  have rooted : commonLength (absolute here) (absolute there) =
      commonLength (here.map .normal) (there.map .normal) + 1 := by
    simp [commonLength, absolute]
  rw [rooted, names]

theorem encodeComponents (documented : codec.Documented) {names : List ByteArray}
    (portable : ∀ name ∈ names, Portable name) :
    (names.map .normal).mapM (encodeComponent codec) =
      .ok (names.map fun name => segment (.down name)) := by
  induction names with
  | nil => rfl
  | cons name rest ih =>
    rw [List.forall_mem_cons] at portable
    rcases portable.1 with ⟨text, read, -⟩
    have bytes := fromUtf8_eq_some_iff.mp ((fromUtf8_toList name).trans read)
    have encoded : encodeComponent codec (.normal name) = .ok (segment (.down name)) := by
      rw [encodeComponent, read, segment, bytes, ← documented.encodes]
    rw [List.map_cons, List.mapM_cons, encoded, ih portable.2]
    rfl

theorem relativeUrl_eq_ok (documented : codec.Documented) {source target : FilePath} {url : String}
    (sourcePlaced : .rootDir ∉ source.tail) (targetPlaced : .rootDir ∉ target.tail)
    (linked : relativeUrl codec source target = .ok url) :
    ∃ here there, normalizedPath source = .ok (absolute here) ∧ here ≠ [] ∧
      normalizedPath target = .ok (absolute there) ∧
      url = String.ofList (urlText ((route here.dropLast there).map segment)) := by
  unfold relativeUrl at linked
  rcases Fallible.bind_eq_ok_iff.mp linked with ⟨normalSource, sourceAccepted, afterSource⟩
  rcases Fallible.bind_eq_ok_iff.mp afterSource with ⟨normalTarget, targetAccepted, rest⟩
  rcases normalizedPath_eq_ok sourcePlaced sourceAccepted with ⟨here, -, rfl, -⟩
  rcases normalizedPath_eq_ok targetPlaced targetAccepted with ⟨there, -, rfl, fine⟩
  rw [parent_absolute] at rest
  cases above : step here .up with
  | none =>
    rw [above] at rest
    cases rest
  | some parent =>
    rcases step_up_eq_some above with ⟨nonempty, rfl⟩
    rw [above] at rest
    dsimp only [Option.map_some] at rest
    split at rest
    · cases rest
    · split at rest
      · cases rest
      · rcases Fallible.bind_eq_ok_iff.mp rest with ⟨names, encoded, done⟩
        have downs : (absolute there).drop (commonLength (absolute here.dropLast)
            (absolute there)) = (there.drop (shared here.dropLast there)).map .normal := by
          rw [commonLength_absolute, absolute, List.drop_succ_cons, List.map_drop]
        rw [downs, encodeComponents documented
          (fun name member => (fine name (List.mem_of_mem_drop member)).1)] at encoded
        cases encoded
        cases done
        refine ⟨here, there, sourceAccepted, nonempty, targetAccepted, ?_⟩
        have ups : (absolute here.dropLast).length - commonLength (absolute here.dropLast)
            (absolute there) = here.dropLast.length - shared here.dropLast there := by
          rw [commonLength_absolute, absolute, List.length_cons, List.length_map]
          omega
        rw [ups, route, List.map_append, List.map_replicate, List.map_map]
        rfl

theorem slash_notMem_segment (step : Step ByteArray) : '/' ∉ segment step :=
  fun member => (segment_character member).2 rfl

theorem splitOn_urlText (steps : List (Step ByteArray)) :
    ∃ lead, (∀ piece ∈ lead, piece = [] ∨ piece = ['.']) ∧
      (urlText (steps.map segment)).splitOn '/' = lead ++ steps.map segment := by
  have slashless : ∀ piece ∈ steps.map segment, '/' ∉ piece := by
    intro piece member
    rcases List.mem_map.mp member with ⟨step, -, rfl⟩
    exact slash_notMem_segment step
  unfold urlText
  simp only
  cases steps with
  | nil => exact ⟨[['.'], []], by simp, rfl⟩
  | cons first rest =>
    split
    · exact ⟨[], by simp, List.splitOn_intercalate '/' slashless (by simp)⟩
    · refine ⟨[['.']], by simp, ?_⟩
      have led : ['.', '/'] ++ ['/'].intercalate ((first :: rest).map segment) =
          ['/'].intercalate (['.'] :: (first :: rest).map segment) := by
        rw [List.map_cons, List.intercalate_cons_cons]
        rfl
      rw [led, List.splitOn_intercalate '/' _ (by simp)]
      · rfl
      · intro piece member
        rcases List.mem_cons.mp member with rfl | later
        · decide
        · exact slashless piece later

theorem mem_intercalate_slash {pieces : List (List Char)} {character : Char}
    (member : character ∈ ['/'].intercalate pieces) :
    character = '/' ∨ ∃ piece ∈ pieces, character ∈ piece := by
  induction pieces with
  | nil => cases member
  | cons first rest ih =>
    cases rest with
    | nil => exact Or.inr ⟨first, List.mem_cons_self, by simpa using member⟩
    | cons second others =>
      rw [List.intercalate_cons_cons, List.append_assoc, List.mem_append,
        List.singleton_append, List.mem_cons] at member
      rcases member with inside | slash | later
      · exact Or.inr ⟨first, List.mem_cons_self, inside⟩
      · exact Or.inl slash
      · rcases ih later with slash | ⟨piece, known, inside⟩
        · exact Or.inl slash
        · exact Or.inr ⟨piece, List.mem_cons_of_mem _ known, inside⟩

theorem urlText_character {steps : List (Step ByteArray)} {character : Char}
    (member : character ∈ urlText (steps.map segment)) : isUrlCharacter character = true := by
  have inner : ∀ character ∈ ['/'].intercalate (steps.map segment),
      isUrlCharacter character = true := by
    intro character member
    rcases mem_intercalate_slash member with rfl | ⟨piece, known, inside⟩
    · decide
    · rcases List.mem_map.mp known with ⟨step, -, rfl⟩
      exact (segment_character inside).1
  unfold urlText at member
  simp only at member
  split at member
  · exact inner character member
  · rcases List.mem_append.mp member with led | later
    · simp only [List.mem_cons, List.not_mem_nil, or_false] at led
      rcases led with rfl | rfl <;> decide
    · exact inner character later

theorem urlText_head (segments : List (List Char)) : ∃ rest, urlText segments = '.' :: rest := by
  unfold urlText
  simp only
  split
  next up =>
    rcases up with ⟨rest, same⟩
    exact ⟨'.' :: '/' :: rest, same.symm⟩
  · exact ⟨_, rfl⟩

theorem urlText_avoids {steps : List (Step ByteArray)} {mark : Char}
    (foreign : isUrlCharacter mark = false) : mark ∉ urlText (steps.map segment) := by
  intro member
  rw [urlText_character member] at foreign
  cases foreign

theorem beforeFragment_urlText (steps : List (Step ByteArray)) :
    beforeFragment (String.ofList (urlText (steps.map segment))) = urlText (steps.map segment) := by
  rw [beforeFragment, String.toList_ofList]
  refine List.takeWhile_eq_self_iff.mpr fun character member => ?_
  have hash : character ≠ '#' := by
    rintro rfl
    exact urlText_avoids (by decide) member
  have query : character ≠ '?' := by
    rintro rfl
    exact urlText_avoids (by decide) member
  simp [hash, query]

theorem not_isControl_of_isUrlCharacter {character : Char}
    (written : isUrlCharacter character = true) : isControl character = false := by
  simp [isUrlCharacter] at written
  simp [isControl]
  omega

theorem not_isWhitespace_of_isUrlCharacter {character : Char}
    (written : isUrlCharacter character = true) : isWhitespace character = false := by
  simp [isUrlCharacter] at written
  simp [isWhitespace]
  omega

theorem refusesTarget_urlText (steps : List (Step ByteArray)) :
    refusesTarget (urlText (steps.map segment)) = false := by
  rcases urlText_head (steps.map segment) with ⟨rest, whole⟩
  have backslash : '\\' ∉ urlText (steps.map segment) := urlText_avoids (by decide)
  have printable : (urlText (steps.map segment)).any isControl = false := by
    rw [List.any_eq_false]
    intro character member
    rw [not_isControl_of_isUrlCharacter (urlText_character member)]
    decide
  have colon : ':' ∉ ((urlText (steps.map segment)).splitOn '/').headD [] := by
    intro member
    cases pieces : (urlText (steps.map segment)).splitOn '/' with
    | nil => exact absurd pieces (List.splitOn_ne_nil '/' _)
    | cons first others =>
      rw [pieces, List.headD_cons] at member
      have inside : ':' ∈ urlText (steps.map segment) := by
        rw [← (List.intercalate_splitOn '/' : _ = urlText (steps.map segment)), pieces]
        cases others with
        | nil => simpa using member
        | cons second more =>
          rw [List.intercalate_cons_cons]
          simp [member]
      exact urlText_avoids (by decide) inside
  unfold refusesTarget
  simp only [List.contains_eq_mem, decide_eq_false backslash, decide_eq_false colon, printable]
  rw [whole]
  rfl

theorem trim_urlText (steps : List (Step ByteArray)) :
    trim (String.ofList (urlText (steps.map segment))) =
      String.ofList (urlText (steps.map segment)) := by
  have kept : ∀ text : List Char, (∀ character ∈ text, isWhitespace character = false) →
      text.dropWhile isWhitespace = text := by
    intro text solid
    cases text with
    | nil => rfl
    | cons first rest =>
      exact List.dropWhile_cons_of_neg (by simp [solid first List.mem_cons_self])
  have solid : ∀ character ∈ urlText (steps.map segment), isWhitespace character = false :=
    fun character member => not_isWhitespace_of_isUrlCharacter (urlText_character member)
  rw [trim, String.toList_ofList, kept _ solid, kept _ (by simpa using solid), List.reverse_reverse]

theorem catalog_refusesTarget_urlText (steps : List (Step ByteArray)) :
    CatalogLinks.refusesTarget (String.ofList (urlText (steps.map segment))) = false := by
  rcases urlText_head (steps.map segment) with ⟨rest, whole⟩
  have colon : ':' ∉ urlText (steps.map segment) := urlText_avoids (by decide)
  have noScheme : ¬ [':', '/', '/'] <:+: urlText (steps.map segment) :=
    fun inside => colon (inside.subset (by decide))
  have noMail : ¬ "mailto:".toList <+: urlText (steps.map segment) :=
    fun begins => colon (begins.subset (by decide))
  rw [CatalogLinks.refusesTarget, String.toList_ofList, decide_eq_false noScheme, decide_eq_false noMail, whole]
  simp

theorem decode_urlText (documented : codec.Documented) {steps : List (Step ByteArray)}
    (names : ∀ name, .down name ∈ steps → IsName name ∧ Portable name) :
    ∃ texts, ((urlText (steps.map segment)).splitOn '/').mapM (decodeComponent codec) = some texts ∧
      texts.filterMap textStep = steps := by
  rcases splitOn_urlText steps with ⟨lead, nowhere, pieces⟩
  rcases decode_segments documented names with ⟨texts, decoded, walked⟩
  rw [pieces]
  clear pieces
  induction lead with
  | nil => exact ⟨texts, decoded, walked⟩
  | cons first rest ih =>
    rw [List.forall_mem_cons] at nowhere
    rcases ih nowhere.2 with ⟨others, later, same⟩
    have dots : first = [] ∨ first = ['.'] ∨ first = ['.', '.'] :=
      nowhere.1.imp_right Or.inl
    refine ⟨String.ofList first :: others, ?_, ?_⟩
    · exact Fallible.mapM_cons_eq_some_iff.mpr
        ⟨_, others, decodeComponent_dots documented dots, later, rfl⟩
    · have still : textStep (String.ofList first) = none := by
        rcases nowhere.1 with rfl | rfl <;> rfl
      rw [List.filterMap_cons_none still, same]

end Urls

section Markup

def linkText (label url block : List Char) : String :=
  "[" ++ String.ofList (escapeLabel label) ++ "](" ++ String.ofList url ++ ")" ++ String.ofList block

theorem toList_linkText (label url block : List Char) :
    (linkText label url block).toList =
      '[' :: (escapeLabel label ++ ']' :: '(' :: (url ++ ')' :: block)) := by
  simp [linkText]

theorem scan_linkText {label url block : List Char} (oneLine : '\n' ∉ label)
    (written : ∀ character ∈ url, isUrlCharacter character = true)
    (blockLine : '\n' ∉ block) (whole : Readings.attributes block = (block, [])) :
    Readings.scan (linkText label url block) =
      [⟨String.ofList url, String.ofList label, (0, (linkText label url block).utf8ByteSize)⟩] := by
  have avoids : ∀ mark, isUrlCharacter mark = false → mark ∉ url := by
    intro mark foreign member
    rw [written mark member] at foreign
    cases foreign
  have plainUrl : ∀ character ∈ url, character ≠ '\\' ∧ character ≠ ')' := by
    intro character member
    constructor
    · rintro rfl
      exact avoids _ (by decide) member
    · rintro rfl
      exact avoids _ (by decide) member
  have line : '\n' ∉ label ++ url ++ block := by
    simp only [List.mem_append, not_or]
    exact ⟨⟨oneLine, avoids _ (by decide)⟩, blockLine⟩
  have size : (linkText label url block).utf8ByteSize = (utf8Bytes (escapeLabel label)).length +
      (utf8Bytes url).length + (utf8Bytes block).length + 4 := by
    have marks : (String.utf8EncodeChar '[').length = 1 ∧ (String.utf8EncodeChar ']').length = 1 ∧
        (String.utf8EncodeChar '(').length = 1 ∧ (String.utf8EncodeChar ')').length = 1 := by
      decide
    rw [← length_utf8Bytes, toList_linkText]
    simp only [utf8Bytes_cons, utf8Bytes_append, List.length_append, marks]
    omega
  rw [size, ← Readings.scan_link line plainUrl whole, ← toList_linkText, String.ofList_toList]

def attributeBlock : Option Relationship → List Char
  | none => []
  | some relation => ("\x7brel=\"" ++ relation.iri ++ "\"\x7d").toList

theorem attributeBlock_whole {relation : Relationship} (known : relation ∈ relationships) :
    '\n' ∉ attributeBlock (some relation) ∧
      Readings.attributes (attributeBlock (some relation)) = (attributeBlock (some relation), []) := by
  have every : ∀ relation ∈ relationships, '\n' ∉ attributeBlock (some relation) ∧
      Readings.attributes (attributeBlock (some relation)) =
        (attributeBlock (some relation), []) := by decide
  exact every relation known

def supportedRelation (relation : Option String) : Prop :=
  ∀ value ∈ relation, ∃ known ∈ relationships, known.slug = value ∨ known.iri = value

theorem markup_eq_linkText {source target : FilePath} {selected targetLabel : String}
    {relation : Option String} {url : List Char}
    (linked : relativeUrl codec source target = .ok (String.ofList url))
    (supported : supportedRelation relation)
    (named : (if selected.isEmpty then targetLabel else selected) ≠ "")
    (printable : ∀ character ∈ (if selected.isEmpty then targetLabel else selected).toList,
      isControl character = false) :
    ∃ known, (∀ relation ∈ known, relation ∈ relationships) ∧
      markup codec source target selected targetLabel relation =
        .ok (linkText (if selected.isEmpty then targetLabel else selected).toList url
          (attributeBlock known)) := by
  have accepted : ((if selected.isEmpty then targetLabel else selected).isEmpty ||
      (if selected.isEmpty then targetLabel else selected).toList.any isControl) = false := by
    rw [Bool.or_eq_false_iff, List.any_eq_false]
    exact ⟨by simpa using named, fun character member => by simp [printable character member]⟩
  unfold markup
  simp only [accepted, linked]
  cases relation with
  | none =>
    refine ⟨none, by simp, ?_⟩
    simp [linkText, attributeBlock, bind, Except.bind]
  | some value =>
    have found : ∃ known, relationships.find? (fun relation =>
        relation.slug = value || relation.iri = value) = some known := by
      rcases supported value rfl with ⟨known, member, same⟩
      refine Option.isSome_iff_exists.mp (List.find?_isSome.mpr ⟨known, member, ?_⟩)
      simpa using same
    rcases found with ⟨known, same⟩
    refine ⟨some known, ?_, ?_⟩
    · intro relation member
      cases member
      exact List.mem_of_find?_eq_some same
    · simp only [bind, Except.bind, same, Bool.false_eq_true, if_false, linkText,
        attributeBlock, String.ofList_toList, String.append_assoc]

end Markup

theorem relative_of_isNormal {path : FilePath} (normal : path.all isNormal = true) :
    ∃ names, path = relative names := by
  induction path with
  | nil => exact ⟨[], rfl⟩
  | cons first rest ih =>
    rw [List.all_cons, Bool.and_eq_true] at normal
    rcases ih normal.2 with ⟨names, rfl⟩
    cases first with
    | normal name => exact ⟨name :: names, rfl⟩
    | rootDir => cases normal.1
    | curDir => cases normal.1
    | parentDir => cases normal.1

theorem join_relative (root : FilePath) (names : List ByteArray) :
    root.join (relative names) = root ++ relative names := by
  have kept : (relative names).filter (· ≠ .curDir) = relative names := by
    refine List.filter_eq_self.mpr fun component member => ?_
    rcases List.mem_map.mp member with ⟨name, -, rfl⟩
    rfl
  have unrooted : FilePath.isAbsolute (relative names) = false := by
    cases names <;> rfl
  rw [FilePath.join, unrooted, if_neg (by decide), kept]

theorem walk_join {root : FilePath} {names there : List ByteArray}
    (walked : walk [] ((root ++ relative names).filterMap componentStep) = some there) :
    ∃ base, walk [] (root.filterMap componentStep) = some base ∧ there = base ++ names := by
  rw [List.filterMap_append, walk_append, steps_relative] at walked
  rcases Option.bind_eq_some_iff.mp walked with ⟨base, above, below⟩
  rw [walk_down] at below
  cases below
  exact ⟨base, above, rfl⟩

/-- The link from one file to another leads to the other's place in the tree, and within a catalog
to its catalogued path; its markup under any label is scanned as that link and nothing else. -/
theorem document_links_round_trip {codec : PercentCodec} (documented : codec.Documented)
    (source target : List UInt8) (url : String)
    (linked : relativeUrl codec (components source) (components target) = .ok url) :
    (∃ there, walk [] ((components target).filterMap componentStep) = some there ∧
      normalizedPath (components target) = .ok (absolute there) ∧
      resolveLocal codec (components source) url = some (absolute there)) ∧
    (∀ root sourceRelative targetRelative : FilePath,
      sourceRelative ≠ [] → sourceRelative.all isNormal = true →
      targetRelative.all isNormal = true →
      components source = root.join sourceRelative →
      components target = root.join targetRelative →
      CatalogLinks.resolveLocal codec sourceRelative url = some targetRelative) ∧
    ∀ (selected targetLabel : String) (relation : Option String),
      supportedRelation relation →
      (if selected.isEmpty then targetLabel else selected) ≠ "" →
      (∀ character ∈ (if selected.isEmpty then targetLabel else selected).toList,
        isControl character = false) →
      ∃ text, markup codec (components source) (components target) selected targetLabel relation =
          .ok text ∧
        Readings.scan text = [⟨url, if selected.isEmpty then targetLabel else selected,
          (0, text.utf8ByteSize)⟩] := by
  rcases relativeUrl_eq_ok documented (FilePath.rootDir_notMem_tail source)
    (FilePath.rootDir_notMem_tail target) linked with
    ⟨here, there, sourceAccepted, nonempty, targetAccepted, rfl⟩
  rcases normalizedPath_eq_ok (FilePath.rootDir_notMem_tail target) targetAccepted with
    ⟨same, walked, reached, fine⟩
  cases absolute_inj reached
  have names : ∀ name, .down name ∈ route here.dropLast there → IsName name ∧ Portable name := by
    intro name member
    rcases List.mem_append.mp member with up | down
    · cases List.eq_of_mem_replicate up
    · rcases List.mem_map.mp down with ⟨other, inside, same⟩
      cases same
      rcases fine name (List.mem_of_mem_drop inside) with ⟨portable, present⟩
      exact ⟨FilePath.normal_mem_components present, portable⟩
  rcases decode_urlText documented names with ⟨texts, decoded, steps⟩
  refine ⟨⟨there, walked, targetAccepted, ?_⟩, ?_, ?_⟩
  · rw [resolveLocal_eq_some_iff (FilePath.rootDir_notMem_tail source), beforeFragment_urlText]
    exact ⟨here, texts, there, sourceAccepted, nonempty, refusesTarget_urlText _, decoded,
      by rw [steps, walk_route], rfl⟩
  · intro root sourceRelative targetRelative below sourceNormal targetNormal fromRoot toRoot
    rcases relative_of_isNormal sourceNormal with ⟨sourceNames, rfl⟩
    rcases relative_of_isNormal targetNormal with ⟨targetNames, rfl⟩
    rcases normalizedPath_eq_ok (FilePath.rootDir_notMem_tail source) sourceAccepted with
      ⟨place, sourceWalked, placed, -⟩
    cases absolute_inj placed
    rw [fromRoot, join_relative] at sourceWalked
    rw [toRoot, join_relative] at walked
    rcases walk_join sourceWalked with ⟨base, above, rfl⟩
    rcases walk_join walked with ⟨other, again, rfl⟩
    rw [above, Option.some_inj] at again
    subst again
    have nonemptyNames : sourceNames ≠ [] := by
      rintro rfl
      exact below rfl
    rw [List.dropLast_append_of_ne_nil nonemptyNames, route_append] at steps decoded ⊢
    have raw := beforeFragment_urlText (route sourceNames.dropLast targetNames)
    have unrooted : (urlText ((route sourceNames.dropLast targetNames).map segment)).head? ≠
        some '/' := by
      rcases urlText_head ((route sourceNames.dropLast targetNames).map segment) with ⟨rest, whole⟩
      rw [whole]
      simp
    rw [CatalogLinks.resolveLocal_eq_walk documented (by rw [raw, trim_urlText])
      (by rw [raw, catalog_refusesTarget_urlText]) (by rw [raw]; exact unrooted)
      (by rw [raw]; exact decoded), steps, walk_route]
    rfl
  · intro selected targetLabel relation supported named printable
    rcases markup_eq_linkText linked supported named printable with ⟨known, vocabulary, written⟩
    refine ⟨_, written, ?_⟩
    have block : '\n' ∉ attributeBlock known ∧
        Readings.attributes (attributeBlock known) = (attributeBlock known, []) := by
      cases known with
      | none => exact ⟨by simp [attributeBlock], rfl⟩
      | some relation => exact attributeBlock_whole (vocabulary relation rfl)
    have oneLine : '\n' ∉ (if selected.isEmpty then targetLabel else selected).toList := by
      intro member
      have control := printable '\n' member
      cases control
    rw [scan_linkText oneLine (fun character member => urlText_character member) block.1 block.2,
      String.ofList_toList]

def plainCodec : PercentCodec := ⟨PercentEncoding.encode, PercentEncoding.decode⟩

theorem plainCodec_documented : plainCodec.Documented := ⟨fun _ _ => rfl, fun _ => rfl⟩

def tideSource : List UInt8 := utf8Bytes "/notes/a.djot".toList
def tideTarget : List UInt8 := utf8Bytes "/notes/log/../tide #1é.djot".toList

theorem document_links_round_trip_tide :
    relativeUrl plainCodec (components tideSource) (components tideTarget) =
        .ok "./tide%20%231%C3%A9.djot" ∧
      ∃ there, walk [] ((components tideTarget).filterMap componentStep) = some there ∧
        normalizedPath (components tideTarget) = .ok (absolute there) ∧
        resolveLocal plainCodec (components tideSource) "./tide%20%231%C3%A9.djot" =
          some (absolute there) :=
  have linked : relativeUrl plainCodec (components tideSource) (components tideTarget) =
      .ok "./tide%20%231%C3%A9.djot" := by decide
  ⟨linked, (document_links_round_trip plainCodec_documented _ _ _ linked).1⟩

end KnotEditor.Desktop.DocumentLinks
