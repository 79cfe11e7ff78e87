import KnotEditor.Readings.LinkBytes
import Mathlib.Data.List.TakeWhile

/-! By bytes the scan finds what it finds by characters, and cuts no character in two. -/

namespace KnotEditor.Readings

open Desktop.DocumentLinks (isAsciiPunctuation)

section walking

variable {source : String} {lineStart index : Nat} {out : List Scanned}

theorem scanLineBytes_skip {byte : UInt8} {inlineCode : Option Nat} (tick : byte ≠ '`'.toUInt8)
    (plain : inlineCode = none → byte ≠ '\\'.toUInt8 ∧ byte ≠ '['.toUInt8) (rest : List UInt8) :
    scanLineBytes source lineStart index (byte :: rest) inlineCode out =
      scanLineBytes source lineStart (index + 1) rest inlineCode out := by
  rw [scanLineBytes.eq_def]
  dsimp only
  cases inlineCode with
  | some run =>
    dsimp only
    rw [if_pos tick]
  | none =>
    dsimp only
    rw [if_neg (plain rfl).1, if_neg tick, if_pos (plain rfl).2]

theorem scanLineBytes_high {high : List UInt8} {inlineCode : Option Nat}
    (above : ∀ byte ∈ high, 128 ≤ byte.toNat) (rest : List UInt8) :
    scanLineBytes source lineStart index (high ++ rest) inlineCode out =
      scanLineBytes source lineStart (index + high.length) rest inlineCode out := by
  induction high generalizing index with
  | nil => rfl
  | cons byte high ih =>
    rw [List.forall_mem_cons] at above
    rw [List.cons_append, scanLineBytes_skip (ne_of_high above.1 (by decide))
      (fun _ => ⟨ne_of_high above.1 (by decide), ne_of_high above.1 (by decide)⟩), ih above.2,
      List.length_cons, Nat.add_assoc, Nat.add_comm 1]

theorem scanLineBytes_character {character : Char} {inlineCode : Option Nat}
    (tick : character ≠ '`')
    (plain : inlineCode = none → character ≠ '\\' ∧ character ≠ '[') (rest : List Char) :
    scanLineBytes source lineStart index (utf8Bytes (character :: rest)) inlineCode out =
      scanLineBytes source lineStart (index + character.utf8Size) (utf8Bytes rest) inlineCode
        out := by
  rw [utf8Bytes_cons, ← String.length_utf8EncodeChar]
  rcases utf8EncodeChar_cases character with ⟨small, encoded⟩ | ⟨_, high⟩
  · rw [encoded]
    refine scanLineBytes_skip ((toUInt8_inj_of_ascii small (by decide)).not.mpr tick) ?_ _
    intro outside
    exact ⟨(toUInt8_inj_of_ascii small (by decide)).not.mpr (plain outside).1,
      (toUInt8_inj_of_ascii small (by decide)).not.mpr (plain outside).2⟩
  · exact scanLineBytes_high high _

theorem scanLineBytes_codeTicks (run : Nat) (rest : List Char) :
    scanLineBytes source lineStart index (utf8Bytes ('`' :: rest)) (some run) out =
      scanLineBytes source lineStart (index + ((rest.takeWhile (· = '`')).length + 1))
        (utf8Bytes (rest.dropWhile (· = '`')))
        (if (rest.takeWhile (· = '`')).length + 1 = run then none else some run) out := by
  rw [utf8Bytes_mark (by decide), scanLineBytes.eq_def]
  dsimp only
  rw [if_neg (not_not_intro rfl), (ticks_utf8Bytes rest).1, (ticks_utf8Bytes rest).2]

theorem scanLineBytes_ticks (rest : List Char) :
    scanLineBytes source lineStart index (utf8Bytes ('`' :: rest)) none out =
      scanLineBytes source lineStart (index + ((rest.takeWhile (· = '`')).length + 1))
        (utf8Bytes (rest.dropWhile (· = '`'))) (some ((rest.takeWhile (· = '`')).length + 1))
        out := by
  rw [utf8Bytes_mark (by decide), scanLineBytes.eq_def]
  dsimp only
  rw [if_neg (by decide), if_pos rfl, (ticks_utf8Bytes rest).1, (ticks_utf8Bytes rest).2]

theorem scanLineBytes_escaped {next : Char} (punctuation : isAsciiPunctuation next = true)
    (rest : List Char) :
    scanLineBytes source lineStart index (utf8Bytes ('\\' :: next :: rest)) none out =
      scanLineBytes source lineStart (index + 2) (utf8Bytes rest) none out := by
  have ascii := isAsciiPunctuation_ascii punctuation
  rw [utf8Bytes_mark (by decide), utf8Bytes_mark ascii, scanLineBytes.eq_def]
  dsimp only
  rw [if_pos rfl, if_pos ((isAsciiPunctuationByte_toUInt8 ascii).trans punctuation)]

theorem scanLineBytes_backslash {rest : List Char}
    (plain : ∀ next ∈ rest.head?, isAsciiPunctuation next = false) :
    scanLineBytes source lineStart index (utf8Bytes ('\\' :: rest)) none out =
      scanLineBytes source lineStart (index + 1) (utf8Bytes rest) none out := by
  rw [utf8Bytes_mark (by decide), scanLineBytes.eq_def]
  dsimp only
  rw [if_pos rfl]
  cases rest with
  | nil => rfl
  | cons next others =>
    obtain ⟨byte, bytes, encoded, head⟩ := isAsciiPunctuationByte_head next others
    rw [encoded]
    dsimp only
    rw [if_neg]
    rw [head, plain next rfl]
    exact Bool.false_ne_true

theorem scanLineBytes_image (rest : List Char)
    (image : lineStart < index ∧ (utf8Bytes source.toList)[index - 1]? = some '!'.toUInt8) :
    scanLineBytes source lineStart index (utf8Bytes ('[' :: rest)) none out =
      scanLineBytes source lineStart (index + 1) (utf8Bytes rest) none out := by
  rw [utf8Bytes_mark (by decide), scanLineBytes.eq_def]
  dsimp only
  rw [if_neg (by decide), if_neg (by decide), if_neg (not_not_intro rfl), if_pos image]

section brackets

variable {after : List Char}
  (navigates :
    ¬(lineStart < index ∧ (utf8Bytes source.toList)[index - 1]? = some '!'.toUInt8))

include navigates

theorem scanLineBytes_unclosed (open_ : findUnescaped ']' after = none) :
    scanLineBytes source lineStart index (utf8Bytes ('[' :: after)) none out =
      some (none, out) := by
  have missing : findUnescapedBytes ']'.toUInt8 (utf8Bytes after) = none := by
    rw [findUnescapedBytes_utf8Bytes (by decide), open_]
    rfl
  rw [utf8Bytes_mark (by decide), scanLineBytes.eq_def]
  dsimp only
  rw [if_neg (by decide), if_neg (by decide), if_neg (not_not_intro rfl), if_neg navigates, missing]

variable {label behind : List Char}

theorem scanLineBytes_label (closed : findUnescaped ']' after = some (label, behind))
    (plain : behind.head? ≠ some '(') :
    scanLineBytes source lineStart index (utf8Bytes ('[' :: after)) none out =
      scanLineBytes source lineStart (index + (utf8Bytes label).length + 2) (utf8Bytes behind) none
        out := by
  have found : findUnescapedBytes ']'.toUInt8 (utf8Bytes after) = some (utf8Bytes label).length := by
    rw [findUnescapedBytes_utf8Bytes (by decide), closed]
    rfl
  have rest := utf8Bytes_behind ']' (by decide) label behind
  rw [← findUnescaped_eq_some closed] at rest
  have other : (utf8Bytes after)[(utf8Bytes label).length + 1]? ≠ some '('.toUInt8 := by
    rw [← List.head?_drop, rest, ne_eq, head?_utf8Bytes (by decide)]
    exact plain
  rw [utf8Bytes_mark (by decide), scanLineBytes.eq_def]
  dsimp only
  rw [if_neg (by decide), if_neg (by decide), if_neg (not_not_intro rfl), if_neg navigates, found]
  dsimp only
  rw [if_pos other, rest]

theorem scanLineBytes_unlinked (closed : findUnescaped ']' after = some (label, '(' :: behind))
    (unlinked : findUnescaped ')' behind = none) :
    scanLineBytes source lineStart index (utf8Bytes ('[' :: after)) none out =
      some (none, out) := by
  obtain ⟨found, opens, rest⟩ := opened_label closed
  have missing : findUnescapedBytes ')'.toUInt8 (utf8Bytes behind) = none := by
    rw [findUnescapedBytes_utf8Bytes (by decide), unlinked]
    rfl
  rw [utf8Bytes_mark (by decide), scanLineBytes.eq_def]
  dsimp only
  rw [if_neg (by decide), if_neg (by decide), if_neg (not_not_intro rfl), if_neg navigates, found]
  dsimp only
  rw [if_neg (not_not_intro opens), rest, missing]

theorem scanLineBytes_link {front url found block rest tail : List Char}
    (whole : source.toList = front ++ '[' :: after ++ tail)
    (here : index = (utf8Bytes front).length)
    (closed : findUnescaped ']' after = some (label, '(' :: behind))
    (linked : findUnescaped ')' behind = some (url, found))
    (ended : attributes found = (block, rest)) {finish : Nat} {next : List Scanned}
    (finishes : finish = index + (utf8Bytes label).length + (utf8Bytes url).length +
      (utf8Bytes block).length + 4)
    (added : next = out ++
      [⟨String.ofList url, String.ofList (literalLabel label), (index, finish)⟩]) :
    scanLineBytes source lineStart index (utf8Bytes ('[' :: after)) none out =
      if maxScannedLinks ≤ next.length then some (none, next)
      else scanLineBytes source lineStart finish (utf8Bytes rest) none next := by
  obtain ⟨first, opens, second⟩ := opened_label closed
  have third : findUnescapedBytes ')'.toUInt8 (utf8Bytes behind) = some (utf8Bytes url).length := by
    rw [findUnescapedBytes_utf8Bytes (by decide), linked]
    rfl
  have behindUrl := utf8Bytes_behind ')' (by decide) url found
  rw [← findUnescaped_eq_some linked, ← second, List.drop_drop] at behindUrl
  have blockLength : attributesBytes (utf8Bytes found) = (utf8Bytes block).length := by
    rw [attributesBytes_utf8Bytes, ended]
  have behindBlock : (utf8Bytes found).drop (utf8Bytes block).length = utf8Bytes rest := by
    rw [attributes_append ended, utf8Bytes_append, List.drop_left]
  have text : source.toList = front ++ '[' :: (label ++ ']' :: '(' :: (url ++ ')' :: found)) ++
      tail := by
    rw [whole, findUnescaped_eq_some closed, findUnescaped_eq_some linked]
  have labelSlice : sourceRange source (index + 1) (index + 1 + (utf8Bytes label).length) =
      some ⟨front ++ ['['], label, ']' :: '(' :: (url ++ ')' :: found) ++ tail⟩ := by
    refine sourceRange_append ?_ ?_ rfl
    · rw [text]
      simp only [List.append_assoc, List.cons_append, List.nil_append]
    · rw [utf8Bytes_append, List.length_append, here]
      rfl
  have urlSlice : sourceRange source (index + 1 + (utf8Bytes label).length + 2)
      (index + 1 + (utf8Bytes label).length + 2 + (utf8Bytes url).length) =
      some ⟨front ++ '[' :: label ++ [']', '('], url, ')' :: found ++ tail⟩ := by
    refine sourceRange_append ?_ ?_ rfl
    · rw [text]
      simp only [List.append_assoc, List.cons_append, List.nil_append]
    · simp only [utf8Bytes_append, List.length_append]
      rw [length_utf8Bytes_mark (by decide), here]
      have marks : (utf8Bytes [']', '(']).length = 2 := by decide
      omega
  have spanEnd : index + 1 + (utf8Bytes label).length + 2 + (utf8Bytes url).length + 1 +
      (utf8Bytes block).length = finish := by omega
  have behindAll : (utf8Bytes after).drop ((utf8Bytes label).length + (utf8Bytes url).length +
      (utf8Bytes block).length + 3) = utf8Bytes rest := by
    rw [← behindBlock, ← behindUrl, List.drop_drop]
    congr 1
    omega
  have behindUrl' : (utf8Bytes after).drop ((utf8Bytes label).length + (utf8Bytes url).length + 3) =
      utf8Bytes found := by
    rw [← behindUrl]
    congr 1
    omega
  rw [utf8Bytes_mark (by decide), scanLineBytes.eq_def]
  dsimp only
  rw [if_neg (by decide), if_neg (by decide), if_neg (not_not_intro rfl), if_neg navigates, first]
  dsimp only
  rw [if_neg (not_not_intro opens), second, third]
  dsimp only
  rw [behindUrl', blockLength, urlSlice, labelSlice]
  dsimp only
  rw [behindAll, spanEnd, ← added]

end brackets

end walking

theorem image_iff {source : String} {earlier part behind : List Char}
    (whole : source.toList = earlier ++ part ++ behind) :
    ((utf8Bytes earlier).length < (utf8Bytes (earlier ++ part)).length ∧
        (utf8Bytes source.toList)[(utf8Bytes (earlier ++ part)).length - 1]? =
          some '!'.toUInt8) ↔
      part.getLast? = some '!' := by
  by_cases begins : part = []
  · subst begins
    simp
  · have grows : (utf8Bytes part).length ≠ 0 := by
      rw [ne_eq, List.length_eq_zero_iff, utf8Bytes_eq_nil_iff]
      exact begins
    have longer : (utf8Bytes earlier).length < (utf8Bytes (earlier ++ part)).length := by
      rw [utf8Bytes_append, List.length_append]
      omega
    rw [and_iff_right longer, whole, utf8Bytes_append, List.getElem?_append_left (by omega),
      ← List.getLast?_eq_getElem?, getLast?_utf8Bytes (by decide),
      List.getLast?_append_of_ne_nil _ begins]

theorem advance {source : String} {earlier part line behind : List Char} {index next : Nat}
    (whole : source.toList = earlier ++ part ++ line ++ behind)
    (here : index = (utf8Bytes (earlier ++ part)).length) (piece rest : List Char)
    (read : line = piece ++ rest) (moved : next = index + (utf8Bytes piece).length) :
    source.toList = earlier ++ (part ++ piece) ++ rest ++ behind ∧
      next = (utf8Bytes (earlier ++ (part ++ piece))).length := by
  constructor
  · rw [whole, read]
    simp only [List.append_assoc]
  · rw [moved, here, ← List.append_assoc, utf8Bytes_append (earlier ++ part), List.length_append]

theorem ticks_append (text : List Char) :
    '`' :: text = '`' :: text.takeWhile (· = '`') ++ text.dropWhile (· = '`') := by
  rw [List.cons_append, List.takeWhile_append_dropWhile]

theorem length_ticks (index : Nat) (text : List Char) :
    index + ((text.takeWhile (· = '`')).length + 1) =
      index + (utf8Bytes ('`' :: text.takeWhile (· = '`'))).length := by
  rw [length_marks, List.length_cons]
  intro mark member
  rcases List.mem_cons.mp member with rfl | inside
  · decide
  · have tick : mark = '`' := by simpa using List.mem_takeWhile_imp inside
    rw [tick]
    decide

theorem getLast?_ticks (text : List Char) :
    ('`' :: text.takeWhile (· = '`')).getLast? = some '`' := by
  cases last : ('`' :: text.takeWhile (· = '`')).getLast? with
  | none => cases List.getLast?_eq_none_iff.mp last
  | some character =>
    rcases List.mem_cons.mp (List.mem_of_getLast? last) with rfl | inside
    · rfl
    · exact congrArg some (by simpa using List.mem_takeWhile_imp inside)

theorem block_cases {text block rest : List Char} (found : attributes text = (block, rest)) :
    block = [] ∨ ∃ inside, block = '{' :: inside ++ ['}'] := by
  unfold attributes at found
  split at found
  · split at found
    next inside _ _ =>
      cases found
      exact Or.inr ⟨inside, rfl⟩
    · cases found
      exact Or.inl rfl
  · cases found
    exact Or.inl rfl

theorem length_linkText (label url block : List Char) :
    (utf8Bytes ('[' :: label ++ ']' :: '(' :: url ++ ')' :: block)).length =
      (utf8Bytes label).length + (utf8Bytes url).length + (utf8Bytes block).length + 4 := by
  simp only [utf8Bytes_append, List.length_append]
  rw [length_utf8Bytes_mark (by decide), length_utf8Bytes_mark (by decide),
    length_utf8Bytes_mark (by decide), length_utf8Bytes_mark (by decide)]
  omega

theorem length_link (index : Nat) {after label behind url found block rest : List Char}
    (closed : findUnescaped ']' after = some (label, '(' :: behind))
    (linked : findUnescaped ')' behind = some (url, found))
    (ended : attributes found = (block, rest)) :
    '[' :: after = '[' :: label ++ ']' :: '(' :: url ++ ')' :: block ++ rest ∧
      index + (utf8Bytes label).length + (utf8Bytes url).length + (utf8Bytes block).length + 4 =
        index + (utf8Bytes ('[' :: label ++ ']' :: '(' :: url ++ ')' :: block)).length := by
  constructor
  · rw [findUnescaped_eq_some closed, findUnescaped_eq_some linked, attributes_append ended]
    simp only [List.cons_append, List.append_assoc]
  · rw [length_linkText]
    omega

theorem getLast?_behindLink (before label url : List Char) {block : List Char}
    (formed : block = [] ∨ ∃ inside, block = '{' :: inside ++ ['}']) :
    (before ++ ('[' :: label ++ ']' :: '(' :: url ++ ')' :: block)).getLast? = some ')' ∨
      (before ++ ('[' :: label ++ ']' :: '(' :: url ++ ')' :: block)).getLast? = some '}' := by
  rw [List.getLast?_append_of_ne_nil _ (by simp),
    List.getLast?_append_of_ne_nil _ (List.cons_ne_nil _ _)]
  rcases formed with rfl | ⟨inside, rfl⟩
  · exact Or.inl rfl
  · rw [← List.cons_append, List.getLast?_concat]
    exact Or.inr rfl

theorem scanLineBytes_eq {source : String} {earlier part line behind : List Char} {index : Nat}
    {previous : Option Char}
    (whole : source.toList = earlier ++ part ++ line ++ behind)
    (here : index = (utf8Bytes (earlier ++ part)).length)
    (bang : previous = some '!' ↔ part.getLast? = some '!') (inlineCode : Option Nat)
    (out : List Scanned) :
    scanLineBytes source (utf8Bytes earlier).length index (utf8Bytes line) inlineCode out =
      some (scanLine index previous line inlineCode out) := by
  fun_induction scanLine index previous line inlineCode out generalizing part with
  | case1 => rw [utf8Bytes_nil, scanLineBytes]
  | case2 index previous out character after run tick ih =>
    rw [scanLineBytes_character tick (by simp)]
    have size : index + character.utf8Size = index + (utf8Bytes [character]).length := by
      rw [utf8Bytes_cons, utf8Bytes_nil, List.append_nil, String.length_utf8EncodeChar]
    obtain ⟨whole, here⟩ := advance whole here [character] after rfl size
    exact ih whole here (by rw [List.getLast?_concat])
  | case3 index previous out character after ticks run tick =>
    rename_i ih
    cases not_not.mp tick
    rw [scanLineBytes_codeTicks]
    obtain ⟨whole, here⟩ := advance whole here _ _ (ticks_append after) (length_ticks index after)
    refine ih whole here ?_
    rw [List.getLast?_append_of_ne_nil _ (List.cons_ne_nil _ _), getLast?_ticks]
  | case4 index previous out ih =>
    rw [scanLineBytes_backslash (by simp)]
    obtain ⟨whole, here⟩ := advance whole here ['\\'] [] rfl rfl
    exact ih whole here (by rw [List.getLast?_concat])
  | case5 index previous out next others punctuation ih =>
    have size : index + 2 = index + (utf8Bytes ['\\', next]).length := by
      rw [length_utf8Bytes_mark (by decide),
        length_utf8Bytes_mark (isAsciiPunctuation_ascii punctuation)]
      rfl
    rw [scanLineBytes_escaped punctuation]
    obtain ⟨whole, here⟩ := advance whole here ['\\', next] others rfl size
    refine ih whole here ?_
    rw [List.getLast?_append_of_ne_nil _ (List.cons_ne_nil _ _)]
    rfl
  | case6 index previous out next others plain ih =>
    rw [scanLineBytes_backslash (by simpa using plain)]
    obtain ⟨whole, here⟩ := advance whole here ['\\'] (next :: others) rfl rfl
    exact ih whole here (by rw [List.getLast?_concat])
  | case7 index previous out after ticks _ =>
    rename_i ih
    rw [scanLineBytes_ticks]
    obtain ⟨whole, here⟩ := advance whole here _ _ (ticks_append after) (length_ticks index after)
    refine ih whole here ?_
    rw [List.getLast?_append_of_ne_nil _ (List.cons_ne_nil _ _), getLast?_ticks]
  | case8 index previous out character after backslash tick open_ ih =>
    rw [scanLineBytes_character tick (fun _ => ⟨backslash, open_⟩)]
    have size : index + character.utf8Size = index + (utf8Bytes [character]).length := by
      rw [utf8Bytes_cons, utf8Bytes_nil, List.append_nil, String.length_utf8EncodeChar]
    obtain ⟨whole, here⟩ := advance whole here [character] after rfl size
    exact ih whole here (by rw [List.getLast?_concat])
  | case9 index out character after _ _ open_ ih =>
    cases not_not.mp open_
    have image := (image_iff (whole.trans (List.append_assoc ..))).mpr (bang.mp rfl)
    rw [← here] at image
    rw [scanLineBytes_image after image]
    obtain ⟨whole, here⟩ := advance whole here ['['] after rfl rfl
    exact ih whole here (by rw [List.getLast?_concat])
  | case10 index previous out character after _ _ open_ image read =>
    cases not_not.mp open_
    have navigates := ((image_iff (whole.trans (List.append_assoc ..))).trans bang.symm).not.mpr
      image
    rw [← here] at navigates
    rcases bracket_unclosed read with open_ | ⟨label, behind, closed, unlinked⟩
    · exact scanLineBytes_unclosed navigates open_
    · exact scanLineBytes_unlinked navigates closed unlinked
  | case11 index previous out character after _ _ open_ image label rest read ih =>
    cases not_not.mp open_
    have navigates := ((image_iff (whole.trans (List.append_assoc ..))).trans bang.symm).not.mpr
      image
    rw [← here] at navigates
    obtain ⟨closed, plain⟩ := bracket_label read
    rw [scanLineBytes_label navigates closed plain]
    have size : index + (utf8Bytes label).length + 2 =
        index + (utf8Bytes ('[' :: label ++ [']'])).length := by
      rw [utf8Bytes_append, List.length_append, length_utf8Bytes_mark (by decide),
        length_utf8Bytes_mark (by decide), utf8Bytes_nil, List.length_nil]
      omega
    have text : '[' :: after = '[' :: label ++ [']'] ++ rest := by
      rw [findUnescaped_eq_some closed]
      simp only [List.cons_append, List.append_assoc, List.nil_append]
    obtain ⟨whole, here⟩ := advance whole here _ rest text size
    refine ih whole here ?_
    rw [List.getLast?_append_of_ne_nil _ (by simp), List.getLast?_concat]
  | case12 index previous out character after _ _ open_ image label url block rest read finish next =>
    rename_i full
    cases not_not.mp open_
    have navigates := ((image_iff (whole.trans (List.append_assoc ..))).trans bang.symm).not.mpr
      image
    rw [← here] at navigates
    obtain ⟨behind, found, closed, linked, ended⟩ := bracket_eq_link read
    rw [scanLineBytes_link navigates whole here closed linked ended rfl rfl, if_pos full]
  | case13 index previous out character after _ _ open_ image label url block rest read finish next
      room =>
      rename_i ih
      cases not_not.mp open_
      have navigates := ((image_iff (whole.trans (List.append_assoc ..))).trans bang.symm).not.mpr
        image
      rw [← here] at navigates
      obtain ⟨behind, found, closed, linked, ended⟩ := bracket_eq_link read
      rw [scanLineBytes_link navigates whole here closed linked ended rfl rfl, if_neg room]
      obtain ⟨text, size⟩ := length_link index closed linked ended
      obtain ⟨whole, here⟩ := advance whole here _ rest text size
      refine ih whole here (iff_of_false (by decide) ?_)
      rcases getLast?_behindLink part label url (block_cases ended) with last | last <;> rw [last] <;>
        decide

theorem scanNextBytes_eq {source : String} {earlier line behind : List Char} {lineStart : Nat}
    (whole : source.toList = earlier ++ line ++ behind)
    (here : lineStart = (utf8Bytes earlier).length) (fence : Option (Char × Nat))
    (inlineCode : Option Nat) (out : List Scanned) :
    scanNextBytes source lineStart fence inlineCode out line =
      some (scanNext lineStart fence inlineCode out line) := by
  have walked : ∀ code, scanLineBytes source lineStart lineStart (utf8Bytes line) code out =
      some (scanLine lineStart none line code out) := by
    intro code
    have place : source.toList = earlier ++ [] ++ line ++ behind := by
      rw [List.append_nil, whole]
    have start : lineStart = (utf8Bytes (earlier ++ [])).length := by
      rw [List.append_nil, here]
    have bang : (none : Option Char) = some '!' ↔ ([] : List Char).getLast? = some '!' := by simp
    have begins := scanLineBytes_eq place start bang code out
    rwa [← here] at begins
  simp only [scanNextBytes, scanNext]
  cases fenceOf (line.dropWhile isWhitespace) with
  | some opened => cases fence <;> rfl
  | none =>
    cases fence with
    | some opening => rfl
    | none =>
      dsimp only
      rw [walked, Option.map_some]

theorem lines_cons (line next : List Char) (lines : List (List Char)) :
    ['\n'].intercalate (line :: next :: lines) =
      line ++ '\n' :: ['\n'].intercalate (next :: lines) := by
  rw [List.intercalate_cons_cons, List.append_assoc, List.singleton_append]

theorem scanLinesBytes_eq {source : String} (earlier : List Char) {lineStart : Nat}
    {lines : List (List Char)} (whole : source.toList = earlier ++ ['\n'].intercalate lines)
    (here : lineStart = (utf8Bytes earlier).length) (fence : Option (Char × Nat))
    (inlineCode : Option Nat) (out : List Scanned) :
    scanLinesBytes source lineStart fence inlineCode out lines =
      some (scanLines lineStart fence inlineCode out lines) := by
  induction lines generalizing earlier lineStart fence inlineCode out with
  | nil => rfl
  | cons line lines ih =>
    obtain ⟨behind, text⟩ : ∃ behind, source.toList = earlier ++ line ++ behind := by
      cases lines with
      | nil => exact ⟨[], by rw [whole, List.append_nil, List.intercalate_singleton]⟩
      | cons next lines => exact ⟨_, by rw [whole, lines_cons, List.append_assoc]⟩
    rw [scanLinesBytes, scanNextBytes_eq text here, scanLines, Option.bind_eq_bind,
      Option.bind_some]
    split
    · rfl
    · cases lines with
      | nil => rfl
      | cons next lines =>
        refine ih (earlier ++ line ++ ['\n']) ?_ ?_ _ _ _
        · rw [whole, lines_cons]
          simp only [List.append_assoc, List.cons_append, List.nil_append]
        · rw [here, utf8Bytes_append, utf8Bytes_append, List.length_append,
            List.length_append]
          rfl

theorem scanBytes_eq (source : String) : scanBytes source = some (scan source) :=
  scanLinesBytes_eq [] (by rw [List.intercalate_splitOn]; rfl) rfl none none []

end KnotEditor.Readings
