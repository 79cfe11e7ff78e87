import KnotEditor.Readings.LinkScan
import KnotEditor.SourceRanges

/-! The scan as it walks the bytes of the source and slices it at the positions it computes. -/

namespace KnotEditor.Readings

open Desktop.DocumentLinks (isAsciiPunctuation)

def isAsciiPunctuationByte (byte : UInt8) : Bool := isAsciiPunctuation (Char.ofNat byte.toNat)

def findUnescapedBytes (needle : UInt8) : List UInt8 → Option Nat
  | [] => none
  | [byte] => if byte = needle then some 0 else none
  | byte :: next :: rest =>
    if byte = '\\'.toUInt8 ∧ isAsciiPunctuationByte next = true then
      (findUnescapedBytes needle rest).map (· + 2)
    else if byte = needle then some 0
    else (findUnescapedBytes needle (next :: rest)).map (· + 1)

def attributesBytes (bytes : List UInt8) : Nat :=
  if bytes.head? = some '{'.toUInt8 then
    match findUnescapedBytes '}'.toUInt8 (bytes.drop 1) with
    | some inside => inside + 2
    | none => 0
  else 0

def scanLineBytes (source : String) (lineStart index : Nat) (bytes : List UInt8)
    (inlineCode : Option Nat) (out : List Scanned) : Option (Option Nat × List Scanned) :=
  match bytes with
  | [] => some (inlineCode, out)
  | byte :: after =>
    let ticks := (after.takeWhile (· = '`'.toUInt8)).length + 1
    match inlineCode with
    | some run =>
      if byte ≠ '`'.toUInt8 then scanLineBytes source lineStart (index + 1) after (some run) out
      else
        scanLineBytes source lineStart (index + ticks) (after.dropWhile (· = '`'.toUInt8))
          (if ticks = run then none else some run) out
    | none =>
      if byte = '\\'.toUInt8 then
        match after with
        | [] => scanLineBytes source lineStart (index + 1) [] none out
        | next :: others =>
          if isAsciiPunctuationByte next then
            scanLineBytes source lineStart (index + 2) others none out
          else scanLineBytes source lineStart (index + 1) (next :: others) none out
      else if byte = '`'.toUInt8 then
        scanLineBytes source lineStart (index + ticks) (after.dropWhile (· = '`'.toUInt8))
          (some ticks) out
      else if byte ≠ '['.toUInt8 then scanLineBytes source lineStart (index + 1) after none out
      -- Image syntax is not a navigation link.
      else if lineStart < index ∧ (utf8Bytes source.toList)[index - 1]? = some '!'.toUInt8 then
        scanLineBytes source lineStart (index + 1) after none out
      else
        match findUnescapedBytes ']'.toUInt8 after with
        | none => some (none, out)
        | some label =>
          if after[label + 1]? ≠ some '('.toUInt8 then
            scanLineBytes source lineStart (index + label + 2) (after.drop (label + 1)) none
              out
          else
            match findUnescapedBytes ')'.toUInt8 (after.drop (label + 2)) with
            | none => some (none, out)
            | some url =>
              let labelEnd := index + 1 + label
              let urlEnd := labelEnd + 2 + url
              let block := attributesBytes (after.drop (label + url + 3))
              let spanEnd := urlEnd + 1 + block
              match sourceRange source (labelEnd + 2) urlEnd,
                  sourceRange source (index + 1) labelEnd with
              | some target, some text =>
                let found : List Scanned := out ++ [⟨String.ofList target.inside,
                  String.ofList (literalLabel text.inside), (index, spanEnd)⟩]
                if maxScannedLinks ≤ found.length then some (none, found)
                else
                  scanLineBytes source lineStart spanEnd
                    (after.drop (label + url + block + 3)) none found
              | _, _ => none
termination_by bytes.length
decreasing_by
  all_goals try exact Nat.lt_succ_self _
  all_goals try exact Nat.lt_succ_of_le (List.dropWhile_suffix _).length_le
  all_goals simp only [List.length_cons, List.length_drop]
  all_goals omega

def scanNextBytes (source : String) (lineStart : Nat) (fence : Option (Char × Nat))
    (inlineCode : Option Nat) (out : List Scanned) (line : List Char) :
    Option (Option (Char × Nat) × Option Nat × List Scanned) :=
  let trimmed := line.dropWhile isWhitespace
  match fenceOf trimmed, fence with
  | some opened, none => some (some opened, none, out)
  | some (marker, run), some (opening, length) =>
    some (if marker = opening ∧ length ≤ run then none else fence, none, out)
  | none, none =>
    (scanLineBytes source lineStart lineStart (utf8Bytes line)
      (if trimmed.isEmpty then none else inlineCode) out).map fun scanned => (none, scanned)
  | none, some _ => some (fence, inlineCode, out)

def scanLinesBytes (source : String) (lineStart : Nat) (fence : Option (Char × Nat))
    (inlineCode : Option Nat) (out : List Scanned) : List (List Char) → Option (List Scanned)
  | [] => some out
  | line :: lines => do
      let next ← scanNextBytes source lineStart fence inlineCode out line
      if maxScannedLinks ≤ next.2.2.length then return next.2.2
      else
        scanLinesBytes source (lineStart + (utf8Bytes line).length + 1) next.1 next.2.1 next.2.2
          lines

def scanBytes (source : String) : Option (List Scanned) :=
  scanLinesBytes source 0 none none [] (source.toList.splitOn '\n')

theorem isAsciiPunctuationByte_toUInt8 {character : Char} (ascii : character.toNat < 128) :
    isAsciiPunctuationByte character.toUInt8 = isAsciiPunctuation character := by
  have value : character.toUInt8.toNat = character.toNat % 256 := rfl
  rw [isAsciiPunctuationByte, value, Nat.mod_eq_of_lt (by omega), Char.ofNat_toNat]

theorem isAsciiPunctuation_ascii {character : Char}
    (punctuation : isAsciiPunctuation character = true) : character.toNat < 128 := by
  simp only [isAsciiPunctuation, Bool.or_eq_true, Bool.and_eq_true, decide_eq_true_eq] at punctuation
  omega

theorem isAsciiPunctuationByte_high {byte : UInt8} (high : 128 ≤ byte.toNat) :
    isAsciiPunctuationByte byte = false := by
  have below := byte.toNat_lt
  have valid : byte.toNat.isValidChar := Or.inl (by omega)
  have value : (Char.ofNat byte.toNat).toNat = byte.toNat := by
    rw [Char.ofNat, dif_pos valid]
    rfl
  simp only [isAsciiPunctuationByte, isAsciiPunctuation, value, Bool.or_eq_false_iff,
    Bool.and_eq_false_iff, decide_eq_false_iff_not]
  omega

theorem findUnescapedBytes_cons {needle byte : UInt8} (plain : byte ≠ '\\'.toUInt8)
    (differs : byte ≠ needle) (rest : List UInt8) :
    findUnescapedBytes needle (byte :: rest) = (findUnescapedBytes needle rest).map (· + 1) := by
  cases rest <;> simp [findUnescapedBytes, plain, differs]

theorem findUnescapedBytes_high {needle : Char} (ascii : needle.toNat < 128) {high : List UInt8}
    (above : ∀ byte ∈ high, 128 ≤ byte.toNat) (rest : List UInt8) :
    findUnescapedBytes needle.toUInt8 (high ++ rest) =
      (findUnescapedBytes needle.toUInt8 rest).map (· + high.length) := by
  induction high with
  | nil => exact Option.map_id'.symm
  | cons byte high ih =>
    rw [List.forall_mem_cons] at above
    rw [List.cons_append, findUnescapedBytes_cons (ne_of_high above.1 (by decide))
      (ne_of_high above.1 ascii), ih above.2, Option.map_map]
    rfl

theorem isAsciiPunctuationByte_head (next : Char) (rest : List Char) :
    ∃ byte bytes, utf8Bytes (next :: rest) = byte :: bytes ∧
      isAsciiPunctuationByte byte = isAsciiPunctuation next := by
  rcases utf8EncodeChar_cases next with ⟨ascii, encoded⟩ | ⟨large, high⟩
  · rw [utf8Bytes_cons, encoded]
    exact ⟨_, _, rfl, isAsciiPunctuationByte_toUInt8 ascii⟩
  · rw [utf8Bytes_cons]
    cases bytes : String.utf8EncodeChar next with
    | nil => exact absurd bytes String.utf8EncodeChar_ne_nil
    | cons byte others =>
      have above : 128 ≤ byte.toNat := high byte (bytes ▸ List.mem_cons_self)
      refine ⟨byte, others ++ utf8Bytes rest, rfl, ?_⟩
      rw [isAsciiPunctuationByte_high above]
      by_contra differs
      have ascii := isAsciiPunctuation_ascii (Bool.eq_true_of_not_eq_false (Ne.symm differs))
      omega

theorem findUnescapedBytes_character {needle : Char} (ascii : needle.toNat < 128) {character : Char}
    (plain : character ≠ '\\') (differs : character ≠ needle) (rest : List UInt8) :
    findUnescapedBytes needle.toUInt8 (String.utf8EncodeChar character ++ rest) =
      (findUnescapedBytes needle.toUInt8 rest).map
        (· + (String.utf8EncodeChar character).length) := by
  rcases utf8EncodeChar_cases character with ⟨small, encoded⟩ | ⟨_, high⟩
  · rw [encoded]
    exact findUnescapedBytes_cons ((toUInt8_inj_of_ascii small (by decide)).not.mpr plain)
      ((toUInt8_inj_of_ascii small ascii).not.mpr differs) rest
  · exact findUnescapedBytes_high ascii high rest

theorem findUnescapedBytes_utf8Bytes {needle : Char} (ascii : needle.toNat < 128)
    (text : List Char) :
    findUnescapedBytes needle.toUInt8 (utf8Bytes text) =
      (findUnescaped needle text).map fun found => (utf8Bytes found.1).length := by
  fun_induction findUnescaped needle text with
  | case1 => rfl
  | case2 =>
    rw [utf8Bytes_cons, utf8EncodeChar_ascii ascii]
    exact if_pos rfl
  | case3 character differs =>
    rw [utf8Bytes_cons]
    rcases utf8EncodeChar_cases character with ⟨small, encoded⟩ | ⟨_, high⟩
    · rw [encoded]
      exact if_neg ((toUInt8_inj_of_ascii small ascii).not.mpr differs)
    · exact findUnescapedBytes_high ascii high []
  | case4 character next rest escaped ih =>
    have small := isAsciiPunctuation_ascii escaped.2
    have backslash : String.utf8EncodeChar character = ['\\'.toUInt8] := by
      rw [escaped.1]
      exact utf8EncodeChar_ascii (by decide)
    have punctuation : String.utf8EncodeChar next = [next.toUInt8] := utf8EncodeChar_ascii small
    rw [utf8Bytes_cons, utf8Bytes_cons, backslash, punctuation, List.singleton_append,
      List.singleton_append, findUnescapedBytes,
      if_pos ⟨rfl, (isAsciiPunctuationByte_toUInt8 small).trans escaped.2⟩, ih, Option.map_map,
      Option.map_map]
    refine Option.map_congr ?_
    intro found _
    simp only [Function.comp_apply, utf8Bytes_cons, backslash, punctuation, List.length_append,
      List.length_singleton]
    omega
  | case5 next rest notEscaped =>
    obtain ⟨byte, bytes, encoded, head⟩ := isAsciiPunctuationByte_head next rest
    have whole : utf8Bytes (needle :: next :: rest) = needle.toUInt8 :: byte :: bytes := by
      rw [utf8Bytes_cons, utf8EncodeChar_ascii ascii, encoded]
      rfl
    have stays : ¬(needle.toUInt8 = '\\'.toUInt8 ∧ isAsciiPunctuationByte byte = true) := by
      rw [toUInt8_inj_of_ascii ascii (by decide), head]
      exact notEscaped
    rw [whole, findUnescapedBytes, if_neg stays, if_pos rfl]
    rfl
  | case6 character next rest notEscaped differs ih =>
    have step : findUnescapedBytes needle.toUInt8 (utf8Bytes (character :: next :: rest)) =
        (findUnescapedBytes needle.toUInt8 (utf8Bytes (next :: rest))).map
          (· + (String.utf8EncodeChar character).length) := by
      by_cases backslash : character = '\\'
      · obtain ⟨byte, bytes, encoded, head⟩ := isAsciiPunctuationByte_head next rest
        have mark : String.utf8EncodeChar character = ['\\'.toUInt8] := by
          rw [backslash]
          exact utf8EncodeChar_ascii (by decide)
        have other : '\\'.toUInt8 ≠ needle.toUInt8 :=
          (toUInt8_inj_of_ascii (by decide) ascii).not.mpr (backslash ▸ differs)
        have stays : ¬('\\'.toUInt8 = '\\'.toUInt8 ∧ isAsciiPunctuationByte byte = true) := by
          rw [head]
          exact fun both => notEscaped ⟨backslash, both.2⟩
        rw [utf8Bytes_cons, encoded, mark, List.singleton_append, findUnescapedBytes,
          if_neg stays, if_neg other]
        rfl
      · rw [utf8Bytes_cons]
        exact findUnescapedBytes_character ascii backslash differs _
    rw [step, ih, Option.map_map, Option.map_map]
    refine Option.map_congr ?_
    intro found _
    simp only [Function.comp_apply, utf8Bytes_cons, List.length_append]
    omega

theorem attributesBytes_utf8Bytes (text : List Char) :
    attributesBytes (utf8Bytes text) = (utf8Bytes (attributes text).1).length := by
  unfold attributesBytes attributes
  split
  next opened =>
    have brace := (head?_utf8Bytes (by decide) text).mp opened
    cases text with
    | nil => cases brace
    | cons character block =>
      cases brace
      have rest : (utf8Bytes ('{' :: block)).drop 1 = utf8Bytes block :=
        drop_utf8Bytes ['{'] block rfl
      rw [rest, findUnescapedBytes_utf8Bytes (by decide)]
      cases found : findUnescaped '}' block with
      | none =>
        simp only [Option.map_none, found]
        rfl
      | some pair =>
        simp only [Option.map_some, found, List.cons_append]
        rw [length_utf8Bytes_mark (by decide), utf8Bytes_append, List.length_append]
        rfl
  next closed =>
    split
    · exact absurd rfl ((head?_utf8Bytes (by decide) _).not.mp closed)
    · rfl

theorem ticks_utf8Bytes (text : List Char) :
    ((utf8Bytes text).takeWhile (· = '`'.toUInt8)).length = (text.takeWhile (· = '`')).length ∧
      (utf8Bytes text).dropWhile (· = '`'.toUInt8) = utf8Bytes (text.dropWhile (· = '`')) := by
  induction text with
  | nil => exact ⟨rfl, rfl⟩
  | cons character rest ih =>
    by_cases tick : character = '`'
    · subst tick
      rw [utf8Bytes_mark (by decide)]
      simp only [List.takeWhile_cons_of_pos, List.dropWhile_cons_of_pos,
        decide_true, List.length_cons, ih, and_self]
    · have head : (utf8Bytes (character :: rest)).head? ≠ some '`'.toUInt8 :=
        (head?_utf8Bytes (by decide) _).not.mpr (by simpa using tick)
      cases bytes : utf8Bytes (character :: rest) with
      | nil => exact absurd (utf8Bytes_eq_nil_iff.mp bytes) (List.cons_ne_nil _ _)
      | cons byte others =>
        have differs : byte ≠ '`'.toUInt8 := by
          rintro rfl
          exact head (congrArg List.head? bytes)
        simp only [tick, differs, List.takeWhile_cons_of_neg, List.dropWhile_cons_of_neg,
          decide_false, Bool.false_eq_true, not_false_iff, List.length_nil, bytes, and_self]

theorem bracket_unclosed {after : List Char} (read : bracket after = .unclosed) :
    findUnescaped ']' after = none ∨ ∃ label behind,
      findUnescaped ']' after = some (label, '(' :: behind) ∧ findUnescaped ')' behind = none := by
  unfold bracket at read
  split at read
  next open_ => exact Or.inl open_
  next label behind closed =>
    split at read
    next unlinked => exact Or.inr ⟨label, behind, closed, unlinked⟩
    · cases read
  · cases read

theorem bracket_label {after inside rest : List Char} (read : bracket after = .label inside rest) :
    findUnescaped ']' after = some (inside, rest) ∧ rest.head? ≠ some '(' := by
  unfold bracket at read
  split at read
  · cases read
  · split at read <;> cases read
  next plain closed =>
    cases read
    refine ⟨closed, ?_⟩
    intro opens
    obtain ⟨behind, same⟩ := List.head?_eq_some_iff.mp opens
    exact plain behind same

theorem bracket_eq_link {after label url block rest : List Char}
    (read : bracket after = .link label url block rest) :
    ∃ behind found, findUnescaped ']' after = some (label, '(' :: behind) ∧
      findUnescaped ')' behind = some (url, found) ∧ attributes found = (block, rest) := by
  unfold bracket at read
  split at read
  · cases read
  next closed =>
    split at read
    · cases read
    next found linked =>
      cases read
      exact ⟨_, found, closed, linked, rfl⟩
  · cases read

theorem attributes_append {text block rest : List Char} (found : attributes text = (block, rest)) :
    text = block ++ rest := by
  unfold attributes at found
  split at found
  · split at found
    next closed =>
      cases found
      rw [findUnescaped_eq_some closed, List.cons_append, List.cons_append, List.append_assoc]
      rfl
    · cases found
      rfl
  · cases found
    rfl

theorem opened_label {after label behind : List Char}
    (closed : findUnescaped ']' after = some (label, '(' :: behind)) :
    findUnescapedBytes ']'.toUInt8 (utf8Bytes after) = some (utf8Bytes label).length ∧
      (utf8Bytes after)[(utf8Bytes label).length + 1]? = some '('.toUInt8 ∧
      (utf8Bytes after).drop ((utf8Bytes label).length + 2) = utf8Bytes behind := by
  have rest := utf8Bytes_behind ']' (by decide) label ('(' :: behind)
  rw [← findUnescaped_eq_some closed] at rest
  refine ⟨?_, ?_, ?_⟩
  · rw [findUnescapedBytes_utf8Bytes (by decide), closed]
    rfl
  · rw [← List.head?_drop, rest, head?_utf8Bytes (by decide)]
    rfl
  · have further : (utf8Bytes label).length + 2 = (utf8Bytes label).length + 1 + 1 := rfl
    rw [further, ← List.drop_drop, rest, utf8Bytes_mark (by decide)]
    rfl

end KnotEditor.Readings
