import KnotEditor.Desktop.DocumentLinks

/-! The scan that places inline links in a source text. It walks by characters and counts bytes: no
byte of a longer character is ever one of the marks it looks for. -/

namespace KnotEditor.Readings

open Desktop.DocumentLinks (isAsciiPunctuation escapeLabel)

def maxScannedLinks : Nat := 4096

structure Scanned where
  target : String
  text : String
  span : Nat × Nat
  deriving DecidableEq

/-- What stands before the first unescaped `needle`, and what stands behind it. -/
def findUnescaped (needle : Char) : List Char → Option (List Char × List Char)
  | [] => none
  | [character] => if character = needle then some ([], []) else none
  | character :: next :: rest =>
    if character = '\\' ∧ isAsciiPunctuation next = true then
      (findUnescaped needle rest).map fun found => (character :: next :: found.1, found.2)
    else if character = needle then some ([], next :: rest)
    else (findUnescaped needle (next :: rest)).map fun found => (character :: found.1, found.2)

def literalLabel : List Char → List Char
  | [] => []
  | [character] => [character]
  | character :: next :: rest =>
    if character = '\\' ∧ isAsciiPunctuation next = true then next :: literalLabel rest
    else character :: literalLabel (next :: rest)

def attributes (text : List Char) : List Char × List Char :=
  match text with
  | '{' :: block =>
    match findUnescaped '}' block with
    | some (inside, rest) => ('{' :: inside ++ ['}'], rest)
    | none => ([], text)
  | _ => ([], text)

inductive Bracket
  | unclosed
  | label (inside rest : List Char)
  | link (label url block rest : List Char)

def bracket (after : List Char) : Bracket :=
  match findUnescaped ']' after with
  | none => .unclosed
  | some (label, '(' :: behind) =>
    match findUnescaped ')' behind with
    | none => .unclosed
    | some (url, rest) => .link label url (attributes rest).1 (attributes rest).2
  | some (label, rest) => .label label rest

theorem findUnescaped_eq_some {needle : Char} {text inside rest : List Char}
    (found : findUnescaped needle text = some (inside, rest)) :
    text = inside ++ needle :: rest := by
  fun_induction findUnescaped needle text generalizing inside rest with
  | case1 => cases found
  | case2 => cases found; rfl
  | case3 => cases found
  | case4 character next others escaped ih =>
    rcases Option.map_eq_some_iff.mp found with ⟨⟨before, behind⟩, later, same⟩
    cases same
    rw [ih later, List.cons_append, List.cons_append]
  | case5 next others notEscaped => cases found; rfl
  | case6 character next others notEscaped differs ih =>
    rcases Option.map_eq_some_iff.mp found with ⟨⟨before, behind⟩, later, same⟩
    cases same
    rw [ih later, List.cons_append]

theorem length_findUnescaped {needle : Char} {text inside rest : List Char}
    (found : findUnescaped needle text = some (inside, rest)) : rest.length < text.length := by
  rw [findUnescaped_eq_some found, List.length_append, List.length_cons]
  omega

theorem length_attributes (text : List Char) : (attributes text).2.length ≤ text.length := by
  unfold attributes
  split
  · split
    next inside rest found =>
      exact Nat.le_succ_of_le (Nat.le_of_lt (length_findUnescaped found))
    · exact Nat.le_refl _
  · exact Nat.le_refl _

theorem length_of_bracket_label {after inside rest : List Char}
    (read : bracket after = .label inside rest) : rest.length < after.length := by
  unfold bracket at read
  split at read
  · cases read
  · split at read <;> cases read
  next found =>
    cases read
    exact length_findUnescaped found

theorem length_of_bracket_link {after label url block rest : List Char}
    (read : bracket after = .link label url block rest) : rest.length < after.length := by
  unfold bracket at read
  split at read
  · cases read
  next closed =>
    split at read
    · cases read
    next found linked =>
      cases read
      have opened := length_findUnescaped closed
      rw [List.length_cons] at opened
      have ended := length_findUnescaped linked
      exact Nat.lt_of_le_of_lt (length_attributes found) (by omega)
  · cases read

theorem length_dropWhile_lt (first : Char) (rest : List Char) (drops : Char → Bool) :
    (rest.dropWhile drops).length < (first :: rest).length :=
  Nat.lt_succ_of_le (List.dropWhile_suffix drops).length_le

/-- The links of one line from byte `index` on, `previous` being the character before it. -/
def scanLine (index : Nat) (previous : Option Char) (line : List Char) (inlineCode : Option Nat)
    (out : List Scanned) : Option Nat × List Scanned :=
  match line with
  | [] => (inlineCode, out)
  | character :: after =>
    let ticks := (after.takeWhile (· = '`')).length + 1
    match inlineCode with
    | some run =>
      if character ≠ '`' then
        scanLine (index + character.utf8Size) (some character) after (some run) out
      else
        scanLine (index + ticks) (some '`') (after.dropWhile (· = '`'))
          (if ticks = run then none else some run) out
    | none =>
      if character = '\\' then
        -- Escaped punctuation cannot start either a link or inline code.
        match after with
        | [] => scanLine (index + 1) (some character) [] none out
        | next :: others =>
          if isAsciiPunctuation next then scanLine (index + 2) (some next) others none out
          else scanLine (index + 1) (some character) (next :: others) none out
      else if character = '`' then
        scanLine (index + ticks) (some '`') (after.dropWhile (· = '`')) (some ticks) out
      else if character ≠ '[' then
        scanLine (index + character.utf8Size) (some character) after none out
      else if previous = some '!' then
        scanLine (index + 1) (some character) after none out
      else
        match read : bracket after with
        | .unclosed => (none, out)
        | .label inside rest =>
          scanLine (index + (utf8Bytes inside).length + 2) (some ']') rest none out
        | .link label url block rest =>
          let finish := index + (utf8Bytes label).length + (utf8Bytes url).length +
            (utf8Bytes block).length + 4
          let found : List Scanned := out ++
            [⟨String.ofList url, String.ofList (literalLabel label), (index, finish)⟩]
          if maxScannedLinks ≤ found.length then (none, found)
          else scanLine finish (some ')') rest none found
termination_by line.length
decreasing_by
  all_goals try exact Nat.lt_succ_self _
  all_goals try exact length_dropWhile_lt ..
  · simp only [List.length_cons]
    omega
  · exact Nat.lt_succ_of_lt (length_of_bracket_label read)
  · exact Nat.lt_succ_of_lt (length_of_bracket_link read)

def fenceOf (trimmed : List Char) : Option (Char × Nat) :=
  match trimmed with
  | [] => none
  | marker :: _ =>
    let run := (trimmed.takeWhile (· = marker)).length
    if (marker = '`' ∨ marker = '~') ∧ 3 ≤ run then some (marker, run) else none

def scanNext (lineStart : Nat) (fence : Option (Char × Nat)) (inlineCode : Option Nat)
    (out : List Scanned) (line : List Char) : Option (Char × Nat) × Option Nat × List Scanned :=
  let trimmed := line.dropWhile isWhitespace
  match fenceOf trimmed, fence with
  | some opened, none => (some opened, none, out)
  | some (marker, run), some (opening, length) =>
    (if marker = opening ∧ length ≤ run then none else fence, none, out)
  | none, none =>
    (none, scanLine lineStart none line (if trimmed.isEmpty then none else inlineCode) out)
  | none, some _ => (fence, inlineCode, out)

def scanLines (lineStart : Nat) (fence : Option (Char × Nat)) (inlineCode : Option Nat)
    (out : List Scanned) : List (List Char) → List Scanned
  | [] => out
  | line :: lines =>
    let next := scanNext lineStart fence inlineCode out line
    if maxScannedLinks ≤ next.2.2.length then next.2.2
    else scanLines (lineStart + (utf8Bytes line).length + 1) next.1 next.2.1 next.2.2 lines

def scan (source : String) : List Scanned := scanLines 0 none none [] (source.toList.splitOn '\n')

theorem findUnescaped_needle {needle : Char} (plain : needle ≠ '\\') (rest : List Char) :
    findUnescaped needle (needle :: rest) = some ([], rest) := by
  cases rest <;> simp [findUnescaped, plain]

theorem findUnescaped_escaped {needle character : Char}
    (punctuation : isAsciiPunctuation character = true) (rest : List Char) :
    findUnescaped needle ('\\' :: character :: rest) =
      (findUnescaped needle rest).map fun found =>
        ('\\' :: character :: found.1, found.2) := by
  simp [findUnescaped, punctuation]

theorem findUnescaped_cons {needle character : Char} (plain : character ≠ '\\')
    (differs : character ≠ needle) (rest : List Char) :
    findUnescaped needle (character :: rest) =
      (findUnescaped needle rest).map fun found => (character :: found.1, found.2) := by
  cases rest <;> simp [findUnescaped, plain, differs]

theorem findUnescaped_plain {needle : Char} (plain : needle ≠ '\\') {inside : List Char}
    (free : ∀ character ∈ inside, character ≠ '\\' ∧ character ≠ needle) (rest : List Char) :
    findUnescaped needle (inside ++ needle :: rest) = some (inside, rest) := by
  induction inside with
  | nil => exact findUnescaped_needle plain rest
  | cons character inside ih =>
    rw [List.forall_mem_cons] at free
    rw [List.cons_append, findUnescaped_cons free.1.1 free.1.2, ih free.2]
    rfl

theorem findUnescaped_escapeLabel {needle : Char} (plain : needle ≠ '\\')
    (mark : isAsciiPunctuation needle = true) (label rest : List Char) :
    findUnescaped needle (escapeLabel label ++ needle :: rest) =
      some (escapeLabel label, rest) := by
  induction label with
  | nil => exact findUnescaped_needle plain rest
  | cons character label ih =>
    rw [escapeLabel, List.flatMap_cons, ← escapeLabel, List.append_assoc]
    by_cases punctuation : isAsciiPunctuation character = true
    · rw [if_pos punctuation, List.cons_append, List.cons_append, List.nil_append,
        findUnescaped_escaped punctuation, ih]
      rfl
    · have ordinary : character ≠ '\\' := by
        rintro rfl
        exact punctuation (by decide)
      have differs : character ≠ needle := by
        rintro rfl
        exact punctuation mark
      rw [if_neg punctuation, List.cons_append, List.nil_append,
        findUnescaped_cons ordinary differs, ih]
      rfl

theorem literalLabel_cons {character : Char} (plain : character ≠ '\\') (rest : List Char) :
    literalLabel (character :: rest) = character :: literalLabel rest := by
  cases rest <;> simp [literalLabel, plain]

theorem literalLabel_escapeLabel (label : List Char) : literalLabel (escapeLabel label) = label := by
  induction label with
  | nil => rfl
  | cons character label ih =>
    rw [escapeLabel, List.flatMap_cons, ← escapeLabel]
    by_cases punctuation : isAsciiPunctuation character = true
    · rw [if_pos punctuation, List.cons_append, List.cons_append, List.nil_append, literalLabel,
        if_pos ⟨rfl, punctuation⟩, ih]
    · have ordinary : character ≠ '\\' := by
        rintro rfl
        exact punctuation (by decide)
      rw [if_neg punctuation, List.cons_append, List.nil_append, literalLabel_cons ordinary, ih]

theorem scanLine_nil (index : Nat) (previous : Option Char) (inlineCode : Option Nat)
    (out : List Scanned) : scanLine index previous [] inlineCode out = (inlineCode, out) := by
  rw [scanLine]

theorem bracket_link {label url block : List Char}
    (plainUrl : ∀ character ∈ url, character ≠ '\\' ∧ character ≠ ')')
    (whole : attributes block = (block, [])) :
    bracket (escapeLabel label ++ ']' :: '(' :: (url ++ ')' :: block)) =
      .link (escapeLabel label) url block [] := by
  have labelled : findUnescaped ']' _ = _ :=
    findUnescaped_escapeLabel (by decide) (by decide) label ('(' :: (url ++ ')' :: block))
  have linked : findUnescaped ')' _ = _ := findUnescaped_plain (by decide) plainUrl block
  simp only [bracket, labelled, linked, whole]

theorem scanLine_link {label url block : List Char}
    (plainUrl : ∀ character ∈ url, character ≠ '\\' ∧ character ≠ ')')
    (whole : attributes block = (block, [])) :
    scanLine 0 none ('[' :: (escapeLabel label ++ ']' :: '(' :: (url ++ ')' :: block))) none [] =
      (none, [⟨String.ofList url, String.ofList label,
        (0, (utf8Bytes (escapeLabel label)).length + (utf8Bytes url).length +
          (utf8Bytes block).length + 4)⟩]) := by
  have read : bracket (escapeLabel label ++ _) = _ := bracket_link plainUrl whole
  rw [scanLine.eq_def]
  dsimp only
  rw [if_neg (by decide), if_neg (by decide), if_neg (by decide), if_neg (by decide)]
  split
  next missing =>
    rw [read] at missing
    cases missing
  next other =>
    rw [read] at other
    cases other
  next same =>
    rw [read] at same
    cases same
    have room : (1 : Nat) < maxScannedLinks := by decide
    rw [List.nil_append, List.length_singleton, if_neg (Nat.not_le_of_lt room), scanLine_nil,
      literalLabel_escapeLabel, Nat.zero_add]

theorem scanNext_bracket (rest : List Char) :
    scanNext 0 none none [] ('[' :: rest) = (none, scanLine 0 none ('[' :: rest) none []) := by
  have trimmed : ('[' :: rest).dropWhile isWhitespace = '[' :: rest :=
    List.dropWhile_cons_of_neg (by decide)
  have fence : fenceOf ('[' :: rest) = none := by simp [fenceOf]
  simp only [scanNext, trimmed, fence, List.isEmpty_cons, Bool.false_eq_true, if_false]

theorem scan_link {label url block : List Char}
    (oneLine : '\n' ∉ label ++ url ++ block)
    (plainUrl : ∀ character ∈ url, character ≠ '\\' ∧ character ≠ ')')
    (whole : attributes block = (block, [])) :
    scan (String.ofList ('[' :: (escapeLabel label ++ ']' :: '(' :: (url ++ ')' :: block)))) =
      [⟨String.ofList url, String.ofList label,
        (0, (utf8Bytes (escapeLabel label)).length + (utf8Bytes url).length +
          (utf8Bytes block).length + 4)⟩] := by
  have escaped : '\n' ∉ escapeLabel label := by
    intro member
    rcases List.mem_flatMap.mp member with ⟨character, present, inside⟩
    have ordinary : character ≠ '\n' := by
      rintro rfl
      exact oneLine (by simp [present])
    split at inside <;> simp [ordinary.symm] at inside
  have line : '\n' ∉ '[' :: (escapeLabel label ++ ']' :: '(' :: (url ++ ')' :: block)) := by
    simp only [List.mem_append, not_or] at oneLine
    simp [escaped, oneLine]
  rw [scan, String.toList_ofList, List.splitOn_eq_singleton line, scanLines, scanNext_bracket,
    scanLine_link plainUrl whole, scanLines]
  exact ite_self _

end KnotEditor.Readings
