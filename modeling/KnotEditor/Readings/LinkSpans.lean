import KnotEditor.Readings.LinkByteScan

/-! Which ranges of the source the links of a reading get. -/

namespace KnotEditor.Readings

open Desktop.DocumentLinks (isAsciiPunctuation)

structure ReadingLink where
  target : String
  rel : Option String
  text : String
  span : Option (Nat × Nat)
  deriving DecidableEq

structure ParsedLink where
  target : String
  rel : Option String
  text : String

def ParsedLink.reading (link : ParsedLink) : ReadingLink :=
  { target := link.target, rel := link.rel, text := link.text, span := none }

def takeRange (target text : String) :
    List (Option Scanned) → Option (Nat × Nat) × List (Option Scanned)
  | [] => (none, [])
  | none :: candidates =>
    ((takeRange target text candidates).1, none :: (takeRange target text candidates).2)
  | some hit :: candidates =>
    if hit.target = target ∧ hit.text = text then (some hit.span, none :: candidates)
    else ((takeRange target text candidates).1, some hit :: (takeRange target text candidates).2)

def placeLinks (scanned : List (Option Scanned)) : List ReadingLink → List ReadingLink
  | [] => []
  | link :: links =>
    let taken := takeRange link.target link.text scanned
    { link with span := taken.1.or link.span } :: placeLinks taken.2 links

/-- The links of a preview, in document order, with the ranges the scan offers them. The reading
fails where the scan would slice the source inside a character. -/
def extract (source : String) (preview : List ParsedLink) : Option (List ReadingLink) := do
  let scanned ← scanBytes source
  return placeLinks (scanned.map some) (preview.map ParsedLink.reading)

def slashes (text : List Char) : Nat := (text.reverse.takeWhile (· = '\\')).length

structure Placement (source : List Char) (scanned : Scanned) where
  before : List Char
  label : List Char
  url : List Char
  block : List Char
  after : List Char
  whole : source = before ++ ('[' :: label ++ ']' :: '(' :: url ++ ')' :: block) ++ after
  starts : scanned.span.1 = (utf8Bytes before).length
  finishes : scanned.span.2 = scanned.span.1 + (utf8Bytes label).length + (utf8Bytes url).length +
    (utf8Bytes block).length + 4
  target : scanned.target = String.ofList url
  text : scanned.text = String.ofList (literalLabel label)
  labelEnds : findUnescaped ']' (label ++ [']']) = some (label, [])
  urlEnds : findUnescaped ')' (url ++ [')']) = some (url, [])
  attributes : block = [] ∨ ∃ inside, block = '{' :: inside ++ ['}']
  unescaped : slashes before % 2 = 0
  navigates : before.getLast? ≠ some '!'

structure Found (source : List Char) (low high : Nat) (found : List Scanned) : Prop where
  placed : ∀ scanned ∈ found, Nonempty (Placement source scanned)
  within : ∀ scanned ∈ found, low ≤ scanned.span.1 ∧ scanned.span.2 ≤ high
  ordered : found.Pairwise fun first second => first.span.2 ≤ second.span.1

theorem findUnescaped_closed {needle : Char} (plain : needle ≠ '\\') {text inside rest : List Char}
    (found : findUnescaped needle text = some (inside, rest)) (other : List Char) :
    findUnescaped needle (inside ++ needle :: other) = some (inside, other) := by
  fun_induction findUnescaped needle text generalizing inside rest with
  | case1 => cases found
  | case2 =>
    cases found
    exact findUnescaped_needle plain other
  | case3 => cases found
  | case4 character next others escaped ih =>
    rcases Option.map_eq_some_iff.mp found with ⟨⟨before, behind⟩, later, same⟩
    cases same
    rw [escaped.1, List.cons_append, List.cons_append, findUnescaped_escaped escaped.2, ih later,
      Option.map_some]
  | case5 next others notEscaped =>
    cases found
    exact findUnescaped_needle plain other
  | case6 character next others notEscaped differs ih =>
    rcases Option.map_eq_some_iff.mp found with ⟨⟨before, behind⟩, later, same⟩
    cases same
    have closed := ih later
    have split := findUnescaped_eq_some later
    rw [List.cons_append]
    cases before with
    | nil =>
      cases split
      rw [List.nil_append] at closed ⊢
      rw [findUnescaped, if_neg notEscaped, if_neg differs, closed, Option.map_some]
    | cons first before =>
      cases split
      rw [List.cons_append] at closed ⊢
      rw [findUnescaped, if_neg notEscaped, if_neg differs, closed, Option.map_some]

theorem slashes_concat (text : List Char) : slashes (text ++ ['\\']) = slashes text + 1 := by
  simp [slashes]

theorem slashes_concat_of_ne (text : List Char) {character : Char} (plain : character ≠ '\\') :
    slashes (text ++ [character]) = 0 := by
  simp [slashes, plain]

theorem slashes_of_getLast? {text : List Char} {character : Char}
    (last : text.getLast? = some character) (plain : character ≠ '\\') : slashes text = 0 := by
  obtain ⟨front, rfl⟩ := List.getLast?_eq_some_iff.mp last
  exact slashes_concat_of_ne front plain

section finding

variable {source : List Char} {low middle high : Nat} {first second : List Scanned}

theorem Found.empty : Found source low high [] where
  placed := by simp
  within := by simp
  ordered := List.Pairwise.nil

theorem Found.widen (found : Found source middle high first) (below : low ≤ middle) :
    Found source low high first where
  placed := found.placed
  within := fun scanned member =>
    ⟨Nat.le_trans below (found.within scanned member).1, (found.within scanned member).2⟩
  ordered := found.ordered

theorem Found.append (before : Found source low middle first)
    (behind : Found source middle high second) (lower : low ≤ middle) (upper : middle ≤ high) :
    Found source low high (first ++ second) where
  placed := by
    intro scanned member
    rcases List.mem_append.mp member with member | member
    · exact before.placed scanned member
    · exact behind.placed scanned member
  within := by
    intro scanned member
    rcases List.mem_append.mp member with member | member
    · have bounds := before.within scanned member
      omega
    · have bounds := behind.within scanned member
      omega
  ordered := by
    refine List.pairwise_append.mpr ⟨before.ordered, behind.ordered, ?_⟩
    intro one inFirst other inSecond
    have ends := (before.within one inFirst).2
    have starts := (behind.within other inSecond).1
    omega

theorem Found.single {scanned : Scanned} (placed : Placement source scanned)
    (starts : low ≤ scanned.span.1) (finishes : scanned.span.2 ≤ high) :
    Found source low high [scanned] where
  placed := by
    intro other member
    cases List.mem_singleton.mp member
    exact ⟨placed⟩
  within := by
    intro other member
    cases List.mem_singleton.mp member
    exact ⟨starts, finishes⟩
  ordered := List.pairwise_singleton ..

end finding

def placementOfBracket {source before after behind tail label url found block rest : List Char}
    {index finish : Nat} (whole : source = before ++ '[' :: after ++ tail)
    (here : index = (utf8Bytes before).length)
    (closed : findUnescaped ']' after = some (label, '(' :: behind))
    (linked : findUnescaped ')' behind = some (url, found))
    (ended : attributes found = (block, rest))
    (finishes : finish = index + (utf8Bytes label).length + (utf8Bytes url).length +
      (utf8Bytes block).length + 4)
    (even : slashes before % 2 = 0) (navigates : before.getLast? ≠ some '!') :
    Placement source
      ⟨String.ofList url, String.ofList (literalLabel label), (index, finish)⟩ where
  before := before
  label := label
  url := url
  block := block
  after := rest ++ tail
  whole := by
    rw [whole, findUnescaped_eq_some closed, findUnescaped_eq_some linked, attributes_append ended]
    simp only [List.cons_append, List.append_assoc]
  starts := here
  finishes := finishes
  target := rfl
  text := rfl
  labelEnds := findUnescaped_closed (by decide) closed []
  urlEnds := findUnescaped_closed (by decide) linked []
  attributes := block_cases ended
  unescaped := even
  navigates := navigates

def Adds (source : List Char) (index : Nat) (line : List Char) (out result : List Scanned) : Prop :=
  ∃ found, result = out ++ found ∧ Found source index (index + (utf8Bytes line).length) found

theorem Adds.later {source line : List Char} {index next : Nat} {out result : List Scanned}
    (piece : List Char) {rest : List Char} (adds : Adds source next rest out result)
    (read : line = piece ++ rest) (moved : next = index + (utf8Bytes piece).length) :
    Adds source index line out result := by
  obtain ⟨found, same, inside⟩ := adds
  have size : next + (utf8Bytes rest).length = index + (utf8Bytes line).length := by
    rw [moved, read, utf8Bytes_append, List.length_append, Nat.add_assoc]
  rw [size] at inside
  exact ⟨found, same, inside.widen (by omega)⟩

theorem pass {source before line tail : List Char} {index next : Nat}
    (whole : source = before ++ line ++ tail) (here : index = (utf8Bytes before).length)
    (piece rest : List Char) (read : line = piece ++ rest)
    (moved : next = index + (utf8Bytes piece).length) :
    source = before ++ piece ++ rest ++ tail ∧ next = (utf8Bytes (before ++ piece)).length := by
  constructor
  · rw [whole, read]
    simp only [List.append_assoc]
  · rw [moved, here, utf8Bytes_append, List.length_append]

theorem getLast?_behindTicks (before after : List Char) :
    (before ++ '`' :: after.takeWhile (· = '`')).getLast? = some '`' := by
  rw [List.getLast?_append_of_ne_nil _ (List.cons_ne_nil _ _), getLast?_ticks]

theorem scanLine_adds {source before line tail : List Char} {index : Nat}
    {previous : Option Char} {inlineCode : Option Nat} {out : List Scanned}
    (whole : source = before ++ line ++ tail) (here : index = (utf8Bytes before).length)
    (bang : before.getLast? = some '!' → previous = some '!')
    (even : inlineCode = none → ∀ next ∈ line.head?, isAsciiPunctuation next = true →
      slashes before % 2 = 0) :
    Adds source index line out (scanLine index previous line inlineCode out).2 := by
  fun_induction scanLine index previous line inlineCode out generalizing before with
  | case1 => exact ⟨[], (List.append_nil _).symm, Found.empty⟩
  | case2 index previous out character after run tick ih =>
    have size : index + character.utf8Size = index + (utf8Bytes [character]).length := by
      rw [utf8Bytes_cons, utf8Bytes_nil, List.append_nil, String.length_utf8EncodeChar]
    obtain ⟨whole, here⟩ := pass whole here [character] after rfl size
    refine Adds.later [character] (ih whole here ?_ ?_) rfl size
    · rw [List.getLast?_concat]
      exact id
    · rintro ⟨⟩
  | case3 index previous out character after ticks run tick =>
    rename_i ih
    cases not_not.mp tick
    obtain ⟨whole, here⟩ := pass whole here _ _ (ticks_append after) (length_ticks index after)
    refine Adds.later _ (ih whole here ?_ ?_) (ticks_append after) (length_ticks index after)
    · rw [getLast?_behindTicks]
      exact id
    · intro _ _ _ _
      rw [slashes_of_getLast? (getLast?_behindTicks before after) (by decide)]
  | case4 index previous out ih =>
    obtain ⟨whole, here⟩ := pass whole here ['\\'] [] rfl rfl
    refine Adds.later ['\\'] (ih whole here ?_ ?_) rfl rfl
    · rw [List.getLast?_concat]
      exact id
    · intro _ next member
      cases member
  | case5 index previous out next others punctuation ih =>
    have size : index + 2 = index + (utf8Bytes ['\\', next]).length := by
      rw [length_utf8Bytes_mark (by decide),
        length_utf8Bytes_mark (isAsciiPunctuation_ascii punctuation)]
      rfl
    obtain ⟨whole, here⟩ := pass whole here ['\\', next] others rfl size
    have pair : before ++ ['\\', next] = before ++ ['\\'] ++ [next] := by simp
    rw [pair] at whole here
    refine Adds.later ['\\', next] (ih whole here ?_ ?_) rfl size
    · rw [List.getLast?_concat]
      exact id
    · intro _ _ _ _
      by_cases backslash : next = '\\'
      · have earlier := even rfl '\\' rfl (by decide)
        rw [backslash, slashes_concat, slashes_concat]
        omega
      · rw [slashes_concat_of_ne _ backslash]
  | case6 index previous out next others plain ih =>
    obtain ⟨whole, here⟩ := pass whole here ['\\'] (next :: others) rfl rfl
    refine Adds.later ['\\'] (ih whole here ?_ ?_) rfl rfl
    · rw [List.getLast?_concat]
      exact id
    · rintro _ _ ⟨⟩ punctuation
      exact absurd punctuation plain
  | case7 index previous out after ticks _ =>
    rename_i ih
    obtain ⟨whole, here⟩ := pass whole here _ _ (ticks_append after) (length_ticks index after)
    refine Adds.later _ (ih whole here ?_ ?_) (ticks_append after) (length_ticks index after)
    · rw [getLast?_behindTicks]
      exact id
    · rintro ⟨⟩
  | case8 index previous out character after backslash tick open_ ih =>
    have size : index + character.utf8Size = index + (utf8Bytes [character]).length := by
      rw [utf8Bytes_cons, utf8Bytes_nil, List.append_nil, String.length_utf8EncodeChar]
    obtain ⟨whole, here⟩ := pass whole here [character] after rfl size
    refine Adds.later [character] (ih whole here ?_ ?_) rfl size
    · rw [List.getLast?_concat]
      exact id
    · intro _ _ _ _
      rw [slashes_concat_of_ne _ backslash]
  | case9 index out character after _ _ open_ ih =>
    cases not_not.mp open_
    obtain ⟨whole, here⟩ := pass whole here ['['] after rfl rfl
    refine Adds.later ['['] (ih whole here ?_ ?_) rfl rfl
    · rw [List.getLast?_concat]
      exact id
    · intro _ _ _ _
      rw [slashes_concat_of_ne _ (by decide)]
  | case10 => exact ⟨[], (List.append_nil _).symm, Found.empty⟩
  | case11 index previous out character after _ _ open_ image label rest read ih =>
    cases not_not.mp open_
    have size : index + (utf8Bytes label).length + 2 =
        index + (utf8Bytes ('[' :: label ++ [']'])).length := by
      rw [utf8Bytes_append, List.length_append, length_utf8Bytes_mark (by decide),
        length_utf8Bytes_mark (by decide), utf8Bytes_nil, List.length_nil]
      omega
    have text : '[' :: after = '[' :: label ++ [']'] ++ rest := by
      rw [findUnescaped_eq_some (bracket_label read).1]
      simp only [List.cons_append, List.append_assoc, List.nil_append]
    obtain ⟨whole, here⟩ := pass whole here _ rest text size
    rw [← List.append_assoc before] at whole here
    refine Adds.later _ (ih whole here ?_ ?_) text size
    · rw [List.getLast?_concat]
      exact id
    · intro _ _ _ _
      rw [slashes_concat_of_ne _ (by decide)]
  | case12 index previous out character after _ _ open_ image label url block rest read finish next =>
    rename_i full
    cases not_not.mp open_
    obtain ⟨behind, found, closed, linked, ended⟩ := bracket_eq_link read
    have placed := placementOfBracket whole here closed linked ended rfl
      (even rfl '[' rfl (by decide)) (fun marked => image (bang marked))
    obtain ⟨text, size⟩ := length_link index closed linked ended
    refine ⟨_, rfl, Found.single placed (Nat.le_refl _) ?_⟩
    rw [text, utf8Bytes_append, List.length_append]
    exact Nat.le_trans (Nat.le_of_eq size) (Nat.add_le_add_left (Nat.le_add_right ..) _)
  | case13 index previous out character after _ _ open_ image label url block rest read finish next
      room =>
      rename_i ih
      cases not_not.mp open_
      obtain ⟨behind, found, closed, linked, ended⟩ := bracket_eq_link read
      have placed := placementOfBracket whole here closed linked ended rfl
        (even rfl '[' rfl (by decide)) (fun marked => image (bang marked))
      obtain ⟨text, size⟩ := length_link index closed linked ended
      obtain ⟨whole, here⟩ := pass whole here _ rest text size
      have last := getLast?_behindLink before label url (block_cases ended)
      have later : Adds source finish rest next (scanLine finish (some ')') rest none next).2 := by
        refine ih whole here ?_ ?_
        · rcases last with last | last <;> rw [last] <;> rintro ⟨⟩
        · intro _ _ _ _
          rcases last with last | last <;> rw [slashes_of_getLast? last (by decide)]
      obtain ⟨added, same, inside⟩ := later
      have high : finish + (utf8Bytes rest).length =
          index + (utf8Bytes ('[' :: after)).length := by
        rw [text, utf8Bytes_append, List.length_append, ← Nat.add_assoc]
        exact congrArg (· + _) size
      rw [high] at inside
      refine ⟨_, same.trans (List.append_assoc ..), Found.append (Found.single placed
        (Nat.le_refl _) (Nat.le_refl _)) inside ?_ ?_⟩
      · exact Nat.le_trans (Nat.le_add_right _ _) (Nat.le_of_eq size.symm)
      · exact Nat.le_trans (Nat.le_add_right _ _) (Nat.le_of_eq high)

theorem Adds.longer {source line : List Char} {index : Nat} {out result : List Scanned}
    (adds : Adds source index line out result) (more : List Char) :
    Adds source index (line ++ more) out result := by
  obtain ⟨found, same, inside⟩ := adds
  refine ⟨found, same, inside.placed, ?_, inside.ordered⟩
  intro scanned member
  have bounds := inside.within scanned member
  rw [utf8Bytes_append, List.length_append]
  omega

theorem Adds.andThen {source first second : List Char} {index next : Nat}
    {out middle result : List Scanned} (before : Adds source index first out middle)
    (behind : Adds source next second middle result)
    (moved : next = index + (utf8Bytes first).length) :
    Adds source index (first ++ second) out result := by
  obtain ⟨found, rfl, inside⟩ := before
  obtain ⟨more, rfl, later⟩ := behind
  have size : index + (utf8Bytes (first ++ second)).length = next + (utf8Bytes second).length := by
    rw [moved, utf8Bytes_append, List.length_append, Nat.add_assoc]
  rw [← moved] at inside
  rw [← size] at later
  exact ⟨found ++ more, List.append_assoc .., inside.append later (by omega) (by omega)⟩

theorem scanNext_adds {source earlier line tail : List Char} {lineStart : Nat}
    (whole : source = earlier ++ line ++ tail) (here : lineStart = (utf8Bytes earlier).length)
    (begins : ∀ last ∈ earlier.getLast?, last = '\n') (fence : Option (Char × Nat))
    (inlineCode : Option Nat) (out : List Scanned) :
    Adds source lineStart line out (scanNext lineStart fence inlineCode out line).2.2 := by
  have nothing : Adds source lineStart line out out :=
    ⟨[], (List.append_nil _).symm, Found.empty⟩
  have unescaped : slashes earlier % 2 = 0 := by
    cases last : earlier.getLast? with
    | none => rw [List.getLast?_eq_none_iff.mp last]; rfl
    | some character =>
      rw [slashes_of_getLast? last (by rw [begins character last]; decide)]
  have walked : ∀ code, Adds source lineStart line out (scanLine lineStart none line code out).2 := by
    intro code
    refine scanLine_adds whole here ?_ (fun _ _ _ _ => unescaped)
    intro marked
    exact absurd (begins '!' marked) (by decide)
  simp only [scanNext]
  cases fenceOf (line.dropWhile isWhitespace) with
  | some opened => cases fence <;> exact nothing
  | none =>
    cases fence with
    | some opening => exact nothing
    | none => exact walked _

theorem scanLines_adds {source : List Char} (earlier : List Char) {lineStart : Nat}
    {lines : List (List Char)}
    (whole : source = earlier ++ ['\n'].intercalate lines)
    (here : lineStart = (utf8Bytes earlier).length)
    (begins : ∀ last ∈ earlier.getLast?, last = '\n') (fence : Option (Char × Nat))
    (inlineCode : Option Nat) (out : List Scanned) :
    Adds source lineStart (['\n'].intercalate lines) out
      (scanLines lineStart fence inlineCode out lines) := by
  induction lines generalizing earlier lineStart fence inlineCode out with
  | nil => exact ⟨[], (List.append_nil _).symm, Found.empty⟩
  | cons line lines ih =>
    obtain ⟨behind, text⟩ : ∃ behind, ['\n'].intercalate (line :: lines) = line ++ behind := by
      cases lines with
      | nil => exact ⟨[], by rw [List.append_nil, List.intercalate_singleton]⟩
      | cons next lines => exact ⟨_, lines_cons ..⟩
    have step := scanNext_adds (whole.trans (by rw [text, List.append_assoc])) here begins fence
      inlineCode out
    rw [scanLines]
    split
    · rw [text]
      exact step.longer behind
    · cases lines with
      | nil =>
        rw [List.intercalate_singleton]
        exact step
      | cons next lines =>
        have ended : (utf8Bytes (line ++ ['\n'])).length = (utf8Bytes line).length + 1 := by
          rw [utf8Bytes_append, List.length_append]
          rfl
        have joined : ['\n'].intercalate (line :: next :: lines) =
            line ++ ['\n'] ++ ['\n'].intercalate (next :: lines) := by
          rw [lines_cons, List.append_assoc, List.singleton_append]
        rw [joined] at whole ⊢
        refine (step.longer ['\n']).andThen (ih (earlier ++ (line ++ ['\n'])) ?_ ?_ ?_
          _ _ _) ?_
        · rw [whole, List.append_assoc earlier]
        · rw [here, utf8Bytes_append, List.length_append, ended, Nat.add_assoc]
        · intro last member
          rw [← List.append_assoc, List.getLast?_concat] at member
          exact (Option.some.inj member).symm
        · rw [ended, Nat.add_assoc]

theorem scan_found (source : String) : Found source.toList 0 source.utf8ByteSize (scan source) := by
  have whole : source.toList = [] ++ ['\n'].intercalate (source.toList.splitOn '\n') := by
    rw [List.intercalate_splitOn, List.nil_append]
  obtain ⟨found, same, inside⟩ := scanLines_adds [] whole rfl (by simp) none none []
  rw [List.intercalate_splitOn, length_utf8Bytes, utf8Bytes_nil, List.length_nil,
    Nat.zero_add] at inside
  have result : scan source = found := same
  rw [result]
  exact inside

section placing

variable {target text : String} {candidates : List (Option Scanned)}

theorem takeRange_cases (target text : String) (candidates : List (Option Scanned)) :
    ((∀ other, some other ∈ candidates → ¬(other.target = target ∧ other.text = text)) ∧
        takeRange target text candidates = (none, candidates)) ∨
      ∃ before hit after, candidates = before ++ some hit :: after ∧
        (hit.target = target ∧ hit.text = text) ∧
        (∀ other, some other ∈ before → ¬(other.target = target ∧ other.text = text)) ∧
        takeRange target text candidates = (some hit.span, before ++ none :: after) := by
  induction candidates with
  | nil => exact Or.inl ⟨fun other member => absurd member List.not_mem_nil, rfl⟩
  | cons candidate candidates ih =>
    cases candidate with
    | none =>
      rcases ih with ⟨unfit, missing⟩ | ⟨before, hit, after, rfl, fits, first, taken⟩
      · refine Or.inl ⟨?_, by rw [takeRange, missing]⟩
        intro other member
        exact unfit other (by simpa using member)
      · refine Or.inr ⟨none :: before, hit, after, rfl, fits, ?_, ?_⟩
        · intro other member
          exact first other (by simpa using member)
        · rw [takeRange, taken, List.cons_append]
    | some found =>
      by_cases matches_ : found.target = target ∧ found.text = text
      · refine Or.inr ⟨[], found, candidates, rfl, matches_, ?_, ?_⟩
        · intro other member
          exact absurd member List.not_mem_nil
        · rw [takeRange, if_pos matches_, List.nil_append]
      · rcases ih with ⟨unfit, missing⟩ | ⟨before, hit, after, rfl, fits, first, taken⟩
        · refine Or.inl ⟨?_, by rw [takeRange, if_neg matches_, missing]⟩
          intro other member
          rcases List.mem_cons.mp member with same | member
          · exact Option.some.inj same ▸ matches_
          · exact unfit other member
        · refine Or.inr ⟨some found :: before, hit, after, rfl, fits, ?_, ?_⟩
          · intro other member
            rcases List.mem_cons.mp member with same | member
            · exact Option.some.inj same ▸ matches_
            · exact first other member
          · rw [takeRange, if_neg matches_, taken, List.cons_append]

theorem mem_split_none {before after : List (Option Scanned)} {hit : Scanned}
    (member : some hit ∈ before ++ none :: after) : some hit ∈ before ∨ some hit ∈ after := by
  simpa using member

theorem mem_takeRange {hit : Scanned}
    (member : some hit ∈ (takeRange target text candidates).2) : some hit ∈ candidates := by
  rcases takeRange_cases target text candidates with
    ⟨_, missing⟩ | ⟨before, taken, after, rfl, _, _, left⟩
  · rwa [missing] at member
  · rw [left] at member
    rcases mem_split_none member with member | member
    · exact List.mem_append_left _ member
    · exact List.mem_append_right _ (List.mem_cons_of_mem _ member)

theorem mem_placeLinks {links : List ReadingLink} (unplaced : ∀ link ∈ links, link.span = none)
    {link : ReadingLink} (member : link ∈ placeLinks candidates links) {span : Nat × Nat}
    (placed : link.span = some span) :
    ∃ hit, some hit ∈ candidates ∧ hit.span = span ∧ hit.target = link.target ∧
      hit.text = link.text := by
  induction links generalizing candidates with
  | nil => cases member
  | cons first links ih =>
    rw [List.forall_mem_cons] at unplaced
    rw [placeLinks] at member
    rcases List.mem_cons.mp member with rfl | later
    · rcases takeRange_cases first.target first.text candidates with
        ⟨_, missing⟩ | ⟨before, hit, after, rfl, fits, _, taken⟩
      · simp [missing, unplaced.1] at placed
      · simp only [taken, Option.some_or, Option.some.injEq] at placed
        exact ⟨hit, List.mem_append_right _ List.mem_cons_self, placed, fits⟩
    · obtain ⟨hit, left, fits⟩ := ih unplaced.2 later
      exact ⟨hit, mem_takeRange left, fits⟩

end placing

def Apart (first second : ReadingLink) : Prop :=
  ∀ span ∈ first.span, ∀ other ∈ second.span, span.2 ≤ other.1 ∨ other.2 ≤ span.1

def InTurn (first second : ReadingLink) : Prop :=
  first.target = second.target → first.text = second.text →
    ∀ other ∈ second.span, ∃ span ∈ first.span, span.2 ≤ other.1

def InOrder (candidates : List (Option Scanned)) : Prop :=
  candidates.Pairwise fun first second =>
    ∀ hit ∈ first, ∀ other ∈ second, hit.span.2 ≤ other.span.1

theorem InOrder.take {before after : List (Option Scanned)} {hit : Scanned}
    (ordered : InOrder (before ++ some hit :: after)) :
    InOrder (before ++ none :: after) ∧
      (∀ other, some other ∈ before → other.span.2 ≤ hit.span.1) ∧
      ∀ other, some other ∈ after → hit.span.2 ≤ other.span.1 := by
  obtain ⟨ahead, behind, between⟩ := List.pairwise_append.mp ordered
  obtain ⟨fromHit, behind⟩ := List.pairwise_cons.mp behind
  refine ⟨?_, ?_, ?_⟩
  · refine List.pairwise_append.mpr ⟨ahead, List.pairwise_cons.mpr ⟨?_, behind⟩, ?_⟩
    · rintro _ _ _ ⟨⟩
    · intro one inBefore other inside
      rcases List.mem_cons.mp inside with rfl | inside
      · rintro _ _ _ ⟨⟩
      · exact between one inBefore other (List.mem_cons_of_mem _ inside)
  · intro other member
    exact between _ member _ List.mem_cons_self other rfl hit rfl
  · intro other member
    exact fromHit _ member hit rfl other rfl

theorem placeLinks_apart {candidates : List (Option Scanned)} {links : List ReadingLink}
    (unplaced : ∀ link ∈ links, link.span = none) (ordered : InOrder candidates) :
    (placeLinks candidates links).Pairwise fun first second =>
      Apart first second ∧ InTurn first second := by
  induction links generalizing candidates with
  | nil => exact List.Pairwise.nil
  | cons link links ih =>
    rw [List.forall_mem_cons] at unplaced
    rw [placeLinks]
    rcases takeRange_cases link.target link.text candidates with
      ⟨unfit, missing⟩ | ⟨before, hit, after, rfl, fits, first, taken⟩
    · simp only [missing, Option.none_or, unplaced.1]
      refine List.pairwise_cons.mpr ⟨?_, ih unplaced.2 ordered⟩
      intro later member
      refine ⟨?_, ?_⟩
      · rintro _ ⟨⟩
      · intro sameTarget sameText span placed
        obtain ⟨other, left, _, otherTarget, otherText⟩ :=
          mem_placeLinks unplaced.2 member placed
        exact absurd ⟨otherTarget.trans sameTarget.symm, otherText.trans sameText.symm⟩
          (unfit other left)
    · obtain ⟨rest, ahead, behind⟩ := ordered.take
      simp only [taken, Option.some_or]
      refine List.pairwise_cons.mpr ⟨?_, ih unplaced.2 rest⟩
      intro later member
      have from_ : ∀ span, later.span = some span → ∃ other,
          (some other ∈ before ∨ some other ∈ after) ∧ other.span = span ∧
            other.target = later.target ∧ other.text = later.text := by
        intro span placed
        obtain ⟨other, left, same⟩ := mem_placeLinks unplaced.2 member placed
        exact ⟨other, mem_split_none left, same⟩
      refine ⟨?_, ?_⟩
      · rintro _ ⟨⟩ span placed
        obtain ⟨other, left, rfl, _⟩ := from_ span placed
        exact left.elim (fun inBefore => Or.inr (ahead other inBefore))
          (fun inAfter => Or.inl (behind other inAfter))
      · intro sameTarget sameText span placed
        obtain ⟨other, left, rfl, otherTarget, otherText⟩ := from_ span placed
        rcases left with inBefore | inAfter
        · exact absurd ⟨otherTarget.trans sameTarget.symm, otherText.trans sameText.symm⟩
            (first other inBefore)
        · exact ⟨hit.span, rfl, behind other inAfter⟩

/-- A link's range, sliced from its source: a bracket that is neither escaped nor an image's, the
label up to the first unescaped `]`, the target up to the first unescaped `)`, the attributes. -/
structure SpanSound (source : String) (link : ReadingLink) (span : Nat × Nat) : Prop where
  nonempty : span.1 < span.2
  inBounds : span.2 ≤ source.utf8ByteSize
  starts : CharBoundary source span.1
  finishes : CharBoundary source span.2
  form : ∃ range label url block, sourceRange source span.1 span.2 = some range ∧
    range.inside = '[' :: label ++ ']' :: '(' :: url ++ ')' :: block ∧
    findUnescaped ']' (label ++ [']']) = some (label, []) ∧
    findUnescaped ')' (url ++ [')']) = some (url, []) ∧
    (block = [] ∨ ∃ inside, block = '{' :: inside ++ ['}']) ∧
    link.target = String.ofList url ∧ link.text = String.ofList (literalLabel label) ∧
    slashes range.before % 2 = 0 ∧ range.before.getLast? ≠ some '!'

theorem Placement.spanSound {source : String} {scanned : Scanned}
    (placed : Placement source.toList scanned) {link : ReadingLink}
    (target : scanned.target = link.target) (text : scanned.text = link.text) :
    SpanSound source link scanned.span := by
  obtain ⟨before, label, url, block, after, whole, starts, finishes, sameTarget, sameText, labelEnds,
    urlEnds, formed, unescaped, navigates⟩ := placed
  have inside := length_linkText label url block
  have ends : scanned.span.2 =
      (utf8Bytes (before ++ ('[' :: label ++ ']' :: '(' :: url ++ ')' :: block))).length := by
    rw [utf8Bytes_append, List.length_append, inside, ← starts]
    omega
  refine ⟨by omega, ?_, ?_, ?_, ⟨⟨before, _, after⟩, label, url, block,
    sourceRange_append whole starts ?_, rfl, labelEnds, urlEnds, formed, target ▸ sameTarget,
    text ▸ sameText, unescaped, navigates⟩⟩
  · rw [ends, ← length_utf8Bytes, whole, utf8Bytes_append _ after, List.length_append]
    exact Nat.le_add_right ..
  · rw [CharBoundary, starts, whole, List.append_assoc, splitAtByte_append]
    rfl
  · rw [CharBoundary, ends, whole, splitAtByte_append]
    rfl
  · omega

theorem inOrder_scan (source : String) : InOrder ((scan source).map some) := by
  refine List.pairwise_map.mpr ((scan_found source).ordered.imp ?_)
  rintro first second later _ ⟨⟩ _ ⟨⟩
  exact later

theorem placeLinks_facts (candidates : List (Option Scanned)) (links : List ReadingLink) :
    (placeLinks candidates links).map (fun link => (link.target, link.rel, link.text)) =
      links.map fun link => (link.target, link.rel, link.text) := by
  induction links generalizing candidates with
  | nil => rfl
  | cons link links ih => rw [placeLinks, List.map_cons, List.map_cons, ih]

theorem countP_span_le_one {links : List ReadingLink} {span : Nat × Nat} (nonempty : span.1 < span.2)
    (apart : links.Pairwise Apart) : links.countP (fun link => link.span = some span) ≤ 1 := by
  induction links with
  | nil => exact Nat.zero_le _
  | cons link links ih =>
    obtain ⟨fromLink, apart⟩ := List.pairwise_cons.mp apart
    rw [List.countP_cons]
    split
    next taken =>
      have others : links.countP (fun link => link.span = some span) = 0 := by
        rw [List.countP_eq_zero]
        intro other member same
        have disjoint := fromLink other member span (of_decide_eq_true taken) span
          (of_decide_eq_true same)
        omega
      omega
    · exact ih apart

/-- The spans a reading gives its links are ranges of the source that hold just these links, and
no byte of the source is in two of them. -/
theorem link_spans_sound (source : String) (preview : List ParsedLink) :
    ∃ links, extract source preview = some links ∧
      links.map (fun link => (link.target, link.rel, link.text)) =
        preview.map (fun link => (link.target, link.rel, link.text)) ∧
      links.Pairwise Apart ∧ links.Pairwise InTurn ∧
      (∀ hit ∈ scan source, links.countP (fun link => link.span = some hit.span) ≤ 1) ∧
      ∀ link ∈ links, ∀ span, link.span = some span →
        (∃ hit ∈ scan source, hit.span = span) ∧ SpanSound source link span := by
  have found := scan_found source
  have unplaced : ∀ link ∈ preview.map ParsedLink.reading, link.span = none := by
    intro link member
    obtain ⟨parsed, _, rfl⟩ := List.mem_map.mp member
    rfl
  have pairs := placeLinks_apart unplaced (inOrder_scan source)
  have apart := pairs.imp fun both => both.1
  refine ⟨placeLinks ((scan source).map some) (preview.map ParsedLink.reading), ?_, ?_, apart,
    pairs.imp fun both => both.2, ?_, ?_⟩
  · rw [extract, scanBytes_eq]
    rfl
  · rw [placeLinks_facts, List.map_map]
    rfl
  · intro hit member
    obtain ⟨placed⟩ := found.placed hit member
    have finishes := placed.finishes
    exact countP_span_le_one (by omega) apart
  · intro link member span given
    obtain ⟨hit, candidate, rfl, target, text⟩ := mem_placeLinks unplaced member given
    have inScan : hit ∈ scan source := by simpa using candidate
    obtain ⟨placed⟩ := found.placed hit inScan
    exact ⟨⟨hit, inScan, rfl⟩, placed.spanSound target text⟩

end KnotEditor.Readings
