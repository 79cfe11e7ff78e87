import KnotEditor.Mark.Request
import Mathlib.Data.List.Infix

/-! How a request path names an export, a version of it, or a body. -/

namespace KnotEditor.Mark

theorem segments_ne_nil (separator : Char) (text : List Char) :
    segments separator text ≠ [] := by
  cases text with
  | nil => simp [segments]
  | cons character rest =>
    rw [segments]
    by_cases ends : character = separator
    · simp [ends]
    · rw [if_neg ends]
      cases segments separator rest <;> simp

theorem segments_append (separator : Char) (front back : List Char) :
    segments separator (front ++ separator :: back) =
      segments separator front ++ segments separator back := by
  induction front with
  | nil => simp [segments]
  | cons character rest ih =>
    rw [List.cons_append, segments, segments]
    by_cases ends : character = separator
    · rw [if_pos ends, if_pos ends, ih, List.cons_append]
    · rw [if_neg ends, if_neg ends, ih]
      cases found : segments separator rest with
      | nil => exact absurd found (segments_ne_nil separator rest)
      | cons first others => rfl

theorem segments_of_notMem (separator : Char) (text : List Char) (absent : separator ∉ text) :
    segments separator text = [text] := by
  induction text with
  | nil => rfl
  | cons character rest ih =>
    rw [List.mem_cons, not_or] at absent
    rw [segments, if_neg (Ne.symm absent.1), ih absent.2]

theorem rsplitOnce_append (separator : Char) (base tail : List Char)
    (absent : separator ∉ tail) :
    rsplitOnce separator (base ++ separator :: tail) = some (base, tail) := by
  have kept : ∀ character ∈ tail.reverse, decide (character ≠ separator) = true := by
    intro character member
    rw [decide_eq_true_eq]
    intro same
    exact absent (same ▸ List.mem_reverse.mp member)
  rw [rsplitOnce, List.reverse_append, List.reverse_cons, List.append_assoc,
    List.span_eq_takeWhile_dropWhile, List.takeWhile_append_of_pos kept,
    List.dropWhile_append_of_pos kept, List.singleton_append,
    List.takeWhile_cons_of_neg (by simp), List.dropWhile_cons_of_neg (by simp)]
  simp only [List.append_nil, List.reverse_reverse]

theorem isAsciiDigit_ne (character other : Char) (digit : isAsciiDigit character = true)
    (outside : isAsciiDigit other = false) : character ≠ other := by
  intro same
  rw [same, outside] at digit
  cases digit

theorem slash_notMem_version (digits : List Char)
    (numeric : ∀ character ∈ digits, isAsciiDigit character = true) : '/' ∉ 'v' :: digits := by
  intro member
  rcases List.mem_cons.mp member with same | digit
  · cases same
  · exact isAsciiDigit_ne '/' '/' (numeric '/' digit) rfl rfl

structure RequestPath (path : List Char) : Prop where
  absolute : path.head? = some '/'
  printable : ∀ character ∈ path, isControl character = false
  unqualified : ∀ character ∈ path, character ≠ '?' ∧ character ≠ '#'
  segmented : ∀ segment ∈ segments '/' path, segment ≠ ['.'] ∧ segment ≠ ['.', '.']

theorem validateRequestPath_ok_iff (path : String) (valid : String) :
    validateRequestPath path = .ok valid ↔ valid = path ∧ RequestPath path.toList := by
  rw [validateRequestPath]
  constructor
  · intro accepted
    by_cases refused : path.toList.head? ≠ some '/' ∨ path.toList.any isControl ∨
        path.toList.any (fun character => character == '?' || character == '#') ∨
        (segments '/' path.toList).any
          (fun segment => segment == ['.'] || segment == ['.', '.'])
    · rw [if_pos refused] at accepted
      cases accepted
    · rw [if_neg refused] at accepted
      cases accepted
      simp only [not_or, Decidable.not_not, List.any_eq_true, not_exists, not_and,
        Bool.or_eq_true, beq_iff_eq, Bool.not_eq_true] at refused
      exact ⟨rfl, refused.1, refused.2.1, refused.2.2.1, refused.2.2.2⟩
  · rintro ⟨same, accepted⟩
    subst same
    rw [if_neg]
    simp only [not_or, Decidable.not_not, List.any_eq_true, not_exists, not_and,
      Bool.or_eq_true, beq_iff_eq, Bool.not_eq_true]
    exact ⟨accepted.absolute, accepted.printable, accepted.unqualified, accepted.segmented⟩

structure DocumentPath (path : String) : Prop extends RequestPath path.toList where
  extension : ['.', 'm', 'd'] <:+ path.toList
  named : path ≠ "/.md"

theorem validateDocumentPath_ok (path valid : String)
    (accepted : validateDocumentPath path = .ok valid) : valid = path ∧ DocumentPath path := by
  rw [validateDocumentPath] at accepted
  cases request : validateRequestPath path with
  | error error =>
    rw [request] at accepted
    cases accepted
  | ok checked =>
    rcases (validateRequestPath_ok_iff path checked).mp request with ⟨same, requestPath⟩
    subst same
    rw [request] at accepted
    simp only at accepted
    by_cases refused : ¬ (['.', 'm', 'd'] <:+ checked.toList) ∨ checked = "/.md"
    · rw [if_pos refused] at accepted
      cases accepted
    · rw [if_neg refused] at accepted
      cases accepted
      rw [not_or, Decidable.not_not] at refused
      exact ⟨rfl, requestPath, refused.1, refused.2⟩

theorem requestPath_version (path digits : List Char) (valid : RequestPath path)
    (numeric : ∀ character ∈ digits, isAsciiDigit character = true) :
    RequestPath (path ++ '/' :: 'v' :: digits) where
  absolute := by
    have first := valid.absolute
    cases path with
    | nil => cases first
    | cons character rest => exact first
  printable := by
    intro character member
    simp only [List.mem_append, List.mem_cons] at member
    rcases member with earlier | rfl | rfl | digit
    · exact valid.printable character earlier
    · rfl
    · rfl
    · have shape := numeric character digit
      simp only [isAsciiDigit, Bool.and_eq_true, decide_eq_true_eq, Char.le_def] at shape
      have low : (48 : Nat) ≤ character.toNat := shape.1
      have high : character.toNat ≤ 57 := shape.2
      simp only [isControl, Bool.or_eq_false_iff, decide_eq_false_iff_not, beq_eq_false_iff_ne]
      omega
  unqualified := by
    intro character member
    simp only [List.mem_append, List.mem_cons] at member
    rcases member with earlier | rfl | rfl | digit
    · exact valid.unqualified character earlier
    · decide
    · decide
    · have shape := numeric character digit
      exact ⟨isAsciiDigit_ne character '?' shape rfl, isAsciiDigit_ne character '#' shape rfl⟩
  segmented := by
    intro segment member
    rw [segments_append, segments_of_notMem '/' _ (slash_notMem_version digits numeric),
      List.mem_append, List.mem_singleton] at member
    rcases member with earlier | rfl
    · exact valid.segmented segment earlier
    · simp

theorem resolveMarkPath_version (path : String) (digits : List Char)
    (valid : RequestPath path.toList) (written : digits ≠ [])
    (numeric : ∀ character ∈ digits, isAsciiDigit character = true) :
    resolveMarkPath (path ++ "/v" ++ String.ofList digits) =
      match parseU64 digits with
      | some (version + 1) => .ok (path, some (version + 1))
      | _ => .error .invalidPath := by
  have text : (path ++ "/v" ++ String.ofList digits).toList =
      path.toList ++ '/' :: 'v' :: digits := by
    simp
  have accepted := (validateRequestPath_ok_iff (path ++ "/v" ++ String.ofList digits) _).mpr
    ⟨rfl, by rw [text]; exact requestPath_version path.toList digits valid numeric⟩
  have split := rsplitOnce_append '/' path.toList ('v' :: digits)
    (slash_notMem_version digits numeric)
  have checked : (digits.isEmpty || !digits.all isAsciiDigit) = false := by
    simp [written, List.all_eq_true.mpr numeric]
  rw [resolveMarkPath, accepted]
  simp only [text, split, checked,
    Bool.false_eq_true, if_false, String.ofList_toList]
  all_goals rfl

theorem parseContentHash_documentPath (path : String)
    (extension : ['.', 'm', 'd'] <:+ path.toList) : parseContentHash path = none := by
  rw [parseContentHash]
  by_cases addressed : "/sha256-".toList.isPrefixOf path.toList = true
  · rw [if_pos addressed]
    simp only
    rw [if_pos]
    by_cases short : (path.toList.drop "/sha256-".length).length ≠ 64
    · exact Or.inl short
    · refine Or.inr ?_
      rw [Decidable.not_not, List.length_drop] at short
      rcases extension with ⟨stem, whole⟩
      have size := congrArg List.length whole
      rw [List.length_append, show ['.', 'm', 'd'].length = 3 from rfl] at size
      have prefixSize : "/sha256-".length = 8 := rfl
      have dotted : '.' ∈ path.toList.drop "/sha256-".length := by
        rw [← whole, List.drop_append_of_le_length (by omega)]
        exact List.mem_append_right _ List.mem_cons_self
      rw [Bool.not_eq_true', List.all_eq_false]
      exact ⟨'.', dotted, by decide⟩
  · rw [if_neg addressed]

theorem rsplitOnce_last (separator final : Char) (text base tail : List Char)
    (differs : final ≠ separator)
    (split : rsplitOnce separator (text ++ [final]) = some (base, tail)) :
    final ∈ tail := by
  rw [rsplitOnce, List.reverse_append, List.reverse_singleton, List.singleton_append,
    List.span_eq_takeWhile_dropWhile, List.takeWhile_cons_of_pos (by simpa using differs),
    List.dropWhile_cons_of_pos (by simpa using differs)] at split
  cases rest : text.reverse.dropWhile (· ≠ separator) with
  | nil =>
    rw [rest] at split
    cases split
  | cons first others =>
    rw [rest] at split
    cases split
    simp

theorem resolveMarkPath_documentPath (path : String) (named : DocumentPath path) :
    resolveMarkPath path = .ok (path, none) := by
  have accepted := (validateRequestPath_ok_iff path path).mpr ⟨rfl, named.toRequestPath⟩
  obtain ⟨stem, whole⟩ := named.extension
  rw [resolveMarkPath, accepted]
  simp only
  split
  · case h_1 base number split =>
      have text : path.toList = (stem ++ ['.', 'm']) ++ ['d'] := by simp [← whole]
      rw [text] at split
      have last := rsplitOnce_last '/' 'd' (stem ++ ['.', 'm']) base ('v' :: number)
        (by decide) split
      have letter : 'd' ∈ number := by simpa using last
      have unnumbered : number.all isAsciiDigit = false := by
        rw [List.all_eq_false]
        exact ⟨'d', letter, by decide⟩
      simp [unnumbered]
  · rfl

theorem documentPath_ne_health (path : String) (named : DocumentPath path) : path ≠ "/health" := by
  intro same
  have dotted : '.' ∈ path.toList := named.extension.subset List.mem_cons_self
  rw [same] at dotted
  exact absurd dotted (by decide)

end KnotEditor.Mark
