import KnotEditor.FileCatalog
import KnotEditor.Utf8

/-! Unix paths as bytes: the components they are read as. -/

namespace KnotEditor

namespace FilePath

def separator : UInt8 := 47

def componentOf (piece : List UInt8) : Option PathComponent :=
  if piece = [] ∨ piece = utf8Bytes ['.'] then none
  else if piece = utf8Bytes ['.', '.'] then some .parentDir
  else some (.normal piece.toByteArray)

def components (text : List UInt8) : FilePath :=
  let names := (text.splitOn separator).filterMap componentOf
  if text.head? = some separator then .rootDir :: names
  else if (text.splitOn separator).head? = some (utf8Bytes ['.']) then .curDir :: names
  else names

def nameOf : PathComponent → Option ByteArray
  | .normal name => some name
  | _ => none

def absolute (names : List ByteArray) : FilePath := .rootDir :: names.map .normal

def relative (names : List ByteArray) : FilePath := names.map .normal

def IsName (name : ByteArray) : Prop :=
  separator ∉ name.data.toList ∧ componentOf name.data.toList = some (.normal name)

end FilePath

theorem separator_notMem_utf8Bytes {text : List Char} (absent : '/' ∉ text) :
    FilePath.separator ∉ utf8Bytes text := by
  intro member
  rcases mem_utf8Bytes_ascii member (by decide) with ⟨character, present, same⟩
  have slash : character = '/' := Char.toNat_inj.mp same
  exact absent (slash ▸ present)

theorem utf8Bytes_intercalate (pieces : List (List Char)) :
    utf8Bytes (['/'].intercalate pieces) =
      [FilePath.separator].intercalate (pieces.map utf8Bytes) := by
  induction pieces with
  | nil => rfl
  | cons first rest ih =>
    cases rest with
    | nil => simp
    | cons second others =>
      rw [List.intercalate_cons_cons, utf8Bytes_append, utf8Bytes_append, ih]
      simp only [List.map_cons, List.intercalate_cons_cons]
      rfl

theorem notMem_of_mem_splitOn {α : Type} [BEq α] [LawfulBEq α] {text piece : List α} {mark : α}
    (member : piece ∈ text.splitOn mark) : mark ∉ piece := by
  induction text generalizing piece with
  | nil =>
    rw [List.splitOn_nil, List.mem_singleton] at member
    simp [member]
  | cons first rest ih =>
    rw [List.splitOn_cons_eq_if_modifyHead] at member
    split at member
    · rcases List.mem_cons.mp member with rfl | later
      · simp
      · exact ih later
    next other =>
      have differs : first ≠ mark := by simpa using other
      cases pieces : rest.splitOn mark with
      | nil => exact absurd pieces (List.splitOn_ne_nil mark rest)
      | cons head others =>
        rw [pieces] at member ih
        rcases List.mem_cons.mp member with rfl | later
        · intro inside
          rcases List.mem_cons.mp inside with same | inside
          · exact differs same.symm
          · exact ih List.mem_cons_self inside
        · exact ih (List.mem_cons_of_mem _ later)

namespace FilePath

theorem componentOf_ne_curDir (piece : List UInt8) : componentOf piece ≠ some .curDir := by
  unfold componentOf
  split
  · simp
  · split <;> simp

theorem componentOf_ne_rootDir (piece : List UInt8) : componentOf piece ≠ some .rootDir := by
  unfold componentOf
  split
  · simp
  · split <;> simp

theorem rootDir_notMem_filterMap (pieces : List (List UInt8)) :
    .rootDir ∉ pieces.filterMap componentOf := by
  intro member
  rcases List.mem_filterMap.mp member with ⟨piece, -, named⟩
  exact componentOf_ne_rootDir piece named

theorem rootDir_notMem_tail (text : List UInt8) : .rootDir ∉ (components text).tail := by
  unfold components
  have pieces := rootDir_notMem_filterMap (text.splitOn separator)
  simp only
  split
  · exact pieces
  · split
    · exact pieces
    · exact fun member => pieces (List.mem_of_mem_tail member)

theorem join_components (base : FilePath) {text : List UInt8}
    (unrooted : text.head? ≠ some separator) :
    base.join (components text) = base ++ (text.splitOn separator).filterMap componentOf := by
  have kept : ((text.splitOn separator).filterMap componentOf).filter (· ≠ .curDir) =
      (text.splitOn separator).filterMap componentOf := by
    refine List.filter_eq_self.mpr fun component member => ?_
    rcases List.mem_filterMap.mp member with ⟨piece, -, named⟩
    refine decide_eq_true fun same => componentOf_ne_curDir piece ?_
    rw [named, same]
  have relative : isAbsolute ((text.splitOn separator).filterMap componentOf) = false := by
    unfold isAbsolute
    rw [beq_eq_false_iff_ne]
    intro first
    exact rootDir_notMem_filterMap _ (List.mem_of_head? first)
  unfold components
  simp only [if_neg unrooted]
  split
  · rw [join, if_neg (by simp [isAbsolute]), List.filter_cons, if_neg (by simp), kept]
  · rw [join, relative, if_neg (by decide), kept]

theorem normal_mem_components {text : List UInt8} {name : ByteArray}
    (member : .normal name ∈ components text) : IsName name := by
  have piece : .normal name ∈ (text.splitOn separator).filterMap componentOf := by
    unfold components at member
    simp only at member
    split at member
    · simpa using member
    · split at member
      · simpa using member
      · exact member
  rcases List.mem_filterMap.mp piece with ⟨bytes, present, named⟩
  have same : bytes = name.data.toList := by
    unfold componentOf at named
    split at named
    · cases named
    · split at named
      · cases named
      · cases named
        simp
  rw [same] at named present
  exact ⟨notMem_of_mem_splitOn present, named⟩

end FilePath

end KnotEditor
