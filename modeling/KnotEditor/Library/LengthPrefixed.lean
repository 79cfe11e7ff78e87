import Mathlib.Algebra.GroupWithZero.Nat

/-! Byte strings each written behind its length: what a stream of them tells apart. -/

namespace LengthPrefixed

/-- `value` in `width` bytes, the lowest first. -/
def littleEndian : Nat → Nat → List UInt8
  | 0, _ => []
  | width + 1, value => UInt8.ofNat (value % 256) :: littleEndian width (value / 256)

theorem length_littleEndian (width value : Nat) : (littleEndian width value).length = width := by
  induction width generalizing value with
  | zero => rfl
  | succ width ih => rw [littleEndian, List.length_cons, ih]

theorem littleEndian_inj {width left right : Nat} (leftFits : left < 256 ^ width)
    (rightFits : right < 256 ^ width) (same : littleEndian width left = littleEndian width right) :
    left = right := by
  induction width generalizing left right with
  | zero =>
    rw [Nat.pow_zero, Nat.lt_one_iff] at leftFits rightFits
    rw [leftFits, rightFits]
  | succ width ih =>
    rw [littleEndian, littleEndian, List.cons.injEq] at same
    rw [Nat.pow_succ] at leftFits rightFits
    have high := ih (Nat.div_lt_of_lt_mul (by omega)) (Nat.div_lt_of_lt_mul (by omega)) same.2
    have low := congrArg UInt8.toNat same.1
    rw [UInt8.toNat_ofNat', UInt8.toNat_ofNat'] at low
    omega

def framed (bytes : List UInt8) : List UInt8 :=
  littleEndian 8 bytes.length ++ bytes

theorem framed_append_inj {left right leftRest rightRest : List UInt8}
    (leftFits : left.length < 256 ^ 8) (rightFits : right.length < 256 ^ 8)
    (same : framed left ++ leftRest = framed right ++ rightRest) :
    left = right ∧ leftRest = rightRest := by
  rw [framed, framed, List.append_assoc, List.append_assoc] at same
  have widths : (littleEndian 8 left.length).length = (littleEndian 8 right.length).length := by
    rw [length_littleEndian, length_littleEndian]
  rcases List.append_inj same widths with ⟨lengths, rests⟩
  exact List.append_inj rests (littleEndian_inj leftFits rightFits lengths)

theorem framed_ne_nil (bytes : List UInt8) : framed bytes ≠ [] := by
  intro empty
  have length := congrArg List.length empty
  rw [framed, List.length_append, length_littleEndian, List.length_nil] at length
  omega

theorem framedPairs_inj {α : Type} (first second : α → List UInt8) {left right : List α}
    (leftFits : ∀ item ∈ left, (first item).length < 256 ^ 8 ∧ (second item).length < 256 ^ 8)
    (rightFits : ∀ item ∈ right, (first item).length < 256 ^ 8 ∧ (second item).length < 256 ^ 8)
    (tells : ∀ one two, first one = first two → second one = second two → one = two)
    (same : (left.flatMap fun item => framed (first item) ++ framed (second item)) =
      right.flatMap fun item => framed (first item) ++ framed (second item)) : left = right := by
  induction left generalizing right with
  | nil =>
    cases right with
    | nil => rfl
    | cons item rest =>
      rw [List.flatMap_nil, List.flatMap_cons, List.append_assoc] at same
      exact absurd (List.append_eq_nil_iff.mp same.symm).1 (framed_ne_nil _)
  | cons item rest ih =>
    cases right with
    | nil =>
      rw [List.flatMap_nil, List.flatMap_cons, List.append_assoc] at same
      exact absurd (List.append_eq_nil_iff.mp same).1 (framed_ne_nil _)
    | cons other others =>
      rw [List.flatMap_cons, List.flatMap_cons, List.append_assoc, List.append_assoc] at same
      have ownFits := leftFits item List.mem_cons_self
      have otherFits := rightFits other List.mem_cons_self
      rcases framed_append_inj ownFits.1 otherFits.1 same with ⟨firsts, afterFirst⟩
      rcases framed_append_inj ownFits.2 otherFits.2 afterFirst with ⟨seconds, remaining⟩
      rw [tells item other firsts seconds, ih
        (fun later member => leftFits later (List.mem_cons_of_mem _ member))
        (fun later member => rightFits later (List.mem_cons_of_mem _ member)) remaining]

/-- `value` in `width` bytes, the highest first. -/
def bigEndian (width value : Nat) : List UInt8 := (littleEndian width value).reverse

theorem length_bigEndian (width value : Nat) : (bigEndian width value).length = width := by
  rw [bigEndian, List.length_reverse, length_littleEndian]

theorem bigEndian_inj {width left right : Nat} (leftFits : left < 256 ^ width)
    (rightFits : right < 256 ^ width) (same : bigEndian width left = bigEndian width right) :
    left = right :=
  littleEndian_inj leftFits rightFits (List.reverse_inj.mp same)

def ReadsOff {α : Type} (encode : α → List UInt8) (fits : α → Prop) : Prop :=
  ∀ left right leftRest rightRest, fits left → fits right →
    encode left ++ leftRest = encode right ++ rightRest → left = right ∧ leftRest = rightRest

section

variable {α β : Type} {encode : α → List UInt8} {fits : α → Prop}

theorem readsOff_of_width (width : Nat) (sized : ∀ item, (encode item).length = width)
    (tells : Function.Injective encode) : ReadsOff encode fun _ => True := by
  intro left right leftRest rightRest _ _ same
  rcases List.append_inj same ((sized left).trans (sized right).symm) with ⟨fields, rests⟩
  exact ⟨tells fields, rests⟩

theorem readsOff_bigEndian (width : Nat) :
    ReadsOff (bigEndian width) fun value => value < 256 ^ width := by
  intro left right leftRest rightRest leftFits rightFits same
  have widths : (bigEndian width left).length = (bigEndian width right).length := by
    rw [length_bigEndian, length_bigEndian]
  rcases List.append_inj same widths with ⟨fields, rests⟩
  exact ⟨bigEndian_inj leftFits rightFits fields, rests⟩

theorem readsOff_sized (width : Nat) :
    ReadsOff (fun bytes : List UInt8 => bigEndian width bytes.length ++ bytes)
      fun bytes => bytes.length < 256 ^ width := by
  intro left right leftRest rightRest leftFits rightFits same
  simp only [List.append_assoc] at same
  rcases readsOff_bigEndian width _ _ _ _ leftFits rightFits same with ⟨lengths, afterLength⟩
  exact List.append_inj afterLength lengths

theorem ReadsOff.sequence (each : ReadsOff encode fits) {left right : List α}
    {leftRest rightRest : List UInt8} (leftFits : ∀ item ∈ left, fits item)
    (rightFits : ∀ item ∈ right, fits item) (lengths : left.length = right.length)
    (same : left.flatMap encode ++ leftRest = right.flatMap encode ++ rightRest) :
    left = right ∧ leftRest = rightRest := by
  induction left generalizing right with
  | nil =>
    cases right with
    | nil => exact ⟨rfl, same⟩
    | cons item rest => cases lengths
  | cons item rest ih =>
    cases right with
    | nil => cases lengths
    | cons other others =>
      simp only [List.flatMap_cons, List.append_assoc] at same
      rcases each _ _ _ _ (leftFits item List.mem_cons_self)
        (rightFits other List.mem_cons_self) same with ⟨rfl, afterFirst⟩
      rcases ih (fun later member => leftFits later (List.mem_cons_of_mem _ member))
        (fun later member => rightFits later (List.mem_cons_of_mem _ member))
        (Nat.succ.inj lengths) afterFirst with ⟨rfl, rests⟩
      exact ⟨rfl, rests⟩

theorem ReadsOff.counted (each : ReadsOff encode fits) (width : Nat) :
    ReadsOff (fun items : List α => bigEndian width items.length ++ items.flatMap encode)
      fun items => items.length < 256 ^ width ∧ ∀ item ∈ items, fits item := by
  intro left right leftRest rightRest leftFits rightFits same
  simp only [List.append_assoc] at same
  rcases readsOff_bigEndian width _ _ _ _ leftFits.1 rightFits.1 same with ⟨lengths, afterCount⟩
  exact each.sequence leftFits.2 rightFits.2 lengths afterCount

end

end LengthPrefixed
