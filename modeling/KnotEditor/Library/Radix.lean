import Mathlib.Algebra.GroupWithZero.Nat
import Mathlib.Data.List.TakeWhile
import Mathlib.Data.Nat.Digits.Lemmas
import Mathlib.Tactic.Ring

/-! Numbers of any length between two bases: one digit of the source at a time is pushed into the
digits of the target, lowest first, and zeros that lead the source lead the target. -/

namespace Radix

/-- The digits of a carry; `fuel` bounds how many there may be. -/
def spill (base : Nat) : Nat → Nat → List Nat
  | 0, _ => []
  | fuel + 1, carry => if carry = 0 then [] else carry % base :: spill base fuel (carry / base)

def push (base scale : Nat) : List Nat → Nat → List Nat
  | [], carry => spill base carry carry
  | digit :: digits, carry =>
    (carry + digit * scale) % base :: push base scale digits ((carry + digit * scale) / base)

def Within (base scale limit : Nat) : List Nat → Nat → Prop
  | [], carry => carry < limit
  | digit :: digits, carry => carry + digit * scale < limit ∧
      Within base scale limit digits ((carry + digit * scale) / base)

def convert (source target : Nat) (digits : List Nat) : List Nat :=
  List.replicate (digits.takeWhile (· == 0)).length 0 ++
    ((digits.dropWhile (· == 0)).foldl (push target source) []).reverse

def value (base : Nat) (digits : List Nat) : Nat := Nat.ofDigits base digits.reverse

variable {base scale : Nat}

theorem spill_eq_digits (positive : 1 < base) {fuel carry : Nat} (enough : carry ≤ fuel) :
    spill base fuel carry = Nat.digits base carry := by
  induction fuel generalizing carry with
  | zero =>
    have zero := Nat.le_zero.mp enough
    rw [spill, zero, Nat.digits_zero]
  | succ fuel ih =>
    rw [spill]
    by_cases zero : carry = 0
    · rw [if_pos zero, zero, Nat.digits_zero]
    · have smaller : carry / base < carry := Nat.div_lt_self (by omega) positive
      rw [if_neg zero, ih (by omega), ← Nat.digits_def' positive (Nat.pos_of_ne_zero zero)]

theorem push_digits (positive : 1 < base) (scaled : 0 < scale) (number carry : Nat) :
    push base scale (Nat.digits base number) carry = Nat.digits base (number * scale + carry) := by
  induction number using Nat.strong_induction_on generalizing carry with
  | _ number ih =>
    by_cases zero : number = 0
    · rw [zero, Nat.digits_zero, push, spill_eq_digits positive (Nat.le_refl carry),
        Nat.zero_mul, Nat.zero_add]
    · have more : 0 < number := Nat.pos_of_ne_zero zero
      have grown : 0 < number * scale + carry :=
        Nat.add_pos_left (Nat.mul_pos more scaled) carry
      have split : number * scale + carry =
          base * (number / base * scale) + (carry + number % base * scale) := by
        have parts := Nat.div_add_mod number base
        calc number * scale + carry
            = (base * (number / base) + number % base) * scale + carry := by rw [parts]
          _ = base * (number / base * scale) + (carry + number % base * scale) := by ring
      have low : (number * scale + carry) % base = (carry + number % base * scale) % base := by
        rw [split, Nat.mul_add_mod]
      have high : (number * scale + carry) / base =
          number / base * scale + (carry + number % base * scale) / base := by
        rw [split, Nat.mul_add_div (by omega)]
      rw [Nat.digits_def' positive more, push, Nat.digits_def' positive grown, low, high,
        ih (number / base) (Nat.div_lt_self more positive)]

theorem value_concat (base : Nat) (digits : List Nat) (digit : Nat) :
    value base (digits ++ [digit]) = value base digits * base + digit := by
  rw [value, value, List.reverse_append, List.reverse_singleton, List.singleton_append,
    Nat.ofDigits_cons]
  ring

theorem foldl_push (positive : 1 < base) (scaled : 0 < scale) (digits : List Nat) :
    digits.foldl (push base scale) [] = Nat.digits base (value scale digits) := by
  induction digits using List.reverseRecOn with
  | nil => rw [List.foldl_nil, value, List.reverse_nil, Nat.ofDigits_nil, Nat.digits_zero]
  | append_singleton digits digit ih =>
    rw [List.foldl_append, List.foldl_cons, List.foldl_nil, ih, push_digits positive scaled,
      value_concat]

theorem within_of_digits {limit : Nat} (positive : 0 < base) (room : base * scale ≤ limit)
    {digits : List Nat} (digit : ∀ digit ∈ digits, digit < base) {carry : Nat}
    (small : carry < scale) : Within base scale limit digits carry := by
  induction digits generalizing carry with
  | nil =>
    rw [Within]
    have bound : scale ≤ base * scale := Nat.le_mul_of_pos_left scale positive
    omega
  | cons first digits ih =>
    have below : first < base := digit first List.mem_cons_self
    have sum : carry + first * scale < base * scale := by
      calc carry + first * scale < scale + first * scale := Nat.add_lt_add_right small _
        _ = (first + 1) * scale := by ring
        _ ≤ base * scale := Nat.mul_le_mul_right scale below
    refine ⟨Nat.lt_of_lt_of_le sum room, ih ?_ (Nat.div_lt_of_lt_mul sum)⟩
    exact fun later member => digit later (List.mem_cons_of_mem first member)

variable {source target : Nat} {digits : List Nat}

theorem convert_eq (positive : 1 < target) (scaled : 0 < source) :
    convert source target digits = List.replicate (digits.takeWhile (· == 0)).length 0 ++
      (Nat.digits target (value source (digits.dropWhile (· == 0)))).reverse := by
  rw [convert, foldl_push positive scaled]

theorem convert_lt (positive : 1 < target) (scaled : 0 < source) :
    ∀ digit ∈ convert source target digits, digit < target := by
  intro digit member
  rw [convert_eq positive scaled, List.mem_append, List.mem_reverse] at member
  rcases member with zero | member
  · rw [List.eq_of_mem_replicate zero]
    omega
  · exact Nat.digits_lt_base positive member

theorem digits_value (positive : 1 < source) (below : ∀ digit ∈ digits, digit < source)
    (normal : digits.head? ≠ some 0) :
    (Nat.digits source (value source digits)).reverse = digits := by
  rw [value, Nat.digits_ofDigits source positive, List.reverse_reverse]
  · exact fun digit member => below digit (List.mem_reverse.mp member)
  · intro nonempty last
    rw [List.getLast_reverse] at last
    cases digits with
    | nil => exact nonempty rfl
    | cons first rest => exact normal (congrArg some last)

theorem head_digits (number : Nat) : (Nat.digits target number).reverse.head? ≠ some 0 := by
  intro first
  rw [List.head?_reverse] at first
  by_cases zero : number = 0
  · rw [zero, Nat.digits_zero] at first
    cases first
  · have nonempty : Nat.digits target number ≠ [] := Nat.digits_ne_nil_iff_ne_zero.mpr zero
    rw [List.getLast?_eq_some_getLast nonempty] at first
    exact Nat.getLast_digit_ne_zero target zero (Option.some.inj first)

theorem takeWhile_zeros (zeros : Nat) {rest : List Nat} (normal : rest.head? ≠ some 0) :
    (List.replicate zeros 0 ++ rest).takeWhile (· == 0) = List.replicate zeros 0 ∧
      (List.replicate zeros 0 ++ rest).dropWhile (· == 0) = rest := by
  induction zeros with
  | zero =>
    cases rest with
    | nil => exact ⟨rfl, rfl⟩
    | cons first rest =>
      have differs : (first == 0) = false := by
        rw [beq_eq_false_iff_ne]
        exact fun same => normal (congrArg some same)
      simp [differs]
  | succ zeros ih =>
    simpa [List.replicate_succ, List.takeWhile_cons, List.dropWhile_cons] using ih

theorem head_dropWhile : (digits.dropWhile (· == 0)).head? ≠ some 0 := by
  intro first
  have kept := List.head?_dropWhile_not (· == 0) digits
  rw [first] at kept
  cases kept

theorem convert_convert (positive : 1 < source) (wide : 1 < target)
    (below : ∀ digit ∈ digits, digit < source) :
    convert target source (convert source target digits) = digits := by
  have split : List.replicate (digits.takeWhile (· == 0)).length 0 =
      digits.takeWhile (· == 0) := by
    rw [eq_comm, List.eq_replicate_iff]
    refine ⟨rfl, fun digit member => ?_⟩
    have zero := List.mem_takeWhile_imp member
    exact eq_of_beq zero
  have rest : ∀ digit ∈ digits.dropWhile (· == 0), digit < source := fun digit member =>
    below digit ((List.dropWhile_suffix _).subset member)
  obtain ⟨zeros, number⟩ := takeWhile_zeros (digits.takeWhile (· == 0)).length
    (head_digits (value source (digits.dropWhile (· == 0))))
  rw [convert_eq wide (by omega), convert_eq positive (by omega), zeros, number,
    List.length_replicate, value, List.reverse_reverse, Nat.ofDigits_digits,
    digits_value positive rest head_dropWhile, split, List.takeWhile_append_dropWhile]

end Radix
