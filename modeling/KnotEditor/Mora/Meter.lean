import KnotEditor.Mora.Syllable
import Mathlib.Algebra.Order.Field.Basic
import Mathlib.Algebra.Order.Field.Rat
import Mathlib.Algebra.Order.Ring.Cast
import Mathlib.Data.List.MinMax
import Mathlib.Data.Int.ConditionallyCompleteOrder
import Mathlib.Data.Prod.Lex

/-! Meter: feet, lines, and which meter a line of beats scans best as. -/

namespace KnotEditor.Mora

inductive Beat
  | strong
  | weak
  deriving DecidableEq

inductive Foot
  | iamb
  | trochee
  | spondee
  | pyrrhic
  | dactyl
  | anapest
  | amphibrach
  | cretic
  deriving DecidableEq

def Foot.pattern : Foot → List Beat
  | .iamb => [.weak, .strong]
  | .trochee => [.strong, .weak]
  | .spondee => [.strong, .strong]
  | .pyrrhic => [.weak, .weak]
  | .dactyl => [.strong, .weak, .weak]
  | .anapest => [.weak, .weak, .strong]
  | .amphibrach => [.weak, .strong, .weak]
  | .cretic => [.strong, .weak, .strong]

def Foot.positions (foot : Foot) : Nat := foot.pattern.length

structure Meter where
  foot : Foot
  feet : Nat
  deriving DecidableEq

def Meter.positions (meter : Meter) : Nat := meter.foot.positions * meter.feet

def Meter.beatAt (meter : Meter) (position : Nat) : Option Beat :=
  meter.foot.pattern[position % meter.foot.positions]?

structure Scansion where
  meter : Meter
  matched : Nat
  compared : Nat
  overrun : Int
  deriving DecidableEq

def Scansion.fit (scansion : Scansion) : Rat :=
  if scansion.compared = 0 then 0 else (scansion.matched : Rat) / scansion.compared

def Scansion.isRegular (scansion : Scansion) : Bool :=
  scansion.matched == scansion.compared && scansion.overrun == 0 && decide (0 < scansion.compared)

def scan (beats : List Beat) (meter : Meter) : Scansion :=
  let compared := min beats.length meter.positions
  let matched := ((beats.take compared).zipIdx.filter fun entry =>
    decide (meter.beatAt entry.2 = some entry.1)).length
  ⟨meter, matched, compared, (beats.length : Int) - meter.positions⟩

def Scansion.outranks (scansion best : Scansion) : Prop :=
  best.fit < scansion.fit ∨
    best.fit = scansion.fit ∧ -(best.overrun.natAbs : Int) < -(scansion.overrun.natAbs : Int)

instance (scansion best : Scansion) : Decidable (scansion.outranks best) :=
  inferInstanceAs (Decidable (_ ∨ _))

def keepBetter (best : Option Scansion) (scansion : Scansion) : Option Scansion :=
  match best with
  | none => some scansion
  | some held => if scansion.outranks held then some scansion else best

def feetCounts (beats : List Beat) (foot : Foot) : List Nat :=
  [beats.length / foot.positions,
    max ((beats.length + foot.positions - 1) / foot.positions) 1]

/-- Try every whole-line meter that the feet can form over the beats and keep the best fit. -/
def scanBest (beats : List Beat) (feet : List Foot) : Option Scansion :=
  feet.foldl (fun best foot =>
    (feetCounts beats foot).foldl (fun best count =>
      if count = 0 then best else keepBetter best (scan beats ⟨foot, count⟩)) best) none

def considered (beats : List Beat) (feet : List Foot) : List Scansion :=
  feet.flatMap fun foot =>
    ((feetCounts beats foot).filter fun count => decide (count ≠ 0)).map fun count =>
      scan beats ⟨foot, count⟩

def Scansion.rank (scansion : Scansion) : Lex (Rat × Int) :=
  toLex (scansion.fit, -(scansion.overrun.natAbs : Int))

theorem outranks_iff {scansion best : Scansion} :
    scansion.outranks best ↔ best.rank < scansion.rank := by
  rw [Scansion.rank, Scansion.rank, Prod.Lex.toLex_lt_toLex]
  exact Iff.rfl

theorem keepBetter_eq : keepBetter = List.argAux fun other held => held.rank < other.rank := by
  funext best scansion
  cases best with
  | none => rfl
  | some held => simp only [keepBetter, List.argAux, outranks_iff]

theorem scanBest_eq (beats : List Beat) (feet : List Foot) :
    scanBest beats feet = (considered beats feet).argmax Scansion.rank := by
  rw [List.argmax, ← keepBetter_eq, considered, List.foldl_flatMap, scanBest]
  congr 1
  funext best foot
  rw [List.foldl_map, List.foldl_filter]
  congr 1
  funext held count
  by_cases none_ : count = 0 <;> simp [none_]

theorem argmax_split {α β : Type} [LinearOrder β] {rank : α → β} {items : List α} {best : α}
    (greatest : items.argmax rank = some best) :
    ∃ before after, items = before ++ best :: after ∧ (∀ item ∈ before, rank item < rank best) ∧
      ∀ item ∈ after, rank item ≤ rank best := by
  induction items using List.reverseRecOn generalizing best with
  | nil => cases greatest
  | append_singleton items item ih =>
    rw [List.argmax_concat] at greatest
    cases held : items.argmax rank with
    | none =>
      rw [held] at greatest
      cases greatest
      rw [List.argmax_eq_none.mp held]
      exact ⟨[], [], rfl, by simp, by simp⟩
    | some earlier =>
      rw [held] at greatest
      simp only at greatest
      split at greatest
      next above =>
        cases greatest
        refine ⟨items, [], rfl, ?_, by simp⟩
        intro other member
        exact lt_of_le_of_lt (List.le_of_mem_argmax member held) above
      next below =>
        cases greatest
        obtain ⟨before, after, rfl, ahead, behind⟩ := ih held
        refine ⟨before, after ++ [item], by simp, ahead, ?_⟩
        intro other member
        rcases List.mem_append.mp member with member | member
        · exact behind other member
        · rw [List.mem_singleton.mp member]
          exact le_of_not_gt below

theorem Foot.positions_pos (foot : Foot) : 0 < foot.positions := by
  cases foot <;> decide

theorem mem_considered {beats : List Beat} {feet : List Foot} {scansion : Scansion} :
    scansion ∈ considered beats feet ↔ ∃ foot ∈ feet, ∃ count ∈ feetCounts beats foot,
      count ≠ 0 ∧ scansion = scan beats ⟨foot, count⟩ := by
  simp only [considered, List.mem_flatMap, List.mem_map, List.mem_filter, decide_eq_true_eq,
    and_assoc, @eq_comm _ scansion]

theorem matched_le_compared (beats : List Beat) (meter : Meter) :
    (scan beats meter).matched ≤ (scan beats meter).compared := by
  refine Nat.le_trans (List.length_filter_le ..) ?_
  rw [List.length_zipIdx, List.length_take]
  exact Nat.min_le_left ..

theorem Scansion.fit_le_one {scansion : Scansion} (bounded : scansion.matched ≤ scansion.compared) :
    scansion.fit ≤ 1 := by
  rw [fit]
  split
  · exact zero_le_one
  next some_ =>
    rw [div_le_one (Nat.cast_pos.mpr (Nat.pos_of_ne_zero some_))]
    exact Nat.cast_le.mpr bounded

theorem Scansion.isRegular_iff {scansion : Scansion} : scansion.isRegular = true ↔
    scansion.matched = scansion.compared ∧ scansion.overrun = 0 ∧ 0 < scansion.compared := by
  simp only [isRegular, Bool.and_eq_true, beq_iff_eq, decide_eq_true_eq, and_assoc]

theorem Scansion.isRegular_iff_rank {scansion : Scansion}
    (bounded : scansion.matched ≤ scansion.compared) :
    scansion.isRegular = true ↔ toLex (1, 0) ≤ scansion.rank := by
  have atMost := fit_le_one bounded
  rw [isRegular_iff, rank, Prod.Lex.toLex_le_toLex]
  constructor
  · rintro ⟨all, spare, some_⟩
    have positive : (scansion.compared : Rat) ≠ 0 := Nat.cast_ne_zero.mpr some_.ne'
    right
    refine ⟨?_, by rw [spare]; exact le_refl _⟩
    rw [fit, if_neg some_.ne', all, div_self positive]
  · rintro (above | ⟨perfect, spare⟩)
    · exact absurd above (not_lt_of_ge atMost)
    · simp only at perfect spare
      rw [fit] at perfect
      split at perfect
      · exact absurd perfect one_ne_zero
      next some_ =>
        have positive : (scansion.compared : Rat) ≠ 0 := Nat.cast_ne_zero.mpr some_
        have all := (eq_div_iff positive).mp perfect
        rw [one_mul] at all
        exact ⟨(Nat.cast_inj.mp all).symm, by omega, Nat.pos_of_ne_zero some_⟩

theorem regular_considered {beats : List Beat} {feet : List Foot} {foot : Foot} {count : Nat}
    (candidate : foot ∈ feet) (regular : (scan beats ⟨foot, count⟩).isRegular = true) :
    scan beats ⟨foot, count⟩ ∈ considered beats feet := by
  obtain ⟨_, spare, some_⟩ := Scansion.isRegular_iff.mp regular
  have whole : beats.length = foot.positions * count := by
    simp only [scan, Meter.positions] at spare
    omega
  refine mem_considered.mpr ⟨foot, candidate, count, ?_, ?_, rfl⟩
  · rw [feetCounts, whole, Nat.mul_div_cancel_left _ foot.positions_pos]
    exact List.mem_cons_self
  · rintro rfl
    simp [scan, Meter.positions] at some_

end KnotEditor.Mora

/-! English: the names of the phones, and the beats of a line by stress. -/

namespace KnotEditor.Mora

def arpabet : List String :=
  ["AA", "AE", "AH", "AO", "AW", "AY", "B", "CH", "D", "DH", "EH", "ER", "EY", "F", "G", "HH", "IH",
    "IY", "JH", "K", "L", "M", "N", "NG", "OW", "OY", "P", "R", "S", "SH", "T", "TH", "UH", "UW",
    "V", "W", "Y", "Z", "ZH"]

def symbol (id : UInt16) : Option String := arpabet[id.toNat]?

def Stress.isProminent (stress : Stress) : Bool := stress == .primary || stress == .secondary

def beats (phones : List Phone) (syllables : List Syllable) : List Beat :=
  syllables.map fun syllable =>
    if phones[syllable.nucleus]?.any fun phone => phone.stress.isProminent then .strong else .weak

def Foot.common : List Foot := [.iamb, .trochee, .dactyl, .anapest]

end KnotEditor.Mora
