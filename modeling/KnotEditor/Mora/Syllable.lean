import Mathlib.Data.List.Basic

/-! Phones and the one syllabification procedure every language shares: the vowels are the
nuclei, and the consonants between two nuclei are divided by onset maximization. -/

namespace KnotEditor.Mora

inductive Class
  | vowel
  | glide
  | liquid
  | nasal
  | fricative
  | affricate
  | stop
  deriving DecidableEq

def Class.sonority : Class → Nat
  | .vowel => 6
  | .glide => 5
  | .liquid => 4
  | .nasal => 3
  | .fricative => 2
  | .affricate => 1
  | .stop => 0

def Class.isVowel : Class → Bool
  | .vowel => true
  | _ => false

inductive Stress
  | none
  | unstressed
  | secondary
  | primary
  deriving DecidableEq

structure Phone where
  id : UInt16
  phoneClass : Class
  long : Bool := false
  stress : Stress := .none
  deriving DecidableEq

def Phone.isVowel (phone : Phone) : Bool :=
  phone.phoneClass.isVowel

/-- `finish` is the source's `end`. -/
structure Syllable where
  start : Nat
  nucleus : Nat
  finish : Nat
  deriving DecidableEq

structure SyllableRule where
  maxOnset : Nat
  sibilantStopOnset : Bool
  deriving DecidableEq

def SyllableRule.english : SyllableRule := ⟨3, true⟩

def SyllableRule.strict : SyllableRule := ⟨2, false⟩

def SyllableRule.simple : SyllableRule := ⟨1, false⟩

def sonorityRises : List Phone → Bool
  | first :: second :: rest =>
    decide (first.phoneClass.sonority < second.phoneClass.sonority) &&
      sonorityRises (second :: rest)
  | _ => true

def isLegalOnset (cluster : List Phone) (rule : SyllableRule) : Bool :=
  if cluster.length > rule.maxOnset then
    false
  else
    match cluster with
    | first :: second :: rest =>
      if rule.sibilantStopOnset && first.phoneClass == .fricative &&
          decide (second.phoneClass.sonority ≤ Class.fricative.sonority) then
        sonorityRises (second :: rest)
      else
        sonorityRises cluster
    | _ => true

def markNuclei (index count : Nat) (out : List Syllable) :
    List Phone → Option Nat × List Syllable
  | [] => (some count, out)
  | phone :: rest =>
    if phone.isVowel then
      if count ≥ out.length then
        (none, out)
      else
        markNuclei (index + 1) (count + 1) (out.set count ⟨index, index, index + 1⟩) rest
    else
      markNuclei (index + 1) count out rest

def clusterBetween (phones : List Phone) (left right : Nat) : List Phone :=
  (phones.drop (left + 1)).take (right - (left + 1))

def onsetTake (cluster : List Phone) (rule : SyllableRule) : Nat :=
  ((List.range' 1 (min cluster.length rule.maxOnset)).reverse.find? fun take =>
    isLegalOnset (cluster.drop (cluster.length - take)) rule).getD 0

def divideCluster (phones : List Phone) (rule : SyllableRule) (out : List Syllable) (i : Nat) :
    List Syllable :=
  match out[i]?, out[i + 1]? with
  | some before, some after =>
    let split := after.nucleus -
      onsetTake (clusterBetween phones before.nucleus after.nucleus) rule
    (out.set i { before with finish := split }).set (i + 1) { after with start := split }
  | _, _ => out

def syllabifyInto (phones : List Phone) (rule : SyllableRule) (out : List Syllable) :
    Option Nat × List Syllable :=
  match markNuclei 0 0 out phones with
  | (none, marked) => (none, marked)
  | (some 0, marked) => (some 0, marked)
  | (some (last + 1), marked) =>
    let opened := marked.modify 0 fun syllable => { syllable with start := 0 }
    let closed := opened.modify last fun syllable => { syllable with finish := phones.length }
    (some (last + 1), (List.range last).foldl (divideCluster phones rule) closed)

def syllabify (phones : List Phone) (rule : SyllableRule) : List Syllable :=
  let written := syllabifyInto phones rule (List.replicate phones.length ⟨0, 0, 0⟩)
  written.2.take (written.1.getD 0)

end KnotEditor.Mora
