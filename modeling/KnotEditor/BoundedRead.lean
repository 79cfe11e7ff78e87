import Mathlib.Data.List.Basic

/-! The bounded capture of one file, however short its reads fall and wherever they fail. -/

namespace KnotEditor

/-- An open file: its bytes by position, and what a read returns, which is cut short as it likes. -/
structure FileReader (ε σ : Type) where
  content : Nat → Option UInt8
  position : σ → Nat
  read : (limit : Nat) → σ → Except ε {bytes : List UInt8 // bytes.length ≤ limit} × σ
  advances : ∀ {limit file bytes later}, read limit file = (.ok bytes, later) →
    position later = position file + bytes.1.length
  delivers : ∀ {limit file bytes later}, read limit file = (.ok bytes, later) →
    ∀ index < bytes.1.length, content (position file + index) = bytes.1[index]?
  ends : ∀ {limit file bytes later}, 0 < limit → read limit file = (.ok bytes, later) →
    bytes.1 = [] → content (position file) = none

inductive CaptureError (ε : Type)
  | io (error : ε)
  | fileTooLarge (message : String)
  deriving DecidableEq

variable {ε σ : Type}

def captureChunk : Nat := 8192

def readLimit (maxBytes : Nat) (body : List UInt8) : Nat :=
  let remaining := maxBytes - body.length
  min remaining captureChunk

def readLoop (reader : FileReader ε σ) (maxBytes : Nat)
    (body : {bytes : List UInt8 // bytes.length ≤ maxBytes}) (file : σ) :
    Except (CaptureError ε) (List UInt8) × σ :=
  if full : body.1.length = maxBytes then
    match reader.read 1 file with
    | (.error error, file) => (.error (.io error), file)
    | (.ok read, file) =>
      if read.1.length ≠ 0 then
        (.error (.fileTooLarge "file exceeds the capture byte limit"), file)
      else (.ok body.1, file)
  else
    match reader.read (readLimit maxBytes body.1) file with
    | (.error error, file) => (.error (.io error), file)
    | (.ok read, file) =>
      if read.1.length = 0 then (.ok body.1, file)
      else
        have fits : (body.1 ++ read.1).length ≤ maxBytes := by
          have small := body.2
          have short : read.1.length ≤ maxBytes - body.1.length :=
            Nat.le_trans read.2 (Nat.min_le_left _ _)
          rw [List.length_append]
          omega
        readLoop reader maxBytes ⟨body.1 ++ read.1, fits⟩ file
termination_by maxBytes - body.1.length
decreasing_by
  have room : body.1.length < maxBytes := Nat.lt_of_le_of_ne body.2 full
  have more : 0 < read.1.length := Nat.pos_of_ne_zero ‹_›
  rw [List.length_append]
  exact Nat.sub_lt_sub_left room (Nat.lt_add_of_pos_right more)

def readFileBounded (reader : FileReader ε σ) (maxBytes : Nat) (opened : Except ε σ) :
    Except (CaptureError ε) (List UInt8) :=
  match opened with
  | .error error => .error (.io error)
  | .ok file => (readLoop reader maxBytes ⟨[], Nat.zero_le maxBytes⟩ file).1

namespace FileReader

structure Call (ε : Type) where
  request : Nat
  reply : Except ε (List UInt8)

def Call.bytes (call : Call ε) : List UInt8 :=
  match call.reply with
  | .error _ => []
  | .ok bytes => bytes

def received (calls : List (Call ε)) : List UInt8 := calls.flatMap Call.bytes

def Succeeded (calls : List (Call ε)) : Prop := ∀ call ∈ calls, call.reply.isOk

/-- At every call, what was delivered before it and what it asks for keep within the total. -/
def AsksWithin (total : Nat) (calls : List (Call ε)) : Prop :=
  ∀ before call after, calls = before ++ call :: after →
    (received before).length + call.request ≤ total

def recording (reader : FileReader ε σ) : FileReader ε (σ × List (Call ε)) where
  content := reader.content
  position state := reader.position state.1
  read limit state :=
    ((reader.read limit state.1).1, (reader.read limit state.1).2,
      state.2 ++ [⟨limit, (reader.read limit state.1).1.map Subtype.val⟩])
  advances same := by
    obtain ⟨reply, rfl⟩ := Prod.mk.inj same
    exact reader.advances (Prod.ext reply rfl)
  delivers same := by
    obtain ⟨reply, rfl⟩ := Prod.mk.inj same
    exact reader.delivers (Prod.ext reply rfl)
  ends positive same := by
    obtain ⟨reply, rfl⟩ := Prod.mk.inj same
    exact reader.ends positive (Prod.ext reply rfl)

variable (reader : FileReader ε σ)

def Holds (start : Nat) (bytes : List UInt8) : Prop :=
  ∀ index < bytes.length, reader.content (start + index) = bytes[index]?

def Delivers (start : Nat) (body : List UInt8) : Prop :=
  reader.Holds start body ∧ reader.content (start + body.length) = none

variable {reader} {start : Nat} {body more : List UInt8}

theorem Holds.append (held : reader.Holds start body)
    (next : reader.Holds (start + body.length) more) : reader.Holds start (body ++ more) := by
  intro index bound
  rw [List.length_append] at bound
  by_cases early : index < body.length
  · rw [held index early, List.getElem?_append_left early]
  · have place : start + index = start + body.length + (index - body.length) := by omega
    rw [place, next (index - body.length) (by omega), List.getElem?_append_right (by omega)]

theorem Holds.content_isSome (held : reader.Holds start body) {index : Nat}
    (bound : index < body.length) : reader.content (start + index) ≠ none := by
  rw [held index bound, List.getElem?_eq_getElem bound]
  exact Option.some_ne_none _

theorem Delivers.unique (left : reader.Delivers start body) (right : reader.Delivers start more) :
    body = more := by
  have short : ¬body.length < more.length := fun shorter => right.1.content_isSome shorter left.2
  have long : ¬more.length < body.length := fun longer => left.1.content_isSome longer right.2
  apply List.ext_getElem?
  intro index
  by_cases bound : index < body.length
  · rw [← left.1 index bound, right.1 index (by omega)]
  · rw [List.getElem?_eq_none (by omega), List.getElem?_eq_none (by omega)]

theorem received_concat (calls : List (Call ε)) (call : Call ε) :
    received (calls ++ [call]) = received calls ++ call.bytes := by
  rw [received, List.flatMap_append, List.flatMap_singleton]
  rfl

theorem Succeeded.concat {calls : List (Call ε)} (succeeded : Succeeded calls) {call : Call ε}
    (last : call.reply.isOk) : Succeeded (calls ++ [call]) := by
  intro other member
  rcases List.mem_append.mp member with earlier | here
  · exact succeeded other earlier
  · rw [List.mem_singleton.mp here]
    exact last

theorem AsksWithin.concat {total : Nat} {calls : List (Call ε)} (within : AsksWithin total calls)
    {call : Call ε} (last : (received calls).length + call.request ≤ total) :
    AsksWithin total (calls ++ [call]) := by
  intro before other after same
  rcases List.eq_nil_or_concat after with rfl | ⟨rest, final, rfl⟩
  · obtain ⟨rfl, rfl⟩ := List.append_inj' same rfl |>.imp id List.singleton_inj.mp
    exact last
  · have split : calls ++ [call] = (before ++ other :: rest) ++ [final] := by
      rw [same, List.append_assoc, List.cons_append, List.concat_eq_append]
    exact within before other rest (List.append_inj' split rfl).1

end FileReader

open FileReader

variable {reader : FileReader ε σ} {start maxBytes : Nat}

structure FileReading (reader : FileReader ε σ) (start maxBytes : Nat) (body : List UInt8)
    (state : σ × List (Call ε)) : Prop where
  held : reader.Holds start body
  place : reader.position state.1 = start + body.length
  received_eq : received state.2 = body
  succeeded : Succeeded state.2
  within : AsksWithin (maxBytes + 1) state.2

def Captured (reader : FileReader ε σ) (start maxBytes : Nat) (calls : List (Call ε)) :
    Except (CaptureError ε) (List UInt8) → Prop
  | .ok body => Succeeded calls ∧ reader.Delivers start body ∧ body.length ≤ maxBytes
  | .error (.io _) => ¬Succeeded calls
  | .error (.fileTooLarge _) => ∃ body, reader.Holds start body ∧ maxBytes < body.length

theorem Captured.ok_iff {calls : List (Call ε)} {result : Except (CaptureError ε) (List UInt8)}
    (captured : Captured reader start maxBytes calls result) {body : List UInt8} :
    result = .ok body ↔
      Succeeded calls ∧ reader.Delivers start body ∧ body.length ≤ maxBytes := by
  constructor
  · rintro rfl
    exact captured
  · rintro ⟨succeeded, delivers, bounded⟩
    cases result with
    | ok other => rw [captured.2.1.unique delivers]
    | error failure =>
      cases failure with
      | io error => exact absurd succeeded captured
      | fileTooLarge message =>
        obtain ⟨longer, held, large⟩ := captured
        exact absurd delivers.2 (held.content_isSome (by omega))

theorem length_readLimit {body : List UInt8} (small : body.length ≤ maxBytes) :
    body.length + readLimit maxBytes body ≤ maxBytes + 1 := by
  have short : readLimit maxBytes body ≤ maxBytes - body.length := Nat.min_le_left _ _
  omega

namespace FileReading

variable {body : List UInt8} {state later : σ × List (Call ε)} {limit : Nat}

theorem read_ok (reading : FileReading reader start maxBytes body state)
    (fits : body.length + limit ≤ maxBytes + 1) {bytes : {bytes : List UInt8 // bytes.length ≤ limit}}
    (read : (recording reader).read limit state = (.ok bytes, later)) :
    FileReading reader start maxBytes (body ++ bytes.1) later := by
  have next : reader.Holds (start + body.length) bytes.1 := by
    rw [← reading.place]
    exact (recording reader).delivers read
  obtain ⟨reply, rfl⟩ := Prod.mk.inj read
  refine ⟨reading.held.append next, ?_, ?_, reading.succeeded.concat ?_, reading.within.concat ?_⟩
  · have place := (recording reader).advances read
    rw [List.length_append, ← Nat.add_assoc, ← reading.place]
    exact place
  · rw [received_concat, reading.received_eq, Call.bytes, reply]
    rfl
  · rw [reply]
    rfl
  · rw [reading.received_eq]
    exact fits

theorem read_error (reading : FileReading reader start maxBytes body state)
    (fits : body.length + limit ≤ maxBytes + 1) {error : ε}
    (read : (recording reader).read limit state = (.error error, later)) :
    ¬Succeeded later.2 ∧ AsksWithin (maxBytes + 1) later.2 := by
  obtain ⟨reply, rfl⟩ := Prod.mk.inj read
  refine ⟨fun succeeded => ?_, reading.within.concat ?_⟩
  · have last := succeeded _ (List.mem_append_right _ (List.mem_singleton_self _))
    rw [reply] at last
    cases last
  · rw [reading.received_eq]
    exact fits

theorem ended (reading : FileReading reader start maxBytes body state) (positive : 0 < limit)
    {bytes : {bytes : List UInt8 // bytes.length ≤ limit}}
    (read : (recording reader).read limit state = (.ok bytes, later)) (nothing : bytes.1 = []) :
    reader.Delivers start body := by
  refine ⟨reading.held, ?_⟩
  rw [← reading.place]
  exact (recording reader).ends positive read nothing

theorem captured {body : {bytes : List UInt8 // bytes.length ≤ maxBytes}}
    (reading : FileReading reader start maxBytes body.1 state) :
    Captured reader start maxBytes (readLoop (recording reader) maxBytes body state).2.2
        (readLoop (recording reader) maxBytes body state).1 ∧
      AsksWithin (maxBytes + 1) (readLoop (recording reader) maxBytes body state).2.2 := by
  induction body, state using readLoop.induct (recording reader) maxBytes with
  | case1 body state full error later read =>
    obtain ⟨failed, within⟩ := reading.read_error (by omega) read
    rw [readLoop, dif_pos full, read]
    exact ⟨failed, within⟩
  | case2 body state full bytes later read more =>
    have next := reading.read_ok (by omega) read
    rw [readLoop, dif_pos full, read]
    simp only [if_pos more]
    refine ⟨⟨body.1 ++ bytes.1, next.held, ?_⟩, next.within⟩
    rw [List.length_append]
    omega
  | case3 body state full bytes later read nothing =>
    have next := reading.read_ok (by omega) read
    have empty : bytes.1 = [] := List.length_eq_zero_iff.mp (not_not.mp nothing)
    rw [readLoop, dif_pos full, read]
    simp only [if_neg nothing]
    exact ⟨⟨next.succeeded, reading.ended (by decide) read empty, body.2⟩, next.within⟩
  | case4 body state open_ error later read =>
    obtain ⟨failed, within⟩ := reading.read_error (length_readLimit body.2) read
    rw [readLoop, dif_neg open_, read]
    exact ⟨failed, within⟩
  | case5 body state open_ bytes later read nothing =>
    have next := reading.read_ok (length_readLimit body.2) read
    have empty : bytes.1 = [] := List.length_eq_zero_iff.mp nothing
    have positive : 0 < readLimit maxBytes body.1 := by
      have bound := body.2
      exact Nat.lt_min.mpr ⟨by omega, by decide⟩
    rw [readLoop, dif_neg open_, read]
    simp only [if_pos nothing]
    exact ⟨⟨next.succeeded, reading.ended positive read empty, body.2⟩, next.within⟩
  | case6 body state open_ bytes later read more fits ih =>
    have next := reading.read_ok (length_readLimit body.2) read
    rw [readLoop, dif_neg open_, read]
    simp only [if_neg more]
    exact ih next

end FileReading

theorem read_recording {limit : Nat} {state later : σ × List (Call ε)}
    {reply : Except ε {bytes : List UInt8 // bytes.length ≤ limit}}
    (read : (recording reader).read limit state = (reply, later)) :
    reader.read limit state.1 = (reply, later.1) := by
  obtain ⟨same, rfl⟩ := Prod.mk.inj read
  exact Prod.ext same rfl

theorem readLoop_recording (body : {bytes : List UInt8 // bytes.length ≤ maxBytes})
    (state : σ × List (Call ε)) :
    (readLoop (recording reader) maxBytes body state).1 = (readLoop reader maxBytes body state.1).1 := by
  induction body, state using readLoop.induct (recording reader) maxBytes with
  | case1 body state full error later read =>
    rw [readLoop, readLoop, dif_pos full, dif_pos full, read, read_recording read]
  | case2 body state full bytes later read more =>
    rw [readLoop, readLoop, dif_pos full, dif_pos full, read, read_recording read]
    simp only [if_pos more]
  | case3 body state full bytes later read nothing =>
    rw [readLoop, readLoop, dif_pos full, dif_pos full, read, read_recording read]
    simp only [if_neg nothing]
  | case4 body state open_ error later read =>
    rw [readLoop, readLoop, dif_neg open_, dif_neg open_, read, read_recording read]
  | case5 body state open_ bytes later read nothing =>
    rw [readLoop, readLoop, dif_neg open_, dif_neg open_, read, read_recording read]
    simp only [if_pos nothing]
  | case6 body state open_ bytes later read more fits ih =>
    rw [readLoop, readLoop, dif_neg open_, dif_neg open_, read, read_recording read]
    simp only [if_neg more]
    exact ih

end KnotEditor
