import Mathlib
import Arvore.Proofs.Load.WellFormed
import Arvore.Proofs.Reading.Datum

/-!
# The words of a datum

A datum holds no other symbols, strings and numbers than the text that it was read from: what is known about the tokens
of the text holds for the datum (`Datum.spelled_of_parse`).
-/

namespace Arvore

variable {L : Lexicon}

/-- A token whose word, if it has one, belongs to a lexicon; a symbol belongs to it by its normal form. -/
def Token.Spelled (L : Lexicon) : Token → Prop
  | .symbol text => L.name (Text.nfc text)
  | .string text => L.string text
  | .number text => L.number text
  | _ => True

namespace Datum

/-- An open structure whose items belong to a lexicon. -/
def Frame.Spelled (L : Lexicon) : Frame → Prop
  | .list _ _ items | .caret _ _ items | .array _ items => ∀ d ∈ items, d.Spelled L
  | .key .. | .colon .. | .value .. | .comma .. => True

/-- What the reader has taken belongs to a lexicon. -/
def State.Spelled (L : Lexicon) : State → Prop
  | .reading stack => ∀ frame ∈ stack, frame.Spelled L
  | .done d => d.Spelled L

attribute [local simp] State.Spelled Frame.Spelled

theorem complete_spelled {d : Datum} {stack : List Frame} (hd : d.Spelled L) (hs : ∀ frame ∈ stack, frame.Spelled L) :
    (complete d stack).Spelled L := by
  unfold complete
  split
  case h_1 => exact hd
  case h_3 =>
    split
    all_goals simp_all
  all_goals simp_all

theorem begin_spelled {line : Nat} {stack : List Frame} {t : Token} {next : State} (ht : t.Spelled L)
    (hs : ∀ frame ∈ stack, frame.Spelled L) (h : begin line stack t = .ok next) : next.Spelled L := by
  unfold begin at h
  split at h
  case h_1 => cases h; exact complete_spelled (.symbol ht) hs
  case h_2 => cases h; exact complete_spelled (.string ht) hs
  case h_3 => cases h; exact complete_spelled (.number ht) hs
  case h_7 => cases h
  all_goals
    cases h
    simpa using hs

theorem step_spelled {line : Nat} {t : Token} {state next : State} (ht : t.Spelled L) (hs : state.Spelled L)
    (h : step line t state = .ok next) : next.Spelled L := by
  cases moves_of_step h with
  | begins h => exact begin_spelled ht hs h
  | listEnd =>
    rw [State.Spelled, List.forall_mem_cons] at hs
    exact complete_spelled (.list fun d hd => hs.1 d (List.mem_reverse.1 hd)) hs.2
  | arrayEnd =>
    rw [State.Spelled, List.forall_mem_cons] at hs
    exact complete_spelled (.array fun d hd => hs.1 d (List.mem_reverse.1 hd)) hs.2
  | emptyEnd | mapEnd =>
    rw [State.Spelled, List.forall_mem_cons] at hs
    exact complete_spelled .map hs.2
  | caret | metadata | key | colon | comma => simp_all

/-- A datum is spelled with the words of its text. -/
theorem spelled_of_parse {text : List Char} {d : Datum} (ht : ∀ t ∈ (Token.scan 1 text).tokens, t.token.Spelled L)
    (h : parse text = .ok d) : d.Spelled L :=
  run_invariant step_spelled ht (fun _ hf => absurd hf List.not_mem_nil) (parse_eq_ok_iff.1 h).1

end Datum

end Arvore
